import CryptoVaultHub.Withdrawal.Effects

/-!
# How the calls and jobs go on

The points a call or job can reach from each of its points, with what it has read
or checked on the way, and the statements that stand at the points. Every
invariant of the services is proved by cases on these lists.
-/

namespace CryptoVaultHub.Withdrawal

/-- The first points of the calls and jobs. -/
inductive Process.Fresh : Process → Prop where
  | approve (id : WithdrawalId) (clientId : ClientId) : Fresh (.approve (.read id clientId))
  | cancel (id : WithdrawalId) (clientId : ClientId) : Fresh (.cancel (.read id clientId))
  | submit (operationId : OperationId) (clientId : ClientId) (signature : List UInt8) (now : Nat) :
      Fresh (.submit (.load operationId clientId signature now))
  | expire (now : Nat) : Fresh (.expire (.select now))
  | poll (run : Nat) : Fresh (.poll run .select)
  | execute (attempt : Attempt) : Fresh (.execute attempt .claim)
  | confirm (attempt : Attempt) : Fresh (.confirm attempt .check)

variable {process : Process}

theorem start_fresh {shared after : Shared} {begun : Start}
    (started : start shared begun = some (after, some process)) : process.Fresh := by
  cases begun with
  | create request isRejected =>
    simp only [start] at started
    split at started <;> cases started
  | execute job | confirm job =>
    simp only [start] at started
    split at started
    · split at started
      · cases started
        constructor
      · cases started
    · cases started
  | approve | cancel | submit | expireStale | poll =>
    cases started
    constructor
  | promote | promoteConfirm | stall | stallConfirm | stallOut | stallOutConfirm =>
    cases started

/-- Two points of one call or job. -/
inductive Process.SameCall : Process → Process → Prop where
  | approve (first second : ApprovePoint) : SameCall (.approve first) (.approve second)
  | cancel (first second : CancelPoint) : SameCall (.cancel first) (.cancel second)
  | submit (first second : SubmitPoint) : SameCall (.submit first) (.submit second)
  | expire (first second : ExpirePoint) : SameCall (.expire first) (.expire second)
  | poll (run : Nat) (first second : PollPoint) : SameCall (.poll run first) (.poll run second)
  | execute (attempt : Attempt) (first second : ExecutePoint) :
      SameCall (.execute attempt first) (.execute attempt second)
  | confirm (attempt : Attempt) (first second : ConfirmPoint) :
      SameCall (.confirm attempt first) (.confirm attempt second)

/-- A step can continue at a point. -/
def Step.ContinuesAt (step : Step) (point : Process) : Prop :=
  step.next = some point ∨ step.thrown = some point

variable {point : Process}

theorem Performed.continuesAt {shared after : Shared} {step : Step} {outcome : Outcome}
    (performed : Performed shared step outcome after (some point)) : step.ContinuesAt point := by
  obtain ⟨next, _⟩ | thrown := performed.process_cases
  · exact Or.inl next.symm
  · exact Or.inr thrown.symm

theorem expireNext_some {operations : List CoSignOperation}
    (continued : expireNext operations = some point) :
    ∃ operation rest, operations = operation :: rest ∧
      point = .expire (.expire operation rest) := by
  cases operations with
  | nil => cases continued
  | cons operation rest =>
    cases continued
    exact ⟨operation, rest, rfl, rfl⟩

theorem pollNext_some {run : Nat} {passed ids : List WithdrawalId}
    (continued : pollNext run passed ids = some point) :
    (ids = [] ∧ point = .poll run (.done passed)) ∨
      ∃ id rest, ids = id :: rest ∧ point = .poll run (.check passed id rest) := by
  cases ids with
  | nil =>
    cases continued
    exact Or.inl ⟨rfl, rfl⟩
  | cons id rest =>
    cases continued
    exact Or.inr ⟨id, rest, rfl, rfl⟩

/-- How an approval goes on. -/
inductive ApprovePoint.Next (settings : Settings) (shared : Shared) :
    ApprovePoint → ApprovePoint → Prop where
  | read {id : WithdrawalId} {clientId : ClientId} {row : WithdrawalRow}
      (owned : shared.findOwned id clientId = some row) (waits : row.status = .pendingApproval) :
      Next settings shared (.read id clientId) (.write row.request)
  | write (request : Request) : Next settings shared (.write request) (.custody request)
  | custody {request : Request}
      (coSigns : settings.coSignCustody request.projectId request.clientId = true) :
      Next settings shared (.custody request) (.prepare request)
  | prepare {request : Request} {row : WithdrawalRow} {inputs : CoSignInputs}
      {operation : CoSignOperation}
      (owned : shared.findOwned request.id request.clientId = some row)
      (created : createCoSignOperation settings row.request inputs = some operation) :
      Next settings shared (.prepare request) (.insert operation)
  | insert (operation : CoSignOperation) :
      Next settings shared (.insert operation) (.update operation)
  | update (operation : CoSignOperation) : Next settings shared (.update operation) .publish

variable {settings : Settings} {shared : Shared} {answer : Answer}

/-- An approval that throws ends; otherwise it goes on as listed. -/
theorem approve_next {first : ApprovePoint}
    (continues : (approveWithdrawal settings shared answer first).ContinuesAt point) :
    ∃ second, point = .approve second ∧ first.Next settings shared second := by
  obtain continued | continued := continues
  · cases first with
    | read id clientId =>
      obtain ⟨row, owned, checked⟩ := Option.bind_eq_some_iff.mp continued
      split at checked
      · rename_i waits
        cases checked
        exact ⟨_, rfl, .read owned waits⟩
      · cases checked
    | custody request =>
      simp only [approveWithdrawal] at continued
      split at continued
      · rename_i coSigns
        cases continued
        exact ⟨_, rfl, .custody coSigns⟩
      · cases continued
    | prepare request =>
      obtain ⟨row, owned, created⟩ := Option.bind_eq_some_iff.mp continued
      cases answer with
      | coSign inputs =>
        obtain ⟨operation, built, same⟩ := Option.bind_eq_some_iff.mp created
        cases same
        exact ⟨_, rfl, .prepare owned built⟩
      | nothing | worker | txHash | receipt => cases created
    | write | insert | update =>
      cases continued
      exact ⟨_, rfl, by constructor⟩
    | publish => cases continued
  · cases first <;> cases continued

/-- How the submission of a signature goes on. -/
inductive SubmitPoint.Next (shared : Shared) : SubmitPoint → SubmitPoint → Prop where
  | load {operationId : OperationId} {clientId : ClientId} {signature : List UInt8} {now : Nat}
      {operation : CoSignOperation} (stored : operation ∈ shared.operations)
      (pending : operation.status = .pending) :
      Next shared (.load operationId clientId signature now) (.sign operation signature)
  | sign (operation : CoSignOperation) (signature : List UInt8) :
      Next shared (.sign operation signature) (.release operation)
  | release (operation : CoSignOperation) : Next shared (.release operation) .publish

/-- A submission that throws ends; otherwise it goes on as listed. -/
theorem submit_next {first : SubmitPoint}
    (continues : (submitCoSignature settings shared first).ContinuesAt point) :
    ∃ second, point = .submit second ∧ first.Next shared second := by
  obtain continued | continued := continues
  · cases first with
    | load operationId clientId signature now =>
      obtain ⟨operation, found, checked⟩ := Option.bind_eq_some_iff.mp continued
      split at checked
      · rename_i accepted
        cases checked
        exact ⟨_, rfl, .load (List.mem_of_find?_eq_some found) accepted.1⟩
      · cases checked
    | sign | release =>
      cases continued
      exact ⟨_, rfl, by constructor⟩
    | publish => cases continued
  · cases first <;> cases continued

/-- The points inside the `try` block of `executeWithdrawal`. -/
def ExecutePoint.tries : ExecutePoint → Bool
  | .prepare _ | .broadcast _ _ | .record _ _ _ | .track _ _ | .publish _ => true
  | .claim | .load | .caught | .publishFailed | .gasSubmit _ | .gasRecord _ _ | .gasTrack _ _
  | .gasPublish _ | .finish | .fail => false

/-- How the execution of a withdrawal goes on. -/
inductive ExecutePoint.Next (settings : Settings) (shared : Shared) (attempt : Attempt) :
    ExecutePoint → ExecutePoint → Prop where
  | claim (approved : shared.status? attempt.id = some .approved) :
      Next settings shared attempt .claim .load
  | skip : Next settings shared attempt .claim .finish
  | hot {row : WithdrawalRow} (found : shared.find? attempt.id = some row)
      (source : row.request.sourceWallet = .hot) :
      Next settings shared attempt .load (.prepare row.request)
  | gasTank {row : WithdrawalRow} (found : shared.find? attempt.id = some row)
      (source : row.request.sourceWallet = .gasTank) :
      Next settings shared attempt .load (.gasSubmit row.request)
  | prepare {request : Request} {transaction : Transaction}
      (prepared : prepareTransaction settings request transaction.inputs = some transaction) :
      Next settings shared attempt (.prepare request) (.broadcast request transaction)
  | broadcast (request : Request) (transaction : Transaction) (txHash : String) :
      Next settings shared attempt (.broadcast request transaction)
        (.record request transaction txHash)
  | record (request : Request) (transaction : Transaction) (txHash : String) :
      Next settings shared attempt (.record request transaction txHash) (.track request txHash)
  | track (request : Request) (txHash : String) :
      Next settings shared attempt (.track request txHash) (.publish 1)
  | publish (left : Nat) : Next settings shared attempt (.publish (left + 1)) (.publish left)
  | published : Next settings shared attempt (.publish 0) .finish
  | throw {point : ExecutePoint} (inside : point.tries = true) :
      Next settings shared attempt point .caught
  | exhaust : Next settings shared attempt .caught .publishFailed
  | gasSubmit (request : Request) (txHash : String) :
      Next settings shared attempt (.gasSubmit request) (.gasRecord request txHash)
  | gasRecord (request : Request) (txHash : String) :
      Next settings shared attempt (.gasRecord request txHash) (.gasTrack request txHash)
  | gasTrack (request : Request) (txHash : String) :
      Next settings shared attempt (.gasTrack request txHash) (.gasPublish 1)
  | gasPublish (left : Nat) :
      Next settings shared attempt (.gasPublish (left + 1)) (.gasPublish left)
  | gasPublished : Next settings shared attempt (.gasPublish 0) .finish
  | fail {point : ExecutePoint} (outside : point.tries = false) :
      Next settings shared attempt point .fail

/-- The transaction keeps the inputs it was prepared from. -/
theorem inputs_of_prepare {request : Request} {inputs : WorkerInputs} {transaction : Transaction}
    (prepared : prepareTransaction settings request inputs = some transaction) :
    transaction.inputs = inputs := by
  obtain ⟨hash, _, called⟩ := Option.bind_eq_some_iff.mp prepared
  obtain ⟨call, _, built⟩ := Option.bind_eq_some_iff.mp called
  cases built
  rfl

/-- An execution goes on as listed, also when a statement throws. -/
theorem execute_next {attempt : Attempt} {first : ExecutePoint}
    (continues : (executeWithdrawal settings shared answer attempt first).ContinuesAt point) :
    ∃ second, point = .execute attempt second ∧ first.Next settings shared attempt second := by
  obtain continued | continued := continues
  · cases first with
    | claim =>
      simp only [executeWithdrawal] at continued
      split at continued
      · rename_i approved
        cases continued
        exact ⟨_, rfl, .claim approved⟩
      · cases continued
        exact ⟨_, rfl, .skip⟩
    | load =>
      simp only [executeWithdrawal] at continued
      split at continued
      · cases continued
        exact ⟨_, rfl, .fail rfl⟩
      · rename_i row found
        split at continued
        · rename_i source
          cases continued
          exact ⟨_, rfl, .gasTank found source⟩
        · rename_i source
          cases continued
          exact ⟨_, rfl, .hot found source⟩
    | prepare request =>
      simp only [executeWithdrawal] at continued
      split at continued
      · split at continued
        · rename_i transaction prepared
          cases continued
          have same := inputs_of_prepare prepared
          exact ⟨_, rfl, .prepare (same ▸ prepared)⟩
        · cases continued
          exact ⟨_, rfl, .throw rfl⟩
      · cases continued
        exact ⟨_, rfl, .throw rfl⟩
    | broadcast request transaction =>
      simp only [executeWithdrawal] at continued
      split at continued
      · cases continued
        exact ⟨_, rfl, .broadcast _ _ _⟩
      · cases continued
        exact ⟨_, rfl, .throw rfl⟩
    | gasSubmit request =>
      simp only [executeWithdrawal] at continued
      split at continued
      · cases continued
        exact ⟨_, rfl, .gasSubmit _ _⟩
      · cases continued
        exact ⟨_, rfl, .fail rfl⟩
    | publish left =>
      cases left <;> cases continued <;> exact ⟨_, rfl, by constructor⟩
    | gasPublish left =>
      cases left <;> cases continued <;> exact ⟨_, rfl, by constructor⟩
    | caught =>
      simp only [executeWithdrawal] at continued
      split at continued
      · cases continued
        exact ⟨_, rfl, .exhaust⟩
      · cases continued
        exact ⟨_, rfl, .fail rfl⟩
    | record | track | gasRecord | gasTrack =>
      cases continued
      exact ⟨_, rfl, by constructor⟩
    | publishFailed =>
      cases continued
      exact ⟨_, rfl, .fail rfl⟩
    | finish | fail => cases continued
  · cases first with
    | prepare | broadcast | record | track | publish =>
      cases continued
      exact ⟨_, rfl, .throw rfl⟩
    | claim | load | caught | publishFailed | gasSubmit | gasRecord | gasTrack | gasPublish =>
      cases continued
      exact ⟨_, rfl, .fail rfl⟩
    | finish | fail => cases continued

/-- A step stays within its call or job. -/
theorem sameCall_of_continuesAt {before point : Process}
    (continues : (before.step settings shared answer).ContinuesAt point) :
    before.SameCall point := by
  cases before with
  | approve first =>
    obtain ⟨second, rfl, _⟩ := approve_next continues
    constructor
  | submit first =>
    obtain ⟨second, rfl, _⟩ := submit_next continues
    constructor
  | cancel first =>
    obtain continued | continued := continues
    · cases first <;> simp only [Process.step, cancelWithdrawal, bind, pure,
        Option.bind_eq_some_iff] at continued <;> grind [Process.SameCall]
    · cases first <;> cases continued
  | expire first =>
    obtain continued | continued := continues
    · cases first <;> simp only [Process.step, expireStaleOperations] at continued <;>
        grind [Process.SameCall, → expireNext_some]
    · cases first <;> cases continued
  | poll run first =>
    obtain continued | continued := continues <;> cases first <;>
      simp only [Process.step, pollApprovedWithdrawals] at continued <;>
      grind [Process.SameCall, → pollNext_some]
  | execute attempt first =>
    obtain ⟨second, rfl, _⟩ := execute_next continues
    constructor
  | confirm attempt first =>
    obtain continued | continued := continues <;> cases first <;>
      simp only [Process.step, checkConfirmation] at continued <;> grind [Process.SameCall]

/-! ## Statements at the points -/

/-- The transaction that a process is about to send. -/
def Process.sending : Process → Option Broadcast
  | .execute attempt (.broadcast _ transaction) => some ⟨attempt.id, some transaction⟩
  | .execute attempt (.gasSubmit _) => some ⟨attempt.id, none⟩
  | _ => none

/-- A process broadcasts what it carries. -/
theorem sending_of_broadcast {sent : Broadcast}
    (write : (process.step settings shared answer).write = .broadcast sent) :
    process.sending = some sent := by
  cases process with
  | execute attempt point =>
    cases point with
    | broadcast | gasSubmit =>
      cases write
      rfl
    | claim | load | prepare | record | track | publish | caught | publishFailed | gasRecord
    | gasTrack | gasPublish | finish | fail => cases write
  | approve point | cancel point | submit point | expire point | poll run point
  | confirm attempt point => cases point <;> cases write

/-- Every status update of the services. -/
inductive StatusUpdate : Process → WithdrawalId → Status → Option Status → Prop where
  | approve (request : Request) :
      StatusUpdate (.approve (.write request)) request.id .approved none
  | cosign (operation : CoSignOperation) :
      StatusUpdate (.approve (.update operation)) operation.withdrawalId .pendingCosign none
  | cancel (request : Request) :
      StatusUpdate (.cancel (.write request)) request.id .cancelled none
  | release (operation : CoSignOperation) :
      StatusUpdate (.submit (.release operation)) operation.withdrawalId .approved
        (some .pendingCosign)
  | expire (operation : CoSignOperation) (rest : List CoSignOperation) :
      StatusUpdate (.expire (.cancel operation rest)) operation.withdrawalId .cancelled
        (some .pendingCosign)
  | claim (attempt : Attempt) :
      StatusUpdate (.execute attempt .claim) attempt.id .broadcasting (some .approved)
  | retry (attempt : Attempt) (left : attempt.isFinal = false) :
      StatusUpdate (.execute attempt .caught) attempt.id .approved none
  | exhaust (attempt : Attempt) (last : attempt.isFinal = true) :
      StatusUpdate (.execute attempt .caught) attempt.id .failed none
  | revert (attempt : Attempt) :
      StatusUpdate (.confirm attempt .markFailed) attempt.id .failed none
  | confirm (attempt : Attempt) :
      StatusUpdate (.confirm attempt .markConfirmed) attempt.id .confirmed none

theorem statusUpdate_of_write {id : WithdrawalId} {status : Status} {expected : Option Status}
    (write : (process.step settings shared answer).write = .setStatus id status expected) :
    StatusUpdate process id status expected := by
  cases process with
  | execute attempt point =>
    cases point with
    | caught =>
      cases last : attempt.isFinal with
      | true =>
        simp only [Process.step, executeWithdrawal, last, if_true] at write
        cases write
        exact .exhaust attempt last
      | false =>
        simp only [Process.step, executeWithdrawal, last, Bool.false_eq_true,
          if_false] at write
        cases write
        exact .retry attempt last
    | claim =>
      cases write
      constructor
    | load | prepare | broadcast | record | track | publish | publishFailed | gasSubmit
    | gasRecord | gasTrack | gasPublish | finish | fail => cases write
  | approve point | cancel point | submit point | expire point | poll run point
  | confirm attempt point =>
    cases point <;> cases write <;> constructor

/-- The status that a performed update finds is the expected one, if it names one. -/
theorem statusUpdate_of_setsStatus {state : State} {pid owner : Nat} {input : Input}
    {id : WithdrawalId} {status : Status} (running : state.process? pid = some process)
    (sets : setsStatus settings state (.advance pid input) = some (owner, id, status)) :
    owner = pid ∧ ∃ expected found, StatusUpdate process id status expected ∧
      state.shared.status? id = some found ∧ (∀ value ∈ expected, found = value) := by
  obtain ⟨same, expected, row, write, found, fits⟩ := write_of_setsStatus running sets
  refine ⟨same, expected, row.status, statusUpdate_of_write write, ?_, ?_⟩
  · rw [Shared.status?, found]
    rfl
  · intro value named
    rw [Option.mem_def] at named
    subst named
    simpa [WithdrawalRow.matches] using fits

/-- The claim of a withdrawal finds it 'approved' and leaves it 'broadcasting'. -/
theorem status?_claim {shared after : Shared} {attempt : Attempt}
    (approved : shared.status? attempt.id = some .approved)
    (applied : ((Process.execute attempt .claim).step settings shared answer).write.apply shared =
      some after) : after.status? attempt.id = some .broadcasting := by
  cases applied
  obtain ⟨row, found, status⟩ := Option.map_eq_some_iff.mp approved
  have fits : row.matches (some .approved) = true := by
    simp [WithdrawalRow.matches, status]
  rw [Shared.status?, Shared.find?_updateRow, found]
  · simp [fits]
  · intro row
    split <;> rfl

/-! ## A sample configuration -/

/-- Project 2 has co-sign custody, and every client signature is accepted. -/
def sampleSettings : Settings where
  ethers := sampleEthers
  coSignCustody project _ := project = 2
  verifySignature _ _ _ := true
  expireTimeSeconds := 3600

/-- Withdrawal 1 of client 1 in a project. -/
def sampleRequest (project : ProjectId) : Request where
  id := 1
  clientId := 1
  projectId := project
  chainId := mainnet
  sourceWallet := .hot
  toAddress := "0x2222222222222222222222222222222222222222"
  amountRaw := 1000
  createdAt := 0

def sampleWorkerInputs : WorkerInputs where
  token := usdtToken
  walletAddress := "0x1111111111111111111111111111111111111111"
  nextSequenceId := 1
  now := 1700000000000
  signature := []

def sampleCoSignInputs : CoSignInputs where
  walletAddress := "0x1111111111111111111111111111111111111111"
  hotWalletSequenceId := 0
  now := 1700000000000
  token := some usdtToken
  clientAddress := "0x3333333333333333333333333333333333333333"
  operationId := 1
  expiresAt := 1700086400000

/-- No process runs and there are no records. -/
def idleState : State := ⟨.initial, []⟩

theorem idleState_initial (settings : Settings) :
    (services settings).system.Initial idleState :=
  ⟨rfl, rfl⟩

/-- A process takes its next steps without failure. -/
def advances (pid count : Nat) : List Action :=
  List.replicate count (.advance pid ⟨.done, .nothing⟩)

/-- A process takes its next step with an answer from outside the records. -/
def answers (pid : Nat) (answer : Answer) : Action := .advance pid ⟨.done, answer⟩

/-- Withdrawal 1 is requested and approved by process 1, and process 2 polls; in a
project without co-sign custody both run to their ends. -/
def approvedAndPolled (project : ProjectId) : List Action :=
  [.launch (.create (sampleRequest project) false), .launch (.approve 1 1)] ++ advances 1 2 ++
    [.launch .poll] ++ advances 2 4 ++ advances 1 1

/-- A process claims a withdrawal from its hot wallet and prepares its transaction. -/
def claimsAndPrepares (pid : Nat) : List Action :=
  advances pid 2 ++ [answers pid (.worker sampleWorkerInputs)]

end CryptoVaultHub.Withdrawal
