import CryptoVaultHub.Semantics.ProcessPool
import CryptoVaultHub.Withdrawal.Records

/-!
# The services that move withdrawals

Every call of `approveWithdrawal`, `cancelWithdrawal`, `submitCoSignature` and
`expireStaleOperations`, and every job of the withdrawal worker and of the
confirmation worker, is a process. Its points are the statements of the source
in order: at each one the process reads the records, changes them by one `Write`,
and continues at a point that depends on whether the statement threw.

A statement can succeed, fail without effect, or fail to report an effect it had
(`Outcome`); a process can also stop at any point. Jobs are taken, delayed,
stalled and retried by the queues at any time.
-/

namespace CryptoVaultHub.Withdrawal

open Contracts

/-- What the services are configured with and what they call: the projects with
co-sign custody, the check of a client's signature, and the expiry of operations. -/
structure Settings where
  ethers : Ethers
  coSignCustody : ProjectId → ClientId → Bool
  verifySignature : List UInt8 → List UInt8 → String → Bool
  expireTimeSeconds : Nat

/-- The state of a broadcast transaction on its chain. -/
inductive Receipt where
  | notMined
  | reverted
  | tooRecent
  | confirmed
deriving DecidableEq

/-- What a step reads outside the records. -/
inductive Answer where
  | nothing
  | coSign (inputs : CoSignInputs)
  | worker (inputs : WorkerInputs)
  | txHash (hash : String)
  | receipt (receipt : Receipt)

/-- How a statement ends. -/
inductive Outcome where
  | done
  | failed
  | lost
deriving DecidableEq

structure Input where
  outcome : Outcome
  answer : Answer

/-! ## Program points -/

inductive ApprovePoint where
  | read (id : WithdrawalId) (clientId : ClientId)
  | write (request : Request)
  | custody (request : Request)
  | prepare (request : Request)
  | insert (operation : CoSignOperation)
  | update (operation : CoSignOperation)
  | publish

inductive CancelPoint where
  | read (id : WithdrawalId) (clientId : ClientId)
  | write (request : Request)

inductive SubmitPoint where
  | load (operationId : OperationId) (clientId : ClientId) (signature : List UInt8) (now : Nat)
  | sign (operation : CoSignOperation) (signature : List UInt8)
  | release (operation : CoSignOperation)
  | publish

inductive ExpirePoint where
  | select (now : Nat)
  | expire (operation : CoSignOperation) (rest : List CoSignOperation)
  | cancel (operation : CoSignOperation) (rest : List CoSignOperation)
  | publish (rest : List CoSignOperation)

/-- `passed` are the selected withdrawals the loop has dealt with. -/
inductive PollPoint where
  | select
  | check (passed : List WithdrawalId) (id : WithdrawalId) (rest : List WithdrawalId)
  | add (passed : List WithdrawalId) (id : WithdrawalId) (rest : List WithdrawalId)
  | done (passed : List WithdrawalId)
  | fail

inductive ExecutePoint where
  | claim
  | load
  | prepare (request : Request)
  | broadcast (request : Request) (transaction : Transaction)
  | record (request : Request) (transaction : Transaction) (txHash : String)
  | track (request : Request) (txHash : String)
  | publish (left : Nat)
  | caught
  | publishFailed
  | gasSubmit (request : Request)
  | gasRecord (request : Request) (txHash : String)
  | gasTrack (request : Request) (txHash : String)
  | gasPublish (left : Nat)
  | finish
  | fail

inductive ConfirmPoint where
  | check
  | markFailed
  | markConfirmed
  | publish
  | finish
  | fail

/-- A job in progress: its lock, its withdrawal, and whether it is the last attempt. -/
structure Attempt where
  id : WithdrawalId
  token : Nat
  isFinal : Bool
deriving DecidableEq

inductive Process where
  | approve (point : ApprovePoint)
  | cancel (point : CancelPoint)
  | submit (point : SubmitPoint)
  | expire (point : ExpirePoint)
  | poll (run : Nat) (point : PollPoint)
  | execute (attempt : Attempt) (point : ExecutePoint)
  | confirm (attempt : Attempt) (point : ConfirmPoint)

/-! ## Steps -/

/-- One statement and where the process continues when it throws or not. -/
structure Step where
  write : Write
  next : Option Process
  thrown : Option Process := none

/-- `createCoSignOperation` up to the insertion of the row; `none` when an encoder throws. -/
def createCoSignOperation (settings : Settings) (request : Request) (inputs : CoSignInputs) :
    Option CoSignOperation := do
  let expireTime := inputs.now / 1000 + 86400
  let sequenceId := inputs.hotWalletSequenceId + 1
  let operationHash ← coSignHash settings.ethers inputs.token
    { chainId := request.chainId
      walletAddress := inputs.walletAddress
      toAddress := request.toAddress
      amountRaw := request.amountRaw
      expireTime := expireTime
      sequenceId := sequenceId }
  return {
    operationId := inputs.operationId
    withdrawalId := request.id
    clientId := request.clientId
    operationHash := operationHash
    clientAddress := inputs.clientAddress
    expiresAt := inputs.expiresAt
    status := .pending
    clientSignature := none
    inputs := inputs }

/-- `approveWithdrawal`, with `createCoSignOperation` for projects of co-sign custody. -/
def approveWithdrawal (settings : Settings) (shared : Shared) (answer : Answer) :
    ApprovePoint → Step
  | .read id clientId =>
    { write := .skip
      next := do
        let row ← shared.findOwned id clientId
        if row.status = .pendingApproval then return .approve (.write row.request) else none }
  | .write request =>
    { write := .setStatus request.id .approved none
      next := some (.approve (.custody request)) }
  | .custody request =>
    { write := .skip
      next :=
        if settings.coSignCustody request.projectId request.clientId then
          some (.approve (.prepare request))
        else none }
  | .prepare request =>
    { write := .skip
      next := do
        let row ← shared.findOwned request.id request.clientId
        match answer with
        | .coSign inputs =>
          let operation ← createCoSignOperation settings row.request inputs
          return .approve (.insert operation)
        | _ => none }
  | .insert operation =>
    { write := .insertOperation operation
      next := some (.approve (.update operation)) }
  | .update operation =>
    { write := .setStatus operation.withdrawalId .pendingCosign none
      next := some (.approve .publish) }
  | .publish => { write := .skip, next := none }

def cancelWithdrawal (shared : Shared) : CancelPoint → Step
  | .read id clientId =>
    { write := .skip
      next := do
        let row ← shared.findOwned id clientId
        if row.status = .pendingApproval then return .cancel (.write row.request) else none }
  | .write request =>
    { write := .setStatus request.id .cancelled none
      next := none }

def submitCoSignature (settings : Settings) (shared : Shared) : SubmitPoint → Step
  | .load operationId clientId signature now =>
    { write := .skip
      next := do
        let operation ← shared.operations.find? fun operation =>
          operation.operationId = operationId && operation.clientId = clientId
        if operation.status = .pending ∧ now < operation.expiresAt ∧
            settings.verifySignature operation.operationHash signature
              operation.clientAddress = true then
          return .submit (.sign operation signature)
        else none }
  | .sign operation signature =>
    { write := .signOperation operation.operationId signature
      next := some (.submit (.release operation)) }
  | .release operation =>
    { write := .setStatus operation.withdrawalId .approved (some .pendingCosign)
      next := some (.submit .publish) }
  | .publish => { write := .skip, next := none }

/-- The loop of `expireStaleOperations`. -/
def expireNext : List CoSignOperation → Option Process
  | [] => none
  | operation :: rest => some (.expire (.expire operation rest))

def expireStaleOperations (shared : Shared) : ExpirePoint → Step
  | .select now =>
    { write := .skip
      next := expireNext (shared.operations.filter fun operation =>
        operation.status = .pending && operation.expiresAt < now) }
  | .expire operation rest =>
    { write := .expireOperation operation.operationId
      next := some (.expire (.cancel operation rest)) }
  | .cancel operation rest =>
    { write := .setStatus operation.withdrawalId .cancelled (some .pendingCosign)
      next := some (.expire (.publish rest)) }
  | .publish rest => { write := .skip, next := expireNext rest }

/-- The rows that a poll selects: the oldest approved ones, at most 50. -/
def selectApproved (shared : Shared) : List WithdrawalId :=
  let approved := shared.withdrawals.filter fun row => row.status = .approved
  let ordered := approved.mergeSort fun first second =>
    first.request.createdAt ≤ second.request.createdAt
  (ordered.take 50).map fun row => row.request.id

/-- The loop of `pollApprovedWithdrawals`. -/
def pollNext (run : Nat) (passed : List WithdrawalId) : List WithdrawalId → Option Process
  | [] => some (.poll run (.done passed))
  | id :: rest => some (.poll run (.check passed id rest))

def pollApprovedWithdrawals (shared : Shared) (run : Nat) : PollPoint → Step
  | .select =>
    { write := .skip
      next := pollNext run [] (selectApproved shared)
      thrown := some (.poll run .fail) }
  | .check passed id rest =>
    { write := .skip
      next :=
        if (shared.withdrawalQueue.getJob (.execute id)).isSome then
          pollNext run (passed ++ [id]) rest
        else some (.poll run (.add passed id rest))
      thrown := some (.poll run .fail) }
  | .add passed id rest =>
    { write := .addExecute id
      next := pollNext run (passed ++ [id]) rest
      thrown := some (.poll run .fail) }
  | .done _ => { write := .completeJob (.poll run) run, next := none }
  | .fail => { write := .failJob (.poll run) run, next := none }

/-- The transaction of a withdrawal from its hot wallet; `none` when an encoder throws. -/
def prepareTransaction (settings : Settings) (request : Request) (inputs : WorkerInputs) :
    Option Transaction := do
  let execution : Execution :=
    { chainId := request.chainId
      walletAddress := inputs.walletAddress
      toAddress := request.toAddress
      amountRaw := request.amountRaw
      expireTime := inputs.now / 1000 + settings.expireTimeSeconds
      sequenceId := inputs.nextSequenceId }
  let operationHash ← workerHash settings.ethers inputs.token execution
  let call ← workerCall settings.ethers inputs.token execution inputs.signature
  return ⟨operationHash, call, inputs⟩

/-- `executeWithdrawal` and `executeGasTankWithdrawal`. What throws inside the
`try` block continues at `caught`; what throws outside fails the job. -/
def executeWithdrawal (settings : Settings) (shared : Shared) (answer : Answer)
    (attempt : Attempt) : ExecutePoint → Step
  | .claim =>
    { write := .setStatus attempt.id .broadcasting (some .approved)
      next :=
        if shared.status? attempt.id = some .approved then some (.execute attempt .load)
        else some (.execute attempt .finish)
      thrown := some (.execute attempt .fail) }
  | .load =>
    { write := .skip
      next :=
        match shared.find? attempt.id with
        | none => some (.execute attempt .fail)
        | some row =>
          match row.request.sourceWallet with
          | .gasTank => some (.execute attempt (.gasSubmit row.request))
          | .hot => some (.execute attempt (.prepare row.request))
      thrown := some (.execute attempt .fail) }
  | .prepare request =>
    { write := .skip
      next :=
        match answer with
        | .worker inputs =>
          match prepareTransaction settings request inputs with
          | some transaction => some (.execute attempt (.broadcast request transaction))
          | none => some (.execute attempt .caught)
        | _ => some (.execute attempt .caught)
      thrown := some (.execute attempt .caught) }
  | .broadcast request transaction =>
    { write := .broadcast ⟨attempt.id, some transaction⟩
      next :=
        match answer with
        | .txHash hash => some (.execute attempt (.record request transaction hash))
        | _ => some (.execute attempt .caught)
      thrown := some (.execute attempt .caught) }
  | .record request transaction txHash =>
    { write := .setTransaction attempt.id txHash (some transaction.inputs.nextSequenceId)
      next := some (.execute attempt (.track request txHash))
      thrown := some (.execute attempt .caught) }
  | .track _ txHash =>
    { write := .addConfirm attempt.id txHash
      next := some (.execute attempt (.publish 1))
      thrown := some (.execute attempt .caught) }
  | .publish left =>
    { write := .skip
      next :=
        match left with
        | 0 => some (.execute attempt .finish)
        | left + 1 => some (.execute attempt (.publish left))
      thrown := some (.execute attempt .caught) }
  | .caught =>
    { write := .setStatus attempt.id (if attempt.isFinal then .failed else .approved) none
      next :=
        if attempt.isFinal then some (.execute attempt .publishFailed)
        else some (.execute attempt .fail)
      thrown := some (.execute attempt .fail) }
  | .publishFailed =>
    { write := .skip
      next := some (.execute attempt .fail)
      thrown := some (.execute attempt .fail) }
  | .gasSubmit request =>
    { write := .broadcast ⟨attempt.id, none⟩
      next :=
        match answer with
        | .txHash hash => some (.execute attempt (.gasRecord request hash))
        | _ => some (.execute attempt .fail)
      thrown := some (.execute attempt .fail) }
  | .gasRecord request txHash =>
    { write := .setTransaction attempt.id txHash none
      next := some (.execute attempt (.gasTrack request txHash))
      thrown := some (.execute attempt .fail) }
  | .gasTrack _ txHash =>
    { write := .addConfirm attempt.id txHash
      next := some (.execute attempt (.gasPublish 1))
      thrown := some (.execute attempt .fail) }
  | .gasPublish left =>
    { write := .skip
      next :=
        match left with
        | 0 => some (.execute attempt .finish)
        | left + 1 => some (.execute attempt (.gasPublish left))
      thrown := some (.execute attempt .fail) }
  | .finish => { write := .completeJob (.execute attempt.id) attempt.token, next := none }
  | .fail => { write := .failJob (.execute attempt.id) attempt.token, next := none }

/-- `checkConfirmation` of the confirmation worker. -/
def checkConfirmation (answer : Answer) (attempt : Attempt) : ConfirmPoint → Step
  | .check =>
    { write := .skip
      next :=
        match answer with
        | .receipt .reverted => some (.confirm attempt .markFailed)
        | .receipt .confirmed => some (.confirm attempt .markConfirmed)
        | _ => some (.confirm attempt .fail)
      thrown := some (.confirm attempt .fail) }
  | .markFailed =>
    { write := .setStatus attempt.id .failed none
      next := some (.confirm attempt .publish)
      thrown := some (.confirm attempt .fail) }
  | .markConfirmed =>
    { write := .setStatus attempt.id .confirmed none
      next := some (.confirm attempt .publish)
      thrown := some (.confirm attempt .fail) }
  | .publish =>
    { write := .skip
      next := some (.confirm attempt .finish)
      thrown := some (.confirm attempt .fail) }
  | .finish => { write := .completeConfirm attempt.id attempt.token, next := none }
  | .fail => { write := .failConfirm attempt.id attempt.token, next := none }

/-- The step of a process at its current point. -/
def Process.step (settings : Settings) (shared : Shared) (answer : Answer) : Process → Step
  | .approve point => approveWithdrawal settings shared answer point
  | .cancel point => cancelWithdrawal shared point
  | .submit point => submitCoSignature settings shared point
  | .expire point => expireStaleOperations shared point
  | .poll run point => pollApprovedWithdrawals shared run point
  | .execute attempt point => executeWithdrawal settings shared answer attempt point
  | .confirm attempt point => checkConfirmation answer attempt point

/-- Perform a step with an outcome. -/
def Step.perform (shared : Shared) (step : Step) : Outcome → Shared × Option Process
  | .done =>
    match step.write.apply shared with
    | some after => (after, step.next)
    | none => (shared, step.thrown)
  | .failed => (shared, step.thrown)
  | .lost => ((step.write.apply shared).getD shared, step.thrown)

/-! ## What begins from outside -/

inductive Start where
  | create (request : Request) (isRejected : Bool)
  | approve (id : WithdrawalId) (clientId : ClientId)
  | cancel (id : WithdrawalId) (clientId : ClientId)
  | submit (operationId : OperationId) (clientId : ClientId) (signature : List UInt8) (now : Nat)
  | expireStale (now : Nat)
  | poll
  | execute (id : WithdrawalId)
  | confirm (id : WithdrawalId)
  | promote (id : WithdrawalId)
  | promoteConfirm (id : WithdrawalId)
  | stall (job : JobId) (token : Nat)
  | stallConfirm (id : WithdrawalId) (token : Nat)
  | stallOut (job : JobId) (token : Nat)
  | stallOutConfirm (id : WithdrawalId) (token : Nat)

/-- The lock token of a job that is taken now. -/
def Shared.issue (shared : Shared) : Shared := { shared with nextToken := shared.nextToken + 1 }

/-- Requests, calls of the services, and what the queues do by themselves: take a
waiting job for a worker, and move delayed and stalled jobs. -/
def start (shared : Shared) : Start → Option (Shared × Option Process)
  | .create request isRejected =>
    if (shared.find? request.id).isSome then none
    else
      let status := if isRejected then .rejected else .pendingApproval
      some ({ shared with
        withdrawals := shared.withdrawals ++ [⟨request, status, none, none⟩] }, none)
  | .approve id clientId => some (shared, some (.approve (.read id clientId)))
  | .cancel id clientId => some (shared, some (.cancel (.read id clientId)))
  | .submit operationId clientId signature now =>
    some (shared, some (.submit (.load operationId clientId signature now)))
  | .expireStale now => some (shared, some (.expire (.select now)))
  | .poll =>
    let run := shared.nextToken
    let job : Job JobId Unit := ⟨.poll run, (), 1, 0, .active run⟩
    some ({ shared.issue with withdrawalQueue := shared.withdrawalQueue.add job },
      some (.poll run .select))
  | .execute id =>
    match shared.withdrawalQueue.getJob (.execute id) with
    | some job =>
      if job.state = .waiting then
        let token := shared.nextToken
        some ({ shared.issue with
          withdrawalQueue := shared.withdrawalQueue.move (.execute id) .waiting (.active token) },
          some (.execute ⟨id, token, JobQueue.Job.exhausted job⟩ .claim))
      else none
    | none => none
  | .confirm id =>
    match shared.confirmQueue.getJob id with
    | some job =>
      if job.state = .waiting then
        let token := shared.nextToken
        some ({ shared.issue with
          confirmQueue := shared.confirmQueue.move id .waiting (.active token) },
          some (.confirm ⟨id, token, JobQueue.Job.exhausted job⟩ .check))
      else none
    | none => none
  | .promote id =>
    some ({ shared with
      withdrawalQueue := shared.withdrawalQueue.move (.execute id) .delayed .waiting }, none)
  | .promoteConfirm id =>
    some ({ shared with confirmQueue := shared.confirmQueue.move id .delayed .waiting }, none)
  | .stall job token =>
    some ({ shared with
      withdrawalQueue := shared.withdrawalQueue.move job (.active token) .waiting }, none)
  | .stallConfirm id token =>
    some ({ shared with
      confirmQueue := shared.confirmQueue.move id (.active token) .waiting }, none)
  | .stallOut job token =>
    some ({ shared with
      withdrawalQueue := shared.withdrawalQueue.stallOut job token keepFailed }, none)
  | .stallOutConfirm id token =>
    some ({ shared with
      confirmQueue := shared.confirmQueue.stallOut id token keepFailed }, none)

/-- The services over their records. -/
def services (settings : Settings) : ProcessPool Shared Process Input Start where
  Initial shared := shared = .initial
  next shared process input :=
    some ((process.step settings shared input.answer).perform shared input.outcome)
  start := start

end CryptoVaultHub.Withdrawal
