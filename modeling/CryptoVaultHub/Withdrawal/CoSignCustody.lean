import CryptoVaultHub.Withdrawal.StatusMachine

/-!
# Co-sign custody

In a project with co-sign custody the client signs before the worker claims a
withdrawal. An approval, though, writes 'approved' before it creates the
co-sign operation and writes 'pending_cosign'. `claimsSettled` is the condition
that no withdrawal is claimed between the two updates, and `approvalsComplete`
that no approval stops between them; in every other run an unsigned 'approved'
withdrawal is one whose approval is still on its way to 'pending_cosign'.
-/

namespace CryptoVaultHub.Withdrawal

open TransitionSystem

/-- The project of a withdrawal has co-sign custody. -/
def Settings.coSigns (settings : Settings) (request : Request) : Bool :=
  settings.coSignCustody request.projectId request.clientId

/-- The withdrawal whose approval has written 'approved' and has 'pending_cosign'
still to write. -/
def Process.coSigning (settings : Settings) : Process → Option WithdrawalId
  | .approve (.custody request) => if settings.coSigns request then some request.id else none
  | .approve (.prepare request) => some request.id
  | .approve (.insert operation) => some operation.withdrawalId
  | .approve (.update operation) => some operation.withdrawalId
  | _ => none

/-- A process is about to write 'approved' for a withdrawal with co-sign custody. -/
def Process.approving (settings : Settings) : Process → Bool
  | .approve (.write request) => settings.coSigns request
  | _ => false

/-- A claim finds no approval between its two updates. -/
def claimsSettled (settings : Settings) (state : State) (action : Action) : Bool :=
  match setsStatus settings state action with
  | some (_, id, .broadcasting) => state.every fun _ process => process.coSigning settings ≠ some id
  | _ => true

/-- A statement succeeds and the call goes on. -/
def Step.proceeds (step : Step) (shared : Shared) (outcome : Outcome) : Bool :=
  outcome = .done && (step.write.apply shared).isSome && step.next.isSome

/-- An approval does not stop between its two updates: it does not crash there, its
statements succeed, and the answer to its first update is not lost. -/
def approvalsComplete (settings : Settings) (state : State) : Action → Bool
  | .launch _ => true
  | .crash pid => (state.process? pid).all fun process => (process.coSigning settings).isNone
  | .advance pid input =>
    (state.process? pid).all fun process =>
      ((process.coSigning settings).isNone ||
        (process.step settings state.shared input.answer).proceeds state.shared input.outcome) &&
      (!process.approving settings || input.outcome ≠ .lost)

/-- The condition on the runs of approvals and claims. -/
@[reducible] def CoSignOrdered (settings : Settings) (state : State) (action : Action) : Prop :=
  claimsSettled settings state action = true ∧ approvalsComplete settings state action = true

/-! ## What processes know -/

/-- A withdrawal that needs no client signature or has it. -/
def Cleared (settings : Settings) (shared : Shared) (id : WithdrawalId) : Prop :=
  ∃ request, shared.request? id = some request ∧
    (settings.coSigns request = true → shared.Signed id)

variable {settings : Settings} {id : WithdrawalId}

theorem Cleared.extend {before after : Shared} (cleared : Cleared settings before id)
    (extend : before.Extends after) : Cleared settings after id := by
  obtain ⟨request, found, signed⟩ := cleared
  exact ⟨request, extend.requests id request found, fun coSigns => (signed coSigns).extend extend⟩

/-- What a process has read stays true of the records. -/
structure Process.Informed (settings : Settings) (shared : Shared) (process : Process) : Prop where
  approves : ∀ request, process = .approve (.write request) →
    shared.request? request.id = some request
  signs : ∀ operation signature, process = .submit (.sign operation signature) →
    ∃ stored ∈ shared.operations, stored.operationId = operation.operationId ∧
      stored.withdrawalId = operation.withdrawalId
  releases : ∀ operation, process = .submit (.release operation) →
    shared.Signed operation.withdrawalId
  owns : ∀ id, process.owning = some id → Cleared settings shared id

theorem Process.Informed.extend {before after : Shared} {process : Process}
    (informed : process.Informed settings before) (extend : before.Extends after) :
    process.Informed settings after := by
  constructor
  · exact fun request at_ => extend.requests _ _ (informed.approves request at_)
  · intro operation signature at_
    obtain ⟨stored, inside, same, own⟩ := informed.signs operation signature at_
    obtain ⟨later, stays, continues⟩ := extend.operations stored inside
    exact ⟨later, stays, continues.operationId.trans same, continues.withdrawalId.trans own⟩
  · exact fun operation at_ => (informed.releases operation at_).extend extend
  · exact fun id owns => (informed.owns id owns).extend extend

variable {shared : Shared}

theorem Process.Fresh.informed {process : Process} (fresh : process.Fresh) :
    process.Informed settings shared := by
  constructor
  · rintro request rfl
    cases fresh
  · rintro operation signature rfl
    cases fresh
  · rintro operation rfl
    cases fresh
  · intro id owns
    rw [fresh.owning] at owns
    cases owns

/-- A worker claims and broadcasts only withdrawals that are cleared. -/
def coSignCustody (settings : Settings) : ProofOutline Shared Process where
  Global shared := ∀ id, shared.status? id = some .broadcasting ∨ shared.broadcastsOf id ≠ [] →
    Cleared settings shared id
  Local shared process := process.Informed settings shared
  Apart _ _ := True
  apart_symm := fun _ => trivial

/-- A withdrawal that is 'approved' without a client's signature it needs is one
whose approval is on its way to 'pending_cosign'. -/
def ApprovalsCovered (settings : Settings) (state : State) : Prop :=
  ∀ id request, state.shared.request? id = some request → settings.coSigns request = true →
    state.shared.status? id = some .approved →
      state.shared.Signed id ∨
        ∃ pid process, state.process? pid = some process ∧ process.coSigning settings = some id

variable {state : State} {input : Input}

/-- A claim that meets the condition finds the withdrawal cleared. -/
theorem cleared_of_claim {pid owner : Nat} {process : Process}
    (covered : ApprovalsCovered settings state)
    (settled : claimsSettled settings state (.advance pid input) = true)
    (running : state.process? pid = some process)
    (sets : setsStatus settings state (.advance pid input) = some (owner, id, .broadcasting)) :
    Cleared settings state.shared id := by
  obtain ⟨_, expected, found, update, current, meets⟩ := statusUpdate_of_setsStatus running sets
  cases update
  have approved : found = .approved := meets .approved rfl
  subst approved
  obtain ⟨row, present, status⟩ := Option.map_eq_some_iff.mp current
  refine ⟨row.request, by rw [Shared.request?, present]; rfl, fun coSigns => ?_⟩
  obtain signed | ⟨other, approval, runs, coSigning⟩ :=
    covered _ row.request (by rw [Shared.request?, present]; rfl) coSigns current
  · exact signed
  · simp only [claimsSettled, sets] at settled
    have apart := PoolState.every_apply settled runs
    simp [coSigning] at apart

/-! ## Steps -/

variable {answer : Answer} {before : Process}

/-- An approval reads the request it goes on with. -/
theorem informed_write {request : Request}
    (continues : (before.step settings shared answer).ContinuesAt (.approve (.write request))) :
    shared.request? request.id = some request := by
  cases sameCall_of_continuesAt continues with
  | approve first second =>
    obtain ⟨_, same, next⟩ := approve_next continues
    cases same
    cases next with
    | read owned _ =>
      obtain ⟨named, known⟩ := Shared.request?_of_findOwned owned
      rw [named, known]

/-- The operation a client signs is stored. -/
theorem stored_of_load {operation : CoSignOperation} {signature : List UInt8}
    (continues : (before.step settings shared answer).ContinuesAt
      (.submit (.sign operation signature))) : operation ∈ shared.operations := by
  cases sameCall_of_continuesAt continues with
  | submit first second =>
    obtain ⟨_, same, next⟩ := submit_next continues
    cases same
    cases next with
    | load stored _ => exact stored

/-- A withdrawal is released after the signature of its operation was stored. -/
theorem sign_before_release {operation : CoSignOperation}
    (continues : (before.step settings shared answer).ContinuesAt (.submit (.release operation))) :
    (∃ signature, before = .submit (.sign operation signature)) ∧
      (before.step settings shared answer).thrown = none := by
  cases sameCall_of_continuesAt continues with
  | submit first second =>
    obtain ⟨_, same, next⟩ := submit_next continues
    cases same
    cases next with
    | sign _ signature => exact ⟨⟨signature, rfl⟩, rfl⟩

/-- Storing a signature signs the withdrawal of the operation. -/
theorem signed_of_sign {shared after : Shared} {operationId : OperationId}
    {signature : List UInt8} {stored : CoSignOperation}
    (applied : (Write.signOperation operationId signature).apply shared = some after)
    (inside : stored ∈ shared.operations) (same : stored.operationId = operationId) :
    after.Signed stored.withdrawalId := by
  cases applied
  refine ⟨{ stored with status := .signed, clientSignature := some signature }, ?_, rfl, rfl⟩
  simp only [Shared.updateOperation, List.mem_map]
  exact ⟨stored, inside, by rw [if_pos same]⟩

/-- An approval that goes on between its two updates stays between them or writes
the second one. -/
theorem coSigning_next {process point : Process} (coSigning : process.coSigning settings = some id)
    (continued : (process.step settings shared answer).next = some point) :
    point.coSigning settings = some id ∨
      (process.step settings shared answer).write = .setStatus id .pendingCosign none := by
  cases process with
  | approve first =>
    obtain ⟨second, rfl, next⟩ := approve_next (Or.inl continued)
    cases next with
    | custody coSigns =>
      left
      simp only [Process.coSigning] at coSigning ⊢
      split at coSigning
      · exact coSigning
      · cases coSigning
    | prepare owned created =>
      left
      obtain ⟨hash, _, built⟩ := Option.bind_eq_some_iff.mp created
      cases built
      cases coSigning
      rw [Process.coSigning, (Shared.request?_of_findOwned owned).1]
    | insert operation => exact Or.inl coSigning
    | update operation =>
      right
      cases coSigning
      rfl
    | read | write => cases coSigning
  | cancel | submit | expire | poll | execute | confirm => cases coSigning

variable {after : Shared} {process : Option Process}

/-- What a step can make of the records, given the outline. -/
theorem coSignCustody_global {pid : Nat} (holds : (coSignCustody settings).Holds state)
    (covered : ApprovalsCovered settings state)
    (allowed : CoSignOrdered settings state (.advance pid input))
    (running : state.process? pid = some before)
    (moved : (services settings).next state.shared before input = some (after, process)) :
    (coSignCustody settings).Global after := by
  have extend := extends_advance moved
  intro id worked
  obtain broadcasting | sent := worked
  · obtain same | ⟨status, sets, set⟩ := status?_advance running moved id
    · exact (holds.global id (Or.inl (same ▸ broadcasting))).extend extend
    · rw [set] at broadcasting
      cases broadcasting
      exact (cleared_of_claim covered allowed.1 running sets).extend extend
  · obtain same | ⟨broadcast, write, own, _⟩ := broadcastsOf_advance moved id
    · exact (holds.global id (Or.inr (same ▸ sent))).extend extend
    · have owns := owning_of_broadcast write
      rw [own] at owns
      exact ((holds.locals pid before running).owns id owns).extend extend

/-- Every allowed step keeps the outline. -/
theorem coSignCustody_keeps {pid : Nat} (holds : (coSignCustody settings).Holds state)
    (covered : ApprovalsCovered settings state)
    (allowed : CoSignOrdered settings state (.advance pid input))
    (running : state.process? pid = some before)
    (moved : (services settings).next state.shared before input = some (after, process)) :
    (coSignCustody settings).Keeps state pid after process := by
  have extend := extends_advance moved
  have performed := perform_cases moved
  have informed := holds.locals pid before running
  have globally := coSignCustody_global holds covered allowed running moved
  constructor
  · exact globally
  · intro point continued
    subst continued
    have continues := performed.continuesAt
    constructor
    · rintro request rfl
      exact extend.requests _ _ (informed_write continues)
    · rintro operation signature rfl
      obtain ⟨later, stays, kept⟩ := extend.operations operation (stored_of_load continues)
      exact ⟨later, stays, kept.operationId, kept.withdrawalId⟩
    · rintro operation rfl
      obtain ⟨⟨signature, rfl⟩, stops⟩ := sign_before_release continues
      obtain ⟨_, applied⟩ | thrown := performed.process_cases
      · obtain ⟨stored, inside, same, own⟩ := informed.signs operation signature rfl
        have signed := signed_of_sign applied inside same
        rwa [own] at signed
      · rw [stops] at thrown
        cases thrown
    · intro id owns
      obtain ⟨kept, _⟩ | ⟨attempt, rfl, rfl, approved, thrown⟩ :=
        owning_of_continuesAt continues owns
      · exact (informed.owns id kept).extend extend
      · apply globally
        left
        obtain ⟨_, applied⟩ | failed := performed.process_cases
        · exact status?_claim approved applied
        · rw [thrown] at failed
          cases failed
          cases owns
  · exact fun other point _ found => (holds.locals other point found).extend extend
  · exact fun _ _ _ _ _ _ => trivial

/-- What begins from outside keeps the outline. -/
theorem coSignCustody_launch {begun : Start} (holds : (coSignCustody settings).Holds state)
    (started : start state.shared begun = some (after, process)) :
    (coSignCustody settings).Keeps state state.processes.length after process := by
  have extend := extends_start started
  constructor
  · intro id worked
    refine (holds.global id ?_).extend extend
    obtain broadcasting | sent := worked
    · left
      exact status?_of_start started broadcasting (by decide)
    · right
      rwa [broadcastsOf_start started] at sent
  · intro point continued
    subst continued
    exact (start_fresh started).informed
  · exact fun other point _ found => (holds.locals other point found).extend extend
  · exact fun _ _ _ _ _ _ => trivial

/-- An update to 'approved' is the first one of an approval that goes on, or its
withdrawal is cleared. -/
theorem approved_cases {pid : Nat} (informed : before.Informed settings state.shared)
    (allowed : CoSignOrdered settings state (.advance pid input))
    (running : state.process? pid = some before)
    (moved : (services settings).next state.shared before input = some (after, process))
    (sets : setsStatus settings state (.advance pid input) = some (pid, id, .approved))
    {request : Request} (requested : state.shared.request? id = some request)
    (coSigns : settings.coSigns request = true) :
    state.shared.Signed id ∨ ∃ point, process = some point ∧ point.coSigning settings = some id := by
  obtain ⟨_, expected, found, update, _, _⟩ := statusUpdate_of_setsStatus running sets
  cases update with
  | approve read =>
    right
    have same := informed.approves read rfl
    rw [requested] at same
    cases same
    have answered : input.outcome ≠ .lost := by
      have complete := allowed.2
      simp only [approvalsComplete, running, Option.all_some, Process.approving, coSigns,
        Bool.and_eq_true] at complete
      simpa using complete.2
    have reported := reported_of_setsStatus sets
    have outcome : input.outcome = .done := by
      cases ended : input.outcome with
      | done => rfl
      | failed => exact absurd ended reported
      | lost => exact absurd ended answered
    have performed := perform_cases moved
    rw [outcome] at performed
    obtain ⟨next, _⟩ := performed.of_done rfl
    exact ⟨_, next, by simp [Process.coSigning, coSigns]⟩
  | release operation =>
    left
    exact informed.releases operation rfl
  | retry attempt _ =>
    left
    obtain ⟨known, same, signed⟩ := informed.owns attempt.id rfl
    rw [requested] at same
    cases same
    exact signed coSigns

/-- Every allowed action keeps the approvals covered. -/
theorem approvalsCovered_step {state next : State} {action : Action}
    (holds : (coSignCustody settings).Holds state) (covered : ApprovalsCovered settings state)
    (allowed : CoSignOrdered settings state action)
    (transition : (services settings).system.step state action = some next) :
    ApprovalsCovered settings next := by
  intro id request requested coSigns approved
  cases action with
  | launch begun =>
    obtain ⟨shared, process, started, rfl⟩ := ProcessPool.step_launch transition
    rw [PoolState.shared_spawn] at requested approved ⊢
    have current := status?_of_start started approved (by decide)
    have known : state.shared.request? id = some request := by
      obtain same | absent := request?_start started id
      · rw [← same, requested]
      · obtain ⟨row, present, _⟩ := Option.map_eq_some_iff.mp current
        rw [Shared.request?, present] at absent
        cases absent
    obtain signed | ⟨pid, point, found, coSigning⟩ := covered id request known coSigns current
    · exact Or.inl (signed.extend (extends_start started))
    · exact Or.inr ⟨pid, point, PoolState.process?_spawn_of_running found, coSigning⟩
  | crash pid =>
    obtain ⟨before, running, rfl⟩ := ProcessPool.step_crash transition
    obtain signed | ⟨other, point, found, coSigning⟩ :=
      covered id request requested coSigns approved
    · exact Or.inl signed
    · right
      refine ⟨other, point, ?_, coSigning⟩
      have different : other ≠ pid := by
        rintro rfl
        have complete := allowed.2
        simp [approvalsComplete, found, coSigning] at complete
      rw [PoolState.process?_update_of_ne different, found]
  | advance pid input =>
    obtain ⟨before, shared, process, running, moved, rfl⟩ := ProcessPool.step_advance transition
    rw [PoolState.shared_update] at requested approved ⊢
    have known : state.shared.request? id = some request := by
      rw [← request?_advance moved id, requested]
    have extend := extends_advance moved
    obtain same | ⟨status, sets, set⟩ := status?_advance running moved id
    · obtain signed | ⟨other, point, found, coSigning⟩ :=
        covered id request known coSigns (same ▸ approved)
      · exact Or.inl (signed.extend extend)
      · by_cases acts : other = pid
        · subst acts
          rw [running] at found
          cases found
          right
          -- The approval itself moves: it goes on, and not past its second update.
          have complete := allowed.2
          simp only [approvalsComplete, running, Option.all_some, coSigning, Option.isNone_some,
            Bool.false_or, Bool.and_eq_true, Step.proceeds, decide_eq_true_eq] at complete
          obtain ⟨⟨⟨outcome, succeeds⟩, goesOn⟩, _⟩ := complete
          have performed := perform_cases moved
          rw [outcome] at performed
          obtain ⟨continued, applied⟩ := performed.of_done succeeds
          obtain ⟨point, next⟩ := Option.isSome_iff_exists.mp goesOn
          obtain stays | write := coSigning_next coSigning next
          · refine ⟨other, point, ?_, stays⟩
            rw [PoolState.process?_update_self running, continued, next]
          · rw [write] at applied
            have waiting := status?_setStatus applied (same ▸ approved)
            rw [approved] at waiting
            cases waiting
        · right
          refine ⟨other, point, ?_, coSigning⟩
          rw [PoolState.process?_update_of_ne acts, found]
    · rw [set] at approved
      cases approved
      have informed := holds.locals pid before running
      obtain signed | ⟨point, continued, coSigning⟩ :=
        approved_cases informed allowed running moved sets known coSigns
      · exact Or.inl (signed.extend extend)
      · right
        refine ⟨pid, point, ?_, coSigning⟩
        rw [PoolState.process?_update_self running, continued]

/-- In every run in which approvals of withdrawals with co-sign custody do not stop
between their two updates, and the worker claims none in between, such a
withdrawal is claimed and broadcast only after its co-sign operation was signed. -/
theorem signed_before_claimed {settings : Settings} {state : State} {id : WithdrawalId}
    {request : Request}
    (reached : (services settings).system.Reachable (CoSignOrdered settings) state)
    (requested : state.shared.request? id = some request)
    (custody : settings.coSignCustody request.projectId request.clientId = true)
    (worked : state.shared.status? id = some .broadcasting ∨ state.shared.broadcastsOf id ≠ []) :
    state.shared.Signed id := by
  have joint : (coSignCustody settings).HoldsWith (ApprovalsCovered settings) state := by
    refine ProofOutline.reachable_with reached ?_ ?_ ?_ ?_
    · rintro shared rfl
      constructor
      · rintro id (broadcasting | sent)
        · cases broadcasting
        · exact absurd rfl sent
      · intro id request requested
        cases requested
    · intro state begun shared process holds _ _ started
      exact coSignCustody_launch holds started
    · intro state pid before input shared process holds covered allowed running moved
      exact coSignCustody_keeps holds covered allowed running moved
    · intro state action next holds covered allowed transition
      exact approvalsCovered_step holds covered allowed transition
  obtain ⟨known, same, signed⟩ := joint.holds.global id worked
  rw [requested] at same
  cases same
  exact signed custody

/-- Withdrawal 1 of a project with co-sign custody is approved and its co-sign
operation created, without interruption. -/
def approvedForCoSign : List Action :=
  [.launch (.create (sampleRequest 2) false), .launch (.approve 1 1)] ++ advances 1 3 ++
    [answers 1 (.coSign sampleCoSignInputs)] ++ advances 1 3

/-- The client signs, and the worker polls and broadcasts. -/
def signedAndBroadcast : List Action :=
  [.launch (.submit 1 1 [] 1700000000000)] ++ advances 2 4 ++ [.launch .poll] ++ advances 3 4 ++
    [.launch (.execute 1)] ++ claimsAndPrepares 4 ++ [answers 4 (.txHash "0x01")]

theorem signed_before_claimed_sample :
    ∃ state : State, (state.shared.broadcastsOf 1).length = 1 ∧ state.shared.Signed 1 := by
  obtain ⟨state, reached, requested, broadcasting, sent⟩ : ∃ state,
      (services sampleSettings).system.Reachable (CoSignOrdered sampleSettings) state ∧
        state.shared.request? 1 = some (sampleRequest 2) ∧
          state.shared.status? 1 = some .broadcasting ∧
          (state.shared.broadcastsOf 1).length = 1 :=
    exists_reachable (idleState_initial sampleSettings)
      (approvedForCoSign ++ signedAndBroadcast) (by decide +kernel)
  exact ⟨state, sent, signed_before_claimed reached requested rfl (Or.inl broadcasting)⟩

/-- The worker polls and broadcasts between the two updates of an approval. -/
def claimedWhileApproving : List Action :=
  [.launch (.create (sampleRequest 2) false), .launch (.approve 1 1)] ++ advances 1 2 ++
    [.launch .poll] ++ advances 2 4 ++ [.launch (.execute 1)] ++ claimsAndPrepares 3 ++
    [answers 3 (.txHash "0x01")]

theorem claimed_before_signed :
    ¬ ∀ (settings : Settings) (state : State) (id : WithdrawalId) (request : Request),
      (services settings).system.Reachable Unrestricted state →
        state.shared.request? id = some request →
          settings.coSignCustody request.projectId request.clientId = true →
            (state.shared.status? id = some .broadcasting ∨ state.shared.broadcastsOf id ≠ []) →
              state.shared.Signed id := by
  intro signed
  obtain ⟨state, reached, requested, broadcasting, none⟩ : ∃ state,
      (services sampleSettings).system.Reachable Unrestricted state ∧
      state.shared.request? 1 = some (sampleRequest 2) ∧
        state.shared.status? 1 = some .broadcasting ∧
        state.shared.operations.length = 0 :=
    exists_reachable (idleState_initial sampleSettings) claimedWhileApproving (by decide +kernel)
  obtain ⟨operation, stored, _⟩ :=
    signed sampleSettings state 1 (sampleRequest 2) reached requested rfl (Or.inl broadcasting)
  rw [List.length_eq_zero_iff.mp none] at stored
  cases stored

end CryptoVaultHub.Withdrawal
