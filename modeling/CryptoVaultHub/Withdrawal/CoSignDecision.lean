import CryptoVaultHub.Withdrawal.Control

/-!
# The decision of a co-sign operation

`submitCoSignature` and `expireStaleOperations` each decide an operation with two updates: one of
the operation, which names no expected status, and one of its withdrawal, which expects
'pending_cosign'. `decisions_agree` says what their steps have to avoid for both rows to be
decided in the same way.
-/

namespace CryptoVaultHub.Withdrawal

open TransitionSystem

variable {settings : Settings} {shared after : Shared}

/-! ## The two calls -/

/-- The status of a withdrawal that goes with the one of its operation. -/
def CoSignStatus.outcome : CoSignStatus → Status
  | .pending => .pendingCosign
  | .signed => .approved
  | .expired => .cancelled

/-- An operation is undecided like its withdrawal, signed with its withdrawal released, or expired
with its withdrawal cancelled. -/
@[reducible] def Shared.Agrees (shared : Shared) (operation : CoSignOperation) : Prop :=
  shared.status? operation.withdrawalId = some operation.status.outcome

/-- The keys of the operations are unique. -/
structure Shared.UniqueOperations (shared : Shared) : Prop where
  operationIds : ∀ first ∈ shared.operations, ∀ second ∈ shared.operations,
    first.operationId = second.operationId → first = second
  withdrawalIds : ∀ first ∈ shared.operations, ∀ second ∈ shared.operations,
    first.withdrawalId = second.withdrawalId → first = second

/-- Every operation agrees with its withdrawal. -/
structure Shared.CoSignReady (shared : Shared) : Prop where
  unique : shared.UniqueOperations
  agrees : ∀ operation ∈ shared.operations, shared.Agrees operation

/-- The calls that decide operations. -/
def startDecision (shared : Shared) : Start → Option (Shared × Option Process)
  | .submit operationId clientId signature now =>
    start shared (.submit operationId clientId signature now)
  | .expireStale now => start shared (.expireStale now)
  | _ => none

/-- Any number of submissions and expiries of the operations that are there. -/
def coSignDecisions (settings : Settings) : ProcessPool Shared Process Input Start :=
  { services settings with
    Initial := Shared.CoSignReady
    start := startDecision }

/-- The operation that a process is about to decide, and how. -/
def Process.decides : Process → Option (CoSignOperation × CoSignStatus)
  | .submit (.sign operation _) => some (operation, .signed)
  | .expire (.expire operation _) => some (operation, .expired)
  | _ => none

/-- The operation that a process has decided, and how, while its withdrawal is still to follow. -/
def Process.owes : Process → Option (CoSignOperation × CoSignStatus)
  | .submit (.release operation) => some (operation, .signed)
  | .expire (.cancel operation _) => some (operation, .expired)
  | _ => none

/-- No process is between the two updates of the operation. -/
def State.Settled (state : State) (operation : CoSignOperation) : Prop :=
  ¬ state.Runs fun process => ∃ owed, process.owes = some owed ∧
    owed.1.operationId = operation.operationId

/-- A settled operation agrees with its withdrawal. -/
def State.DecisionsAgree (state : State) : Prop :=
  ∀ operation ∈ state.shared.operations, state.Settled operation → state.shared.Agrees operation

/-! ## The condition -/

/-- The withdrawal still waits for the decision. -/
def Shared.waits (shared : Shared) (operation : CoSignOperation) : Bool :=
  shared.status? operation.withdrawalId = some .pendingCosign

/-- No one has decided the operation otherwise. -/
def Shared.undecided (shared : Shared) (operation : CoSignOperation) (status : CoSignStatus) :
    Bool :=
  shared.operations.all fun stored => stored.operationId ≠ operation.operationId ||
    stored.status = .pending || stored.status = status

/-- What a step has to avoid: it updates an operation that was decided otherwise since it was read,
or it stops between the two updates while the withdrawal waits. -/
def Process.decidesOnce (shared : Shared) (outcome : Outcome) (process : Process) : Bool :=
  match process.decides, process.owes with
  | some (operation, status), _ =>
    outcome = .failed || (shared.undecided operation status &&
      (outcome = .done || !shared.waits operation))
  | none, some (operation, _) => outcome ≠ .failed || !shared.waits operation
  | none, none => true

/-- The condition on the actions. -/
def State.decidingOnce (state : State) : Action → Bool
  | .launch _ => true
  | .advance pid input =>
    (state.process? pid).all fun process => process.decidesOnce state.shared input.outcome
  | .crash pid =>
    (state.process? pid).all fun process =>
      process.owes.all fun owed => !state.shared.waits owed.1

@[reducible] def State.DecidingOnce (state : State) (action : Action) : Prop :=
  State.decidingOnce state action = true

/-! ## The steps -/

/-- The operations that a process has read. -/
def Process.operations : Process → List CoSignOperation
  | .submit (.sign operation _) | .submit (.release operation) => [operation]
  | .expire (.expire operation rest) | .expire (.cancel operation rest) => operation :: rest
  | .expire (.publish rest) => rest
  | _ => []

/-- The points of the two calls. -/
def Process.isDecision : Process → Bool
  | .submit _ | .expire _ => true
  | .approve _ | .cancel _ | .poll .. | .execute .. | .confirm .. => false

/-- What the update of an operation keeps and sets. -/
structure CoSignOperation.Decided (status : CoSignStatus) (before after : CoSignOperation) :
    Prop where
  operationId : after.operationId = before.operationId
  withdrawalId : after.withdrawalId = before.withdrawalId
  status : after.status = status

/-- What a step of the two calls does: it decides an operation and owes the withdrawal, unless its
answer is lost; it updates the withdrawal that it owes; or it changes nothing. -/
inductive Process.Decides (shared : Shared) (process : Process) (outcome : Outcome) :
    Shared → Option Process → Prop where
  | first {operation : CoSignOperation} {status : CoSignStatus} {next : Option Process}
      {change : CoSignOperation → CoSignOperation}
      (decides : process.decides = some (operation, status))
      (took : outcome ≠ .failed)
      (changes : ∀ stored, CoSignOperation.Decided status stored (change stored))
      (follows : outcome = .done → ∃ later, next = some later ∧
        later.owes = some (operation, status)) :
      Decides shared process outcome (shared.updateOperation operation.operationId change) next
  | second {operation : CoSignOperation} {status : CoSignStatus} {next : Option Process}
      {later : Shared}
      (owes : process.owes = some (operation, status))
      (took : outcome ≠ .failed)
      (applied : (Write.setStatus operation.withdrawalId status.outcome (some .pendingCosign)).apply
        shared = some later) :
      Decides shared process outcome later next
  | nothing {next : Option Process}
      (quiet : (outcome = .failed ∧ next = none) ∨
        (process.decides = none ∧ process.owes = none)) :
      Decides shared process outcome shared next

/-- Where a step goes on: at a point of the two calls, with operations that it had or that are
stored, and it owes a withdrawal only after it has decided its operation. -/
structure Process.Goes (shared : Shared) (process : Process) (later : Process) : Prop where
  isDecision : later.isDecision = true
  operations : ∀ operation ∈ later.operations,
    operation ∈ process.operations ∨ operation ∈ shared.operations
  owes : ∀ owed, later.owes = some owed → process.decides = some owed

theorem expireNext_goes {process later : Process} {operations : List CoSignOperation}
    (known : ∀ operation ∈ operations, operation ∈ process.operations ∨
      operation ∈ shared.operations)
    (continued : expireNext operations = some later) : process.Goes shared later := by
  obtain ⟨operation, rest, rfl, rfl⟩ := expireNext_some continued
  exact ⟨rfl, known, by simp [Process.owes]⟩

theorem perform_goes {process later : Process} {answer : Answer}
    (decision : process.isDecision = true)
    (continues : (process.step settings shared answer).ContinuesAt later) :
    process.Goes shared later := by
  cases process with
  | submit point =>
    obtain ⟨second, rfl, next⟩ := submit_next continues
    cases next with
    | load stored pending =>
      refine ⟨rfl, ?_, by simp [Process.owes]⟩
      intro operation member
      rw [List.mem_singleton.mp member]
      exact .inr stored
    | sign operation signature =>
      exact ⟨rfl, fun _ member => .inl member, fun _ owed => owed⟩
    | release operation => exact ⟨rfl, by simp [Process.operations], by simp [Process.owes]⟩
  | expire point =>
    rcases continues with continued | continued
    · cases point with
      | select now =>
        refine expireNext_goes ?_ continued
        exact fun operation member => .inr (List.mem_of_mem_filter member)
      | expire operation rest =>
        cases continued
        exact ⟨rfl, fun _ member => .inl member, fun _ owed => owed⟩
      | cancel operation rest =>
        cases continued
        exact ⟨rfl, fun _ member => .inl (List.mem_cons_of_mem _ member),
          by simp [Process.owes]⟩
      | publish rest => exact expireNext_goes (fun _ member => .inl member) continued
    · cases point <;> cases continued
  | approve | cancel | poll | execute | confirm => cases decision

variable {process : Process} {outcome : Outcome} {next : Option Process}
  {operation : CoSignOperation} {status : CoSignStatus}

theorem Process.Decides.of_first {step : Step} (change : CoSignOperation → CoSignOperation)
    (decides : process.decides = some (operation, status))
    (write : step.write.apply shared = some (shared.updateOperation operation.operationId change))
    (changes : ∀ stored, CoSignOperation.Decided status stored (change stored))
    (thrown : step.thrown = none)
    (follows : ∃ later, step.next = some later ∧ later.owes = some (operation, status))
    (performed : Performed shared step outcome after next) :
    process.Decides shared outcome after next := by
  cases performed with
  | done answered applied =>
    cases write.symm.trans applied
    exact .first decides (by simp [answered]) changes fun _ => follows
  | thrown raised => exact .nothing (.inl ⟨raised.resolve_right (by simp [write]), thrown⟩)
  | lost unanswered applied =>
    cases write.symm.trans applied
    exact .first decides (by simp [unanswered]) changes fun answered => by
      rw [unanswered] at answered
      cases answered

theorem Process.Decides.of_second {step : Step} (owes : process.owes = some (operation, status))
    (write : step.write = .setStatus operation.withdrawalId status.outcome (some .pendingCosign))
    (thrown : step.thrown = none) (performed : Performed shared step outcome after next) :
    process.Decides shared outcome after next := by
  cases performed with
  | done answered applied => exact .second owes (by simp [answered]) (write ▸ applied)
  | thrown raised =>
    refine .nothing (.inl ⟨raised.resolve_right ?_, thrown⟩)
    rw [write, Write.apply]
    exact Option.some_ne_none _
  | lost unanswered applied => exact .second owes (by simp [unanswered]) (write ▸ applied)

theorem Process.Decides.of_skip {step : Step} (quiet : process.decides = none ∧ process.owes = none)
    (write : step.write = .skip) (performed : Performed shared step outcome after next) :
    process.Decides shared outcome after next := by
  have same : after = shared := by
    rcases performed.shared_cases with same | ⟨_, applied⟩
    · exact same
    · rw [write] at applied
      exact (Option.some.inj applied).symm
  subst same
  exact .nothing (.inr quiet)

theorem perform_decides {answer : Answer} (decision : process.isDecision = true)
    (performed : Performed shared (process.step settings shared answer) outcome after next) :
    process.Decides shared outcome after next := by
  cases process with
  | submit point =>
    cases point with
    | load | publish => exact .of_skip ⟨rfl, rfl⟩ rfl performed
    | sign operation signature =>
      exact .of_first
        (fun stored => { stored with status := .signed, clientSignature := some signature })
        rfl rfl (fun _ => ⟨rfl, rfl, rfl⟩) rfl ⟨_, rfl, rfl⟩ performed
    | release operation => exact .of_second rfl rfl rfl performed
  | expire point =>
    cases point with
    | select | publish => exact .of_skip ⟨rfl, rfl⟩ rfl performed
    | expire operation rest =>
      exact .of_first (fun stored => { stored with status := .expired }) rfl rfl
        (fun _ => ⟨rfl, rfl, rfl⟩) rfl ⟨_, rfl, rfl⟩ performed
    | cancel operation rest => exact .of_second rfl rfl rfl performed
  | approve | cancel | poll | execute | confirm => cases decision

/-! ## The invariant -/

/-- What a process of the two calls knows: the operations that it has read are stored under their
keys, and an operation that it has decided stays so. -/
structure Process.Follows (shared : Shared) (process : Process) : Prop where
  isDecision : process.isDecision = true
  stored : ∀ operation ∈ process.operations, ∃ stored ∈ shared.operations,
    stored.operationId = operation.operationId ∧ stored.withdrawalId = operation.withdrawalId
  decided : ∀ operation status, process.owes = some (operation, status) →
    ∀ stored ∈ shared.operations, stored.operationId = operation.operationId →
      stored.status = status

def deciding : ProofOutline Shared Process where
  Global := Shared.UniqueOperations
  Local := Process.Follows
  Apart _ _ := True
  apart_symm _ := trivial

/-- An operation agrees with its withdrawal, or some process owes the update of the withdrawal. -/
def State.Owed (state : State) (operation : CoSignOperation) : Prop :=
  state.shared.Agrees operation ∨
    (state.shared.waits operation = true ∧ ¬ state.Settled operation)

def State.AllOwed (state : State) : Prop :=
  ∀ operation ∈ state.shared.operations, state.Owed operation

/-! ## The operations -/

variable {change : CoSignOperation → CoSignOperation}

theorem mem_updateOperation {operationId : OperationId} {later : CoSignOperation} :
    later ∈ (shared.updateOperation operationId change).operations ↔
      ∃ stored ∈ shared.operations,
        (if stored.operationId = operationId then change stored else stored) = later :=
  List.mem_map

/-- An update that expects a status finds it or changes nothing. -/
theorem status?_setStatus_expected {id : WithdrawalId} (other : WithdrawalId) {status expected : Status}
    (applied : (Write.setStatus id status (some expected)).apply shared = some after) :
    after.status? other =
      if other = id ∧ shared.status? id = some expected then some status
      else shared.status? other := by
  cases applied
  rw [Shared.status?, Shared.find?_updateRow]
  · cases found : shared.find? other with
    | none =>
      by_cases same : other = id
      · subst same
        simp [Shared.status?, found]
      · simp [Shared.status?, found, same]
    | some row =>
      by_cases same : other = id
      · subst same
        by_cases fits : row.status = expected
        · simp [Shared.status?, found, fits, WithdrawalRow.matches]
        · simp [Shared.status?, found, fits, WithdrawalRow.matches]
      · simp [Shared.status?, found, same]
  · intro row
    split <;> rfl

/-- A change that keeps the keys keeps them unique. -/
theorem Shared.UniqueOperations.update {operationId : OperationId}
    (unique : shared.UniqueOperations)
    (changes : ∀ stored, CoSignOperation.Decided status stored (change stored)) :
    (shared.updateOperation operationId change).UniqueOperations := by
  have keeps : ∀ stored : CoSignOperation,
      (if stored.operationId = operationId then change stored else stored).operationId =
          stored.operationId ∧
        (if stored.operationId = operationId then change stored else stored).withdrawalId =
          stored.withdrawalId := by
    intro stored
    split
    · exact ⟨(changes stored).operationId, (changes stored).withdrawalId⟩
    · exact ⟨rfl, rfl⟩
  constructor
  · intro first inside second member same
    obtain ⟨before, there, rfl⟩ := mem_updateOperation.mp inside
    obtain ⟨other, here, rfl⟩ := mem_updateOperation.mp member
    rw [(keeps before).1, (keeps other).1] at same
    rw [unique.operationIds before there other here same]
  · intro first inside second member same
    obtain ⟨before, there, rfl⟩ := mem_updateOperation.mp inside
    obtain ⟨other, here, rfl⟩ := mem_updateOperation.mp member
    rw [(keeps before).2, (keeps other).2] at same
    rw [unique.withdrawalIds before there other here same]

/-- A process owes 'approved' or 'cancelled'. -/
theorem decided_of_owes (owes : process.owes = some (operation, status)) :
    status ≠ .pending ∧ process.decides = none := by
  cases process with
  | submit point =>
    cases point with
    | release => cases owes; exact ⟨nofun, rfl⟩
    | load | sign | publish => cases owes
  | expire point =>
    cases point with
    | cancel => cases owes; exact ⟨nofun, rfl⟩
    | select | expire | publish => cases owes
  | approve | cancel | poll | execute | confirm => cases owes

/-- The operation that a process owes is among those that it has read. -/
theorem mem_operations_of_owes
    (named : process.owes = some (operation, status) ∨ process.decides = some (operation, status)) :
    operation ∈ process.operations := by
  cases process with
  | submit point => cases point <;> rcases named with named | named <;> cases named <;>
      exact List.mem_cons_self
  | expire point => cases point <;> rcases named with named | named <;> cases named <;>
      exact List.mem_cons_self
  | approve | cancel | poll | execute | confirm => rcases named with named | named <;> cases named

/-- The stored operation that a process decides or has decided. -/
theorem Process.Follows.same_withdrawal {operation stored : CoSignOperation}
    (unique : shared.UniqueOperations) (follows : process.Follows shared)
    (named : process.owes = some (operation, status) ∨ process.decides = some (operation, status))
    (inside : stored ∈ shared.operations) (same : stored.operationId = operation.operationId) :
    stored.withdrawalId = operation.withdrawalId := by
  obtain ⟨other, there, sameId, sameWithdrawal⟩ :=
    follows.stored operation (mem_operations_of_owes named)
  rw [unique.operationIds stored inside other there (same.trans sameId.symm), sameWithdrawal]

/-! ## Along runs -/

/-- What a process follows stays, while the operations keep their keys and those that it has decided
their statuses. -/
theorem Process.Follows.frame (follows : process.Follows shared)
    (kept : ∀ stored ∈ shared.operations, ∃ later ∈ after.operations,
      later.operationId = stored.operationId ∧ later.withdrawalId = stored.withdrawalId)
    (came : ∀ later ∈ after.operations, ∃ stored ∈ shared.operations,
      stored.operationId = later.operationId ∧
        (∀ operation status, process.owes = some (operation, status) → stored.status = status →
          later.status = status)) :
    process.Follows after where
  isDecision := follows.isDecision
  stored := by
    intro operation member
    obtain ⟨stored, inside, sameId, sameWithdrawal⟩ := follows.stored operation member
    obtain ⟨later, there, id, withdrawal⟩ := kept stored inside
    exact ⟨later, there, id.trans sameId, withdrawal.trans sameWithdrawal⟩
  decided := by
    intro operation status owes later there same
    obtain ⟨stored, inside, id, stays⟩ := came later there
    exact stays operation status owes
      (follows.decided operation status owes stored inside (id.trans same))

theorem Process.Follows.of_same (follows : process.Follows shared)
    (same : after.operations = shared.operations) : process.Follows after := by
  refine follows.frame ?_ ?_
  · intro stored inside
    exact ⟨stored, same ▸ inside, rfl, rfl⟩
  · intro later there
    exact ⟨later, same ▸ there, rfl, fun _ _ _ status => status⟩

/-- The update of an operation leaves the operations that others have decided as they are. -/
theorem Process.Follows.of_update (follows : process.Follows shared)
    (undecided : shared.undecided operation status = true)
    (changes : ∀ stored, CoSignOperation.Decided status stored (change stored)) :
    process.Follows (shared.updateOperation operation.operationId change) := by
  refine follows.frame ?_ ?_
  · intro stored inside
    refine ⟨_, mem_updateOperation.mpr ⟨stored, inside, rfl⟩, ?_⟩
    split
    · exact ⟨(changes stored).operationId, (changes stored).withdrawalId⟩
    · exact ⟨rfl, rfl⟩
  · intro later there
    obtain ⟨stored, inside, rfl⟩ := mem_updateOperation.mp there
    refine ⟨stored, inside, ?_⟩
    split
    · rename_i own
      refine ⟨(changes stored).operationId.symm, ?_⟩
      intro other decided owes was
      have open_or_same := List.all_eq_true.mp undecided stored inside
      simp only [own, ne_eq, not_true_eq_false, decide_false, Bool.false_or, Bool.or_eq_true,
        decide_eq_true_eq] at open_or_same
      rcases open_or_same with pending | same
      · exact absurd (was.symm.trans pending) (decided_of_owes owes).1
      · exact (changes stored).status.trans (same.symm.trans was)
    · exact ⟨rfl, fun _ _ _ was => was⟩

/-- The condition on a step that decides an operation. -/
theorem decidesOnce_first (once : process.decidesOnce shared outcome = true)
    (decides : process.decides = some (operation, status)) (took : outcome ≠ .failed) :
    shared.undecided operation status = true ∧
      (outcome = .done ∨ shared.waits operation = false) := by
  simpa [Process.decidesOnce, decides, took] using once

/-- Where a process of the two calls goes on, it follows what is stored. -/
theorem deciding_own {process later : Process} {answer : Answer} (follows : process.Follows shared)
    (performed : Performed shared (process.step settings shared answer) outcome after (some later)) :
    later.Follows after := by
  have goes : process.Goes shared later := perform_goes follows.isDecision performed.continuesAt
  have started : process.decides = none → later.Follows shared := by
    intro quiet
    refine ⟨goes.isDecision, ?_, ?_⟩
    · intro operation member
      rcases goes.operations operation member with old | stored
      · exact follows.stored operation old
      · exact ⟨operation, stored, rfl, rfl⟩
    · intro operation status owes
      have decides := goes.owes _ owes
      rw [quiet] at decides
      cases decides
  cases perform_decides follows.isDecision performed with
  | nothing quiet =>
    rcases quiet with ⟨_, ended⟩ | ⟨quiet, _⟩
    · cases ended
    · exact started quiet
  | second owes took applied =>
    have quiet := (decided_of_owes owes).2
    exact (started quiet).of_same (by cases applied; rfl)
  | @first operation status next change decides took changes _ =>
    have known : ∀ other ∈ later.operations, ∃ stored ∈ shared.operations,
        stored.operationId = other.operationId ∧ stored.withdrawalId = other.withdrawalId := by
      intro other member
      rcases goes.operations other member with old | stored
      · exact follows.stored other old
      · exact ⟨other, stored, rfl, rfl⟩
    refine ⟨goes.isDecision, ?_, ?_⟩
    · intro other member
      obtain ⟨stored, inside, sameId, sameWithdrawal⟩ := known other member
      refine ⟨_, mem_updateOperation.mpr ⟨stored, inside, rfl⟩, ?_⟩
      split
      · exact ⟨(changes stored).operationId.trans sameId,
          (changes stored).withdrawalId.trans sameWithdrawal⟩
      · exact ⟨sameId, sameWithdrawal⟩
    · intro other decided owes updated there same
      cases decides.symm.trans (goes.owes _ owes)
      obtain ⟨stored, inside, rfl⟩ := mem_updateOperation.mp there
      by_cases own : stored.operationId = operation.operationId
      · rw [if_pos own]
        exact (changes stored).status
      · rw [if_neg own] at same
        exact absurd same own

theorem advance_deciding {state : State} {pid : Nat} {process : Process} {input : Input}
    {next : Option Process} (holds : deciding.Holds state)
    (running : state.process? pid = some process)
    (once : process.decidesOnce state.shared input.outcome = true)
    (performed : Performed state.shared (process.step settings state.shared input.answer)
      input.outcome after next) :
    deciding.Keeps state pid after next := by
  have follows : process.Follows state.shared := holds.locals pid process running
  have unique : state.shared.UniqueOperations := holds.global
  have effect := perform_decides follows.isDecision performed
  refine ⟨?_, ?_, ?_, fun _ _ _ _ _ _ => trivial⟩
  · cases effect with
    | nothing => exact unique
    | second _ _ applied =>
      cases applied
      exact ⟨unique.operationIds, unique.withdrawalIds⟩
    | first _ _ changes _ => exact unique.update changes
  · rintro later rfl
    exact deciding_own follows performed
  · intro other point _ runs
    have others : point.Follows state.shared := holds.locals other point runs
    cases effect with
    | nothing => exact others
    | second _ _ applied => exact others.of_same (by cases applied; rfl)
    | first decides took changes _ =>
      exact others.of_update (decidesOnce_first once decides took).1 changes

variable {state : State}

/-- An operation whose withdrawal some process owes is not settled. -/
theorem not_settled_iff :
    ¬ state.Settled operation ↔ state.Runs fun process => ∃ owed, process.owes = some owed ∧
      owed.1.operationId = operation.operationId :=
  not_not

/-- An operation stays owed where its row and its withdrawal stay and no process that owes it
ends. -/
theorem State.Owed.update {pid : Nat} (owed : state.Owed operation)
    (running : state.process? pid = some process)
    (status : after.status? operation.withdrawalId = state.shared.status? operation.withdrawalId)
    (other : state.shared.waits operation = true → ∀ owes, process.owes = some owes →
      owes.1.operationId ≠ operation.operationId) :
    State.Owed (state.update after pid next) operation := by
  rcases owed with agrees | ⟨waits, unsettled⟩
  · exact .inl (status.trans agrees)
  · refine .inr ⟨by simpa [Shared.waits, status] using waits, not_settled_iff.mpr ?_⟩
    rcases (not_settled_iff.mp unsettled).update_cases running after next with own | remains
    · obtain ⟨owes, named, same⟩ := own
      exact absurd same (other waits owes named)
    · exact remains

theorem owed_nothing {pid : Nat} (holds : deciding.Holds state) (owed : state.Owed operation)
    (inside : operation ∈ state.shared.operations) (running : state.process? pid = some process)
    (once : process.decidesOnce state.shared outcome = true)
    (quiet : outcome = .failed ∨ process.owes = none) :
    State.Owed (state.update state.shared pid next) operation := by
  have follows : process.Follows state.shared := holds.locals pid process running
  refine owed.update running rfl ?_
  rintro waits ⟨named, status⟩ owes same
  rcases quiet with failed | none
  · have quiet := (decided_of_owes owes).2
    have done : state.shared.waits named = false := by
      simpa [Process.decidesOnce, quiet, owes, failed] using once
    have withdrawal := follows.same_withdrawal holds.global (.inl owes) inside same.symm
    rw [Shared.waits, ← withdrawal, ← Shared.waits, waits] at done
    cases done
  · rw [none] at owes
    cases owes

/-- After an operation is decided, its withdrawal is owed. -/
theorem owed_first {pid : Nat} {operation stored : CoSignOperation} (holds : deciding.Holds state)
    (owed : state.Owed stored) (inside : stored ∈ state.shared.operations)
    (running : state.process? pid = some process)
    (decides : process.decides = some (operation, status))
    (undecided : state.shared.undecided operation status = true)
    (reported : outcome = .done ∨ state.shared.waits operation = false)
    (changes : ∀ stored, CoSignOperation.Decided status stored (change stored))
    (follows : outcome = .done → ∃ later, next = some later ∧
      later.owes = some (operation, status)) :
    State.Owed (state.update (state.shared.updateOperation operation.operationId change) pid next)
      (if stored.operationId = operation.operationId then change stored else stored) := by
  have own : process.Follows state.shared := holds.locals pid process running
  by_cases same : stored.operationId = operation.operationId
  · rw [if_pos same]
    have withdrawal := own.same_withdrawal holds.global (.inr decides) inside same
    have open_or_same : stored.status = .pending ∨ stored.status = status := by
      simpa [same] using List.all_eq_true.mp undecided stored inside
    -- Either the withdrawal waits still, or it was decided in the same way before.
    have decided : state.shared.waits stored = true ∨
        (state.shared.Agrees stored ∧ stored.status = status) := by
      rcases owed with agrees | ⟨waits, _⟩
      · rcases open_or_same with pending | done
        · left
          rw [Shared.Agrees, pending] at agrees
          exact decide_eq_true agrees
        · exact .inr ⟨agrees, done⟩
      · exact .inl waits
    rcases decided with waits | ⟨agrees, done⟩
    · have answered : outcome = .done := by
        refine reported.resolve_right ?_
        rw [Shared.waits, ← withdrawal, ← Shared.waits, waits]
        nofun
      obtain ⟨later, rfl, owes⟩ := follows answered
      refine .inr ⟨?_, not_settled_iff.mpr ?_⟩
      · rw [Shared.waits, (changes stored).withdrawalId]
        exact waits
      · refine PoolState.runs_update running ⟨_, owes, ?_⟩ _
        rw [(changes stored).operationId, same]
    · left
      rw [Shared.Agrees, (changes stored).withdrawalId, (changes stored).status, ← done]
      exact agrees
  · rw [if_neg same]
    refine owed.update running rfl ?_
    rintro _ ⟨named, other⟩ owes _
    rw [(decided_of_owes owes).2] at decides
    cases decides

/-- The update of a withdrawal settles its operation. -/
theorem owed_second {pid : Nat} {operation stored : CoSignOperation} (holds : deciding.Holds state)
    (owed : state.Owed stored) (inside : stored ∈ state.shared.operations)
    (running : state.process? pid = some process) (owes : process.owes = some (operation, status))
    (applied : (Write.setStatus operation.withdrawalId status.outcome (some .pendingCosign)).apply
      state.shared = some after) : State.Owed (state.update after pid next) stored := by
  have follows : process.Follows state.shared := holds.locals pid process running
  have changed := status?_setStatus_expected (stored.withdrawalId) applied
  by_cases own : stored.withdrawalId = operation.withdrawalId
  · left
    obtain ⟨other, there, sameId, sameWithdrawal⟩ :=
      follows.stored operation (mem_operations_of_owes (.inl owes))
    have same : other = stored :=
      holds.global.withdrawalIds other there stored inside (sameWithdrawal.trans own.symm)
    subst same
    have decided := follows.decided operation status owes other there sameId
    have agrees : after.status? other.withdrawalId = some other.status.outcome := by
      rw [changed, decided, ← own]
      rcases owed with agrees | ⟨waits, _⟩
      · rw [Shared.Agrees, decided] at agrees
        split
        · rfl
        · exact agrees
      · rw [if_pos ⟨rfl, of_decide_eq_true waits⟩]
    exact agrees
  · refine owed.update running ?_ ?_
    · rw [changed, if_neg fun taken => own taken.1]
    · intro _ named others same
      cases owes.symm.trans others
      exact own (follows.same_withdrawal holds.global (.inl owes) inside same.symm)

theorem allOwed_step {state next : State} {action : Action} (holds : deciding.Holds state)
    (owed : state.AllOwed) (allowed : State.DecidingOnce state action)
    (transition : (coSignDecisions settings).system.step state action = some next) :
    next.AllOwed := by
  cases action with
  | launch begun =>
    obtain ⟨shared, process, started, rfl⟩ := ProcessPool.step_launch transition
    have same : shared = state.shared := by
      cases begun with
      | submit | expireStale => cases started; rfl
      | create | approve | cancel | poll | execute | confirm | promote | promoteConfirm | stall
      | stallConfirm | stallOut | stallOutConfirm => cases started
    subst same
    intro operation inside
    rcases owed operation inside with agrees | ⟨waits, unsettled⟩
    · exact .inl agrees
    · exact .inr ⟨waits, not_settled_iff.mpr ((not_settled_iff.mp unsettled).spawn _ _)⟩
  | advance pid input =>
    obtain ⟨process, shared, later, running, moved, rfl⟩ := ProcessPool.step_advance transition
    have once : process.decidesOnce state.shared input.outcome = true := by
      simpa [State.DecidingOnce, State.decidingOnce, running] using allowed
    have follows : process.Follows state.shared := holds.locals pid process running
    have performed := @perform_cases settings _ _ _ _ _ moved
    cases perform_decides follows.isDecision performed with
    | nothing quiet =>
      intro operation inside
      refine owed_nothing holds (owed operation inside) inside running once ?_
      exact quiet.imp And.left And.right
    | second owes took applied =>
      intro operation inside
      have there : operation ∈ state.shared.operations := by
        cases applied
        exact inside
      exact owed_second holds (owed operation there) there running owes applied
    | first decides took changes goesOn =>
      intro operation inside
      obtain ⟨stored, there, rfl⟩ := mem_updateOperation.mp inside
      obtain ⟨undecided, reported⟩ := decidesOnce_first once decides took
      exact owed_first holds (owed stored there) there running decides undecided reported
        changes goesOn
  | crash pid =>
    obtain ⟨process, running, rfl⟩ := ProcessPool.step_crash transition
    intro operation inside
    have follows : process.Follows state.shared := holds.locals pid process running
    refine (owed operation inside).update running rfl ?_
    rintro waits ⟨named, status⟩ owes same
    have done : state.shared.waits named = false := by
      simpa [State.DecidingOnce, State.decidingOnce, running, owes] using allowed
    have withdrawal := follows.same_withdrawal holds.global (.inl owes) inside same.symm
    rw [Shared.waits, ← withdrawal, ← Shared.waits, waits] at done
    cases done

theorem fresh_follows {begun : Start} {process : Option Process}
    (started : startDecision shared begun = some (after, process)) :
    after = shared ∧ ∀ point, process = some point → point.Follows shared := by
  cases begun with
  | submit | expireStale =>
    cases started
    refine ⟨rfl, ?_⟩
    rintro point same
    cases same
    exact ⟨rfl, by simp [Process.operations], by simp [Process.owes]⟩
  | create | approve | cancel | poll | execute | confirm | promote | promoteConfirm | stall
  | stallConfirm | stallOut | stallOutConfirm => cases started

/-- As long as every operation is decided once and its withdrawal follows, the two agree wherever no
call is between them. -/
theorem decisions_agree {state : State}
    (reached : (coSignDecisions settings).system.Reachable State.DecidingOnce state) :
    state.DecisionsAgree := by
  have joint : deciding.HoldsWith State.AllOwed state := by
    refine ProofOutline.reachable_with reached ?_ ?_ ?_ ?_
    · intro shared ready
      exact ⟨ready.unique, fun operation inside => .inl (ready.agrees operation inside)⟩
    · intro before begun shared process holds _ _ started
      obtain ⟨rfl, fresh⟩ := fresh_follows started
      exact ⟨holds.global, fresh, fun other point _ runs => holds.locals other point runs,
        fun _ _ _ _ _ _ => trivial⟩
    · intro before pid process input shared next holds _ allowed running moved
      refine @advance_deciding settings _ _ _ _ _ _ holds running ?_ (perform_cases moved)
      simpa [State.DecidingOnce, State.decidingOnce, running] using allowed
    · exact fun _ _ _ holds owed allowed transition => allOwed_step holds owed allowed transition
  intro operation inside settled
  exact (joint.covered operation inside).resolve_right fun owed => owed.2 settled

/-! ## A submission at the instant of expiry -/

/-- The co-sign operation of the withdrawal waits for its signature. -/
def sampleWaiting : Shared :=
  { Shared.initial with
    withdrawals := [⟨sampleRequest 2, .pendingCosign, none, none⟩]
    operations :=
      (createCoSignOperation sampleSettings (sampleRequest 2) sampleCoSignInputs).toList }

theorem sampleWaiting_initial :
    (coSignDecisions sampleSettings).system.Initial ⟨sampleWaiting, []⟩ := by
  have waiting : ∀ operation ∈ sampleWaiting.operations, sampleWaiting.Agrees operation := by
    decide +kernel
  have single : ∀ first ∈ sampleWaiting.operations, ∀ second ∈ sampleWaiting.operations,
      first = second := by
    simp only [sampleWaiting]
    intro first inside second member
    exact Option.some.inj ((Option.mem_toList.mp inside).symm.trans (Option.mem_toList.mp member))
  exact ⟨⟨⟨fun first inside second member _ => single first inside second member,
    fun first inside second member _ => single first inside second member⟩, waiting⟩, rfl⟩

/-- The client signs shortly before the operation expires. -/
def sampleSubmit : Action := .launch (.submit 1 1 [] 1700086399999)

def sampleExpire : Action := .launch (.expireStale 1700086400001)

/-- No call is running. -/
def State.isQuiet (state : State) : Bool := state.processes.all Option.isNone

theorem State.settled_of_isQuiet (quiet : state.isQuiet = true) (operation : CoSignOperation) :
    state.Settled operation := by
  intro runs
  obtain ⟨process, member, running, same, _⟩ := PoolState.runs_iff_mem.mp runs
  have ended := List.all_eq_true.mp quiet process member
  rw [same] at ended
  cases ended

/-- The submission ends before the expiry selects, and the withdrawal is released. -/
theorem decisions_agree_sample :
    ∃ state : State, state.isQuiet = true ∧ state.shared.status? 1 = some .approved ∧
      state.DecisionsAgree := by
  obtain ⟨state, reached, quiet, released⟩ : ∃ state : State,
      (coSignDecisions sampleSettings).system.Reachable State.DecidingOnce state ∧
      state.isQuiet = true ∧ state.shared.status? 1 = some .approved :=
    exists_reachable sampleWaiting_initial
      ([sampleSubmit] ++ advances 0 4 ++ [sampleExpire] ++ advances 1 1) (by decide +kernel)
  exact ⟨state, quiet, released, decisions_agree reached⟩

/-- Both calls read the pending operation; the expiry marks it after the signature, and the
withdrawal is released. -/
theorem expired_and_released :
    ¬ ∀ settings (state : State),
      (coSignDecisions settings).system.Reachable Unrestricted state → state.DecisionsAgree := by
  intro always
  obtain ⟨state, reached, quiet, operation, inside, disagrees⟩ : ∃ state : State,
      (coSignDecisions sampleSettings).system.Reachable Unrestricted state ∧
      state.isQuiet = true ∧
        ∃ operation ∈ state.shared.operations, ¬ state.shared.Agrees operation :=
    exists_reachable sampleWaiting_initial
      ([sampleSubmit] ++ advances 0 1 ++ [sampleExpire] ++ advances 1 1 ++ advances 0 1 ++
        advances 1 1 ++ advances 0 2 ++ advances 1 2) (by decide +kernel)
  exact disagrees
    (always sampleSettings state reached operation inside (state.settled_of_isQuiet quiet _))

end CryptoVaultHub.Withdrawal
