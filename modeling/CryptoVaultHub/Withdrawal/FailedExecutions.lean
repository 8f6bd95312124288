import CryptoVaultHub.Withdrawal.SingleBroadcast

/-!
# Executions that fail

An execution takes a withdrawal from 'approved' to 'broadcasting' before it does
anything else, so one that fails has to give it back. The statements inside the
`try` block reach a handler that does: the reads of the token and the wallet, the
calls of the chain and of the key vault, the encoders (all at `prepare`), the
broadcast and its record. The reading of the claimed row, the whole path of the
gas tank and the handler itself stand outside of it. `Handled` is the condition
on runs that none of those fails for a withdrawal that is left to wait.
-/

namespace CryptoVaultHub.Withdrawal

open TransitionSystem

/-- The withdrawal a process has claimed and neither recorded nor given back. -/
def Process.holding : Process → Option WithdrawalId
  | .execute attempt .load => some attempt.id
  | .execute attempt (.prepare _) => some attempt.id
  | .execute attempt (.broadcast _ _) => some attempt.id
  | .execute attempt (.record _ _ _) => some attempt.id
  | .execute attempt .caught => some attempt.id
  | .execute attempt (.gasSubmit _) => some attempt.id
  | .execute attempt (.gasRecord _ _) => some attempt.id
  | _ => none

/-- The withdrawal whose execution a process continues with its next step; a claim begins
one if the withdrawal is 'approved'. -/
def Process.executing (shared : Shared) : Process → Option WithdrawalId
  | .execute attempt .claim =>
    if shared.status? attempt.id = some .approved then some attempt.id else none
  | process => process.holding

/-- The row of a withdrawal has a transaction hash, is 'approved' again or 'failed'. -/
def WithdrawalRow.settled (row : WithdrawalRow) : Bool :=
  row.txHash.isSome || row.status = .approved || row.status = .failed

def Shared.settled (shared : Shared) (id : WithdrawalId) : Bool :=
  (shared.find? id).all WithdrawalRow.settled

/-- A withdrawal is 'broadcasting' without a transaction hash. -/
def Shared.unrecorded (shared : Shared) (id : WithdrawalId) : Bool :=
  (shared.find? id).any fun row => row.status = .broadcasting && row.txHash.isNone

/-- The process that an action moves or stops. -/
def acting : Action → Option Nat
  | .launch _ => none
  | .advance pid _ | .crash pid => some pid

/-- An execution that an action ends leaves its withdrawal settled. -/
def Restores (state : State) (action : Action) (after : State) : Prop :=
  ∀ pid process id, acting action = some pid → state.process? pid = some process →
    process.executing state.shared = some id →
    (∀ later, after.process? pid = some later → later.holding ≠ some id) →
    after.shared.settled id = true

/-- Every withdrawal that is 'broadcasting' without a transaction hash is being executed. -/
def Attended (state : State) : Prop :=
  ∀ id, state.shared.unrecorded id = true → state.Runs fun process => process.holding = some id

/-- The withdrawal of a process whose next statement ends the execution by a failure that
no handler takes. -/
def Process.unhandled (input : Input) : Process → Option WithdrawalId
  | .execute attempt .load => if input.outcome = .done then none else some attempt.id
  | .execute attempt .caught => if input.outcome = .failed then some attempt.id else none
  | .execute attempt (.gasSubmit _) =>
    match input.outcome, input.answer with
    | .done, .txHash _ => none
    | _, _ => some attempt.id
  | .execute attempt (.gasRecord _ _) =>
    if input.outcome = .failed then some attempt.id else none
  | _ => none

/-- A claim that has its effect is answered, or the withdrawal has a hash. -/
def Process.claimAnswered (shared : Shared) (input : Input) : Process → Bool
  | .execute attempt .claim =>
    input.outcome ≠ .lost || (shared.find? attempt.id).all fun row =>
      row.status ≠ .approved || row.txHash.isSome
  | _ => true

/-- Failures that no handler takes, and crashes, find the withdrawal settled. -/
def Handled (state : State) : Action → Bool
  | .launch _ => true
  | .advance pid input =>
    (state.process? pid).all fun process =>
      (process.unhandled input).all state.shared.settled &&
        process.claimAnswered state.shared input
  | .crash pid =>
    (state.process? pid).all fun process => process.holding.all state.shared.settled

/-! ## Rows -/

variable {shared after : Shared} {id : WithdrawalId}

/-- The status and the transaction hash are what a row says of its execution. -/
theorem settled_iff : shared.settled id = true ↔
    ∀ row, shared.find? id = some row →
      row.txHash.isSome = true ∨ row.status = .approved ∨ row.status = .failed := by
  simp only [Shared.settled, WithdrawalRow.settled, Option.all_eq_true, Bool.or_eq_true,
    decide_eq_true_eq, or_assoc]

theorem unrecorded_iff : shared.unrecorded id = true ↔
    ∃ row, shared.find? id = some row ∧ row.status = .broadcasting ∧ row.txHash = none := by
  simp only [Shared.unrecorded, Option.any_eq_true, Bool.and_eq_true, decide_eq_true_eq,
    Option.isNone_iff_eq_none]

/-- A settled withdrawal does not wait. -/
theorem not_unrecorded_of_settled (settled : shared.settled id = true) :
    shared.unrecorded id = false := by
  by_contra waiting
  obtain ⟨row, found, status, unhashed⟩ := unrecorded_iff.mp (Bool.eq_true_of_not_eq_false waiting)
  obtain hashed | approved | failed := settled_iff.mp settled row found
  · simp [unhashed] at hashed
  · simp [status] at approved
  · simp [status] at failed

/-- A withdrawal that an unguarded update gives back is settled. -/
theorem settled_setStatus {status : Status} (given : status = .approved ∨ status = .failed)
    (applied : (Write.setStatus id status none).apply shared = some after) :
    after.settled id = true := by
  cases applied
  rw [settled_iff, Shared.find?_updateRow]
  · intro row found
    obtain ⟨old, _, rfl⟩ := Option.map_eq_some_iff.mp found
    right
    simpa [WithdrawalRow.matches] using given
  · intro row
    split <;> rfl

/-- A withdrawal whose hash is recorded is settled. -/
theorem settled_setTransaction {txHash : String} {sequenceId : Option Nat}
    (applied : (Write.setTransaction id txHash sequenceId).apply shared = some after) :
    after.settled id = true := by
  cases applied
  rw [settled_iff, Shared.find?_updateRow]
  · intro row found
    obtain ⟨old, _, rfl⟩ := Option.map_eq_some_iff.mp found
    simp
  · exact fun _ => rfl

/-- A claim leaves its withdrawal settled only if it had a hash already. -/
theorem settled_claim {row : WithdrawalRow} (found : shared.find? id = some row)
    (approved : row.status = .approved)
    (applied : (Write.setStatus id .broadcasting (some .approved)).apply shared = some after) :
    after.settled id = row.txHash.isSome := by
  cases applied
  rw [Shared.settled, Shared.find?_updateRow]
  · simp [found, WithdrawalRow.matches, approved, WithdrawalRow.settled]
  · intro row
    split <;> rfl

/-- A broadcast changes no row. -/
theorem settled_broadcast {sent : Broadcast}
    (applied : (Write.broadcast sent).apply shared = some after) :
    after.settled id = shared.settled id := by
  cases applied
  rfl

/-- Only a claim makes a withdrawal wait. -/
theorem unrecorded_apply {write : Write} (applied : write.apply shared = some after)
    (waiting : after.unrecorded id = true) :
    shared.unrecorded id = true ∨ ∃ expected row, write = .setStatus id .broadcasting expected ∧
      shared.find? id = some row ∧ row.matches expected = true := by
  obtain ⟨row, found, status, unhashed⟩ := unrecorded_iff.mp waiting
  cases write with
  | setStatus updated value expected =>
    cases applied
    rw [Shared.find?_updateRow] at found
    · obtain ⟨old, present, rfl⟩ := Option.map_eq_some_iff.mp found
      split at status
      · rename_i same
        subst same
        split at status
        · rename_i fits
          right
          exact ⟨expected, old, by rw [← status], present, fits⟩
        · rename_i unlike
          left
          exact unrecorded_iff.mpr ⟨old, present, status, by simpa [unlike] using unhashed⟩
      · rename_i other
        left
        exact unrecorded_iff.mpr ⟨old, present, status, by simpa [other] using unhashed⟩
    · intro row
      split <;> rfl
  | setTransaction updated txHash sequenceId =>
    cases applied
    rw [Shared.find?_updateRow] at found
    · obtain ⟨old, present, rfl⟩ := Option.map_eq_some_iff.mp found
      split at status
      · rename_i same
        simp [same] at unhashed
      · rename_i other
        left
        exact unrecorded_iff.mpr ⟨old, present, status, by simpa [other] using unhashed⟩
    · exact fun _ => rfl
  | insertOperation operation =>
    simp only [Write.apply] at applied
    split at applied
    · cases applied
    · cases applied
      exact Or.inl waiting
  | skip | signOperation | expireOperation | broadcast | addExecute | addConfirm | completeJob
  | failJob | completeConfirm | failConfirm =>
    cases applied
    exact Or.inl waiting

variable {process : Option Process}

/-- A new withdrawal does not wait. -/
theorem unrecorded_of_start {begun : Start} (started : start shared begun = some (after, process))
    (waiting : after.unrecorded id = true) : shared.unrecorded id = true := by
  obtain ⟨request, status, absent, fresh, rfl⟩ | ⟨same, _, _⟩ := start_cases started
  · obtain ⟨row, found, broadcasting, unhashed⟩ := unrecorded_iff.mp waiting
    rw [find?_append id absent] at found
    split at found
    · cases found
      obtain rfl | rfl := fresh <;> cases broadcasting
    · exact unrecorded_iff.mpr ⟨row, found, broadcasting, unhashed⟩
  · rwa [Shared.unrecorded, Shared.find?, same] at waiting

/-! ## Steps -/

theorem settled_of_approved (approved : shared.status? id = some .approved) :
    shared.settled id = true := by
  rw [settled_iff]
  intro row found
  rw [Shared.status?, found] at approved
  exact Or.inr (Or.inl (Option.some.inj approved))

/-- An execution is one that a process holds, or that its claim begins. -/
theorem executing_cases {process : Process} (executes : process.executing shared = some id) :
    process.holding = some id ∨
      ∃ attempt, process = .execute attempt .claim ∧ attempt.id = id ∧
        shared.status? id = some .approved := by
  unfold Process.executing at executes
  split at executes
  · split at executes
    · rename_i approved
      cases executes
      exact Or.inr ⟨_, rfl, rfl, approved⟩
    · cases executes
  · exact Or.inl executes

/-- What a process holds it executes. -/
theorem executing_of_holding {process : Process} (holds : process.holding = some id) :
    process.executing shared = some id := by
  unfold Process.executing
  split
  · cases holds
  · exact holds

/-- A process that executes nothing has no failure to handle. -/
theorem handled_of_idle {process : Process} {input : Input}
    (idle : process.executing shared = none) :
    ((process.unhandled input).all shared.settled && process.claimAnswered shared input) =
      true := by
  unfold Process.executing at idle
  split at idle
  · rename_i attempt
    split at idle
    · cases idle
    · rename_i unlike
      suffices answered : (Process.execute attempt .claim).claimAnswered shared input = true by
        rw [answered]
        rfl
      rw [Process.claimAnswered, Bool.or_eq_true, Option.all_eq_true]
      right
      intro row found
      have other : row.status ≠ .approved := by
        rintro approved
        exact unlike (by rw [Shared.status?, found, ← approved]; rfl)
      simp [other]
  · unfold Process.holding at idle
    split at idle <;> cases idle
    unfold Process.unhandled Process.claimAnswered
    split <;> split <;> simp_all

/-- A process that goes on holding the withdrawal has not ended its execution. -/
theorem ended_iff_of_held {later : Process} {Settled : Prop} {allowed : Bool}
    (goes : process = some later) (holds : later.holding = some id) (handled : allowed = true) :
    ((∀ other, process = some other → other.holding ≠ some id) → Settled) ↔ allowed = true :=
  iff_of_true (fun ends => absurd holds (ends later goes)) handled

/-- A failure that changes nothing leaves the withdrawal settled if it was. -/
theorem ended_iff_of_failed {attempt : Attempt} (goes : process = some (.execute attempt .fail))
    (same : after.settled attempt.id = shared.settled attempt.id) :
    ((∀ other, process = some other → other.holding ≠ some attempt.id) →
        after.settled attempt.id = true) ↔
      ((some attempt.id).all shared.settled && true) = true := by
  rw [Bool.and_true, Option.all_some, same]
  refine forall_prop_of_true ?_
  rintro other continued holds
  cases goes.symm.trans continued
  cases holds

section Points

variable {settings : Settings} {attempt : Attempt} {input : Input} {process : Option Process}

/-- A failure of the first read after the claim ends the execution. -/
theorem ended_iff_load
    (performed : Performed shared
      ((Process.execute attempt .load).step settings shared input.answer) input.outcome after
      process) :
    ((∀ later, process = some later → later.holding ≠ some attempt.id) →
        after.settled attempt.id = true) ↔
      (((Process.execute attempt .load).unhandled input).all shared.settled && true) = true := by
  cases performed with
  | done answered applied =>
    cases applied
    simp only [Process.unhandled, answered, if_true]
    cases found : shared.find? attempt.id with
    | none =>
      refine iff_of_true (fun _ => ?_) rfl
      simp [Shared.settled, found]
    | some row =>
      simp only [Process.step, executeWithdrawal, found]
      cases row.request.sourceWallet <;> exact ended_iff_of_held rfl rfl rfl
  | thrown raised =>
    obtain failed | raised := raised
    · simp only [Process.unhandled, failed, reduceCtorEq, if_false]
      exact ended_iff_of_failed rfl rfl
    · cases raised
  | lost unanswered applied =>
    cases applied
    simp only [Process.unhandled, unanswered, reduceCtorEq, if_false]
    exact ended_iff_of_failed rfl rfl

/-- Inside the `try` block every failure before the record reaches the handler. -/
theorem ended_iff_tries {point : ExecutePoint}
    (inside : (∃ request, point = .prepare request) ∨
      ∃ request transaction, point = .broadcast request transaction)
    (performed : Performed shared ((Process.execute attempt point).step settings shared
      input.answer) input.outcome after process) :
    ((∀ later, process = some later → later.holding ≠ some attempt.id) →
        after.settled attempt.id = true) ↔
      (((Process.execute attempt point).unhandled input).all shared.settled && true) = true := by
  have held : ∃ later, process = some later ∧ later.holding = some attempt.id := by
    obtain ⟨next, _⟩ | thrown := performed.process_cases
    · rw [next]
      obtain ⟨request, rfl⟩ | ⟨request, transaction, rfl⟩ := inside
      · simp only [Process.step, executeWithdrawal]
        split
        · split <;> exact ⟨_, rfl, rfl⟩
        · exact ⟨_, rfl, rfl⟩
      · simp only [Process.step, executeWithdrawal]
        split <;> exact ⟨_, rfl, rfl⟩
    · rw [thrown]
      obtain ⟨request, rfl⟩ | ⟨request, transaction, rfl⟩ := inside <;> exact ⟨_, rfl, rfl⟩
  obtain ⟨later, goes, holds⟩ := held
  refine ended_iff_of_held goes holds ?_
  obtain ⟨request, rfl⟩ | ⟨request, transaction, rfl⟩ := inside <;> rfl

/-- A broadcast that is recorded is settled, and one that is not reaches the handler. -/
theorem ended_iff_record {request : Request} {transaction : Transaction} {txHash : String}
    (performed : Performed shared ((Process.execute attempt (.record request transaction
      txHash)).step settings shared input.answer) input.outcome after process) :
    ((∀ later, process = some later → later.holding ≠ some attempt.id) →
        after.settled attempt.id = true) ↔
      (((Process.execute attempt (.record request transaction txHash)).unhandled input).all
        shared.settled && true) = true := by
  cases performed with
  | done answered applied => exact iff_of_true (fun _ => settled_setTransaction applied) rfl
  | thrown raised => exact ended_iff_of_held rfl rfl rfl
  | lost unanswered applied => exact ended_iff_of_held rfl rfl rfl

/-- The handler gives the withdrawal back by one update. -/
theorem ended_iff_caught
    (performed : Performed shared ((Process.execute attempt .caught).step settings shared
      input.answer) input.outcome after process) :
    ((∀ later, process = some later → later.holding ≠ some attempt.id) →
        after.settled attempt.id = true) ↔
      (((Process.execute attempt .caught).unhandled input).all shared.settled && true) = true := by
  have given : (if attempt.isFinal then Status.failed else .approved) = .approved ∨
      (if attempt.isFinal then Status.failed else .approved) = .failed := by
    cases attempt.isFinal <;> simp
  cases performed with
  | done answered applied =>
    simp only [Process.unhandled, answered, reduceCtorEq, if_false]
    exact iff_of_true (fun _ => settled_setStatus given applied) rfl
  | thrown raised =>
    obtain failed | raised := raised
    · simp only [Process.unhandled, failed, if_true]
      exact ended_iff_of_failed rfl rfl
    · cases raised
  | lost unanswered applied =>
    simp only [Process.unhandled, unanswered, reduceCtorEq, if_false]
    exact iff_of_true (fun _ => settled_setStatus given applied) rfl

/-- A submission from the gas tank that fails ends the execution. -/
theorem ended_iff_gasSubmit {request : Request}
    (performed : Performed shared ((Process.execute attempt (.gasSubmit request)).step settings
      shared input.answer) input.outcome after process) :
    ((∀ later, process = some later → later.holding ≠ some attempt.id) →
        after.settled attempt.id = true) ↔
      (((Process.execute attempt (.gasSubmit request)).unhandled input).all shared.settled &&
        true) = true := by
  cases performed with
  | done answered applied =>
    cases applied
    simp only [Process.step, executeWithdrawal, Process.unhandled, answered]
    cases input.answer with
    | txHash hash => exact ended_iff_of_held rfl rfl rfl
    | nothing | coSign | worker | receipt => exact ended_iff_of_failed rfl rfl
  | thrown raised =>
    obtain failed | raised := raised
    · simp only [Process.unhandled, failed]
      exact ended_iff_of_failed rfl rfl
    · cases raised
  | lost unanswered applied =>
    simp only [Process.unhandled, unanswered]
    exact ended_iff_of_failed rfl (settled_broadcast applied)

/-- The hash of a transaction from the gas tank is recorded, or the execution ends
without it. -/
theorem ended_iff_gasRecord {request : Request} {txHash : String}
    (performed : Performed shared ((Process.execute attempt (.gasRecord request txHash)).step
      settings shared input.answer) input.outcome after process) :
    ((∀ later, process = some later → later.holding ≠ some attempt.id) →
        after.settled attempt.id = true) ↔
      (((Process.execute attempt (.gasRecord request txHash)).unhandled input).all
        shared.settled && true) = true := by
  cases performed with
  | done answered applied =>
    simp only [Process.unhandled, answered, reduceCtorEq, if_false]
    exact iff_of_true (fun _ => settled_setTransaction applied) rfl
  | thrown raised =>
    obtain failed | raised := raised
    · simp only [Process.unhandled, failed, if_true]
      exact ended_iff_of_failed rfl rfl
    · cases raised
  | lost unanswered applied =>
    simp only [Process.unhandled, unanswered, reduceCtorEq, if_false]
    exact iff_of_true (fun _ => settled_setTransaction applied) rfl

/-- A claim begins the execution, has no effect, or is not answered. -/
theorem ended_iff_claim (approved : shared.status? attempt.id = some .approved)
    (performed : Performed shared ((Process.execute attempt .claim).step settings shared
      input.answer) input.outcome after process) :
    ((∀ later, process = some later → later.holding ≠ some attempt.id) →
        after.settled attempt.id = true) ↔
      (Process.execute attempt .claim).claimAnswered shared input = true := by
  cases performed with
  | done answered applied =>
    simp only [Process.step, executeWithdrawal, approved, if_true]
    exact ended_iff_of_held rfl rfl (by simp [Process.claimAnswered, answered])
  | thrown raised =>
    obtain failed | raised := raised
    · exact iff_of_true (fun _ => settled_of_approved approved)
        (by simp [Process.claimAnswered, failed])
    · cases raised
  | lost unanswered applied =>
    obtain ⟨row, found, status⟩ := Option.map_eq_some_iff.mp approved
    rw [settled_claim found status applied]
    have answered : (Process.execute attempt .claim).claimAnswered shared input =
        row.txHash.isSome := by
      simp [Process.claimAnswered, unanswered, found, status]
    rw [answered]
    refine forall_prop_of_true ?_
    rintro other continued holds
    cases continued
    cases holds

end Points

variable {settings : Settings}

/-- A step that ends an execution leaves the withdrawal settled iff its failure is handled. -/
theorem ended_iff {before : Process} {input : Input}
    (performed : Performed shared (before.step settings shared input.answer) input.outcome after
      process) (executes : before.executing shared = some id) :
    ((∀ later, process = some later → later.holding ≠ some id) → after.settled id = true) ↔
      ((before.unhandled input).all shared.settled && before.claimAnswered shared input) =
        true := by
  obtain holds | ⟨attempt, rfl, rfl, approved⟩ := executing_cases executes
  · unfold Process.holding at holds
    split at holds <;> cases holds
    · exact ended_iff_load performed
    · exact ended_iff_tries (Or.inl ⟨_, rfl⟩) performed
    · exact ended_iff_tries (Or.inr ⟨_, _, rfl⟩) performed
    · exact ended_iff_record performed
    · exact ended_iff_caught performed
    · exact ended_iff_gasSubmit performed
    · exact ended_iff_gasRecord performed
  · exact ended_iff_claim approved performed

/-- A step restores the withdrawal whose execution it ends exactly if its failure is handled. -/
theorem restores_iff {state next : State} {action : Action}
    (transition : (services settings).system.step state action = some next) :
    Restores state action next ↔ Handled state action = true := by
  cases action with
  | launch begun => exact iff_of_true (fun _ _ _ moves => by cases moves) rfl
  | advance pid input =>
    obtain ⟨before, shared, process, running, moved, rfl⟩ := ProcessPool.step_advance transition
    have performed := perform_cases moved
    simp only [Handled, running, Option.all_some]
    cases executes : before.executing state.shared with
    | none =>
      refine iff_of_true ?_ (handled_of_idle executes)
      rintro _ other id ⟨rfl⟩ found other
      cases running.symm.trans found
      rw [executes] at other
      cases other
    | some id =>
      rw [← ended_iff performed executes]
      constructor
      · intro restores ends
        refine restores pid before id rfl running executes fun later continues => ?_
        rw [PoolState.process?_update_self running] at continues
        exact ends later continues
      · rintro settles _ other held ⟨rfl⟩ found own ends
        cases running.symm.trans found
        cases executes.symm.trans own
        refine settles fun later continues => ends later ?_
        rw [PoolState.process?_update_self running, continues]
  | crash pid =>
    obtain ⟨before, running, rfl⟩ := ProcessPool.step_crash transition
    simp only [Handled, running, Option.all_some, Option.all_eq_true]
    constructor
    · intro restores id holds
      refine restores pid before id rfl running (executing_of_holding holds) ?_
      intro later continues
      rw [PoolState.process?_update_self running] at continues
      cases continues
    · rintro settled _ other id ⟨rfl⟩ found executes _
      cases running.symm.trans found
      obtain holds | ⟨attempt, rfl, rfl, approved⟩ := executing_cases executes
      · exact settled id holds
      · exact settled_of_approved approved

/-! ## Runs -/

/-- A withdrawal that comes to wait by a step was executed or claimed by it. -/
theorem executing_of_unrecorded {state : State} {pid : Nat} {before : Process} {input : Input}
    (attended : Attended state) (running : state.process? pid = some before)
    (moved : (services settings).next state.shared before input = some (after, process))
    (waiting : after.unrecorded id = true) :
    before.executing state.shared = some id ∨
      (state.update after pid process).Runs fun other => other.holding = some id := by
  have kept : state.shared.unrecorded id = true ∨ before.executing state.shared = some id := by
    obtain rfl | ⟨_, applied⟩ := (perform_cases moved).shared_cases
    · exact Or.inl waiting
    · obtain already | ⟨expected, row, write, found, fits⟩ := unrecorded_apply applied waiting
      · exact Or.inl already
      · right
        cases statusUpdate_of_write write with
        | claim attempt =>
          have approved : state.shared.status? attempt.id = some .approved := by
            rw [Shared.status?, found]
            simpa [WithdrawalRow.matches] using fits
          simp [Process.executing, approved]
  obtain already | executes := kept
  · obtain holds | held := (attended id already).update_cases running after process
    · exact Or.inl (executing_of_holding holds)
    · exact Or.inr held
  · exact Or.inl executes

/-- What a step leaves waiting is being executed. -/
theorem attended_step {state next : State} {action : Action} (attended : Attended state)
    (restores : Restores state action next)
    (transition : (services settings).system.step state action = some next) : Attended next := by
  intro id waiting
  cases action with
  | launch begun =>
    obtain ⟨shared, process, started, rfl⟩ := ProcessPool.step_launch transition
    exact (attended id (unrecorded_of_start started waiting)).spawn shared process
  | advance pid input =>
    obtain ⟨before, shared, process, running, moved, rfl⟩ := ProcessPool.step_advance transition
    obtain executes | held := executing_of_unrecorded attended running moved waiting
    · by_contra unattended
      have settled := restores pid before id rfl running executes fun later continues holds =>
        unattended ⟨pid, later, continues, holds⟩
      rw [not_unrecorded_of_settled settled] at waiting
      cases waiting
    · exact held
  | crash pid =>
    obtain ⟨before, running, rfl⟩ := ProcessPool.step_crash transition
    obtain holds | held := (attended id waiting).update_cases running state.shared none
    · have settled := restores pid before id rfl running (executing_of_holding holds) (by
        intro later continues
        rw [PoolState.process?_update_self running] at continues
        cases continues)
      rw [PoolState.shared_update] at settled waiting
      rw [not_unrecorded_of_settled settled] at waiting
      cases waiting
    · exact held

/-- In every run of handled failures a withdrawal is 'broadcasting' without a hash only while it is
executed; and a step restores the withdrawal whose execution it ends if and only if it is
handled. -/
theorem failed_executions_restored_iff (settings : Settings) (state : State)
    (reached : (services settings).system.Reachable
      (fun state action => Handled state action = true) state) :
    Attended state ∧ ∀ action next, (services settings).system.step state action = some next →
      (Restores state action next ↔ Handled state action = true) := by
  refine ⟨?_, fun action next transition => restores_iff transition⟩
  refine reached.invariant ?_ ?_
  · rintro ⟨shared, processes⟩ ⟨rfl, _⟩ id waiting
    simp [Shared.unrecorded, Shared.find?, Shared.initial] at waiting
  · intro state action next attended allowed transition
    exact attended_step attended ((restores_iff transition).mpr allowed) transition

/-- Withdrawal 1 from the gas tank of its client. -/
def gasTankRequest : Request := { sampleRequest 1 with sourceWallet := .gasTank }

/-- Withdrawal 1 is approved and polled, and process 3 executes it up to its submission. -/
def gasTankClaimed (request : Request) : List Action :=
  [.launch (.create request false), .launch (.approve 1 1)] ++ advances 1 2 ++
    [.launch .poll] ++ advances 2 4 ++ advances 1 1 ++ [.launch (.execute 1)] ++ advances 3 2

/-- A hot wallet execution whose calls fail puts the withdrawal back. -/
theorem failed_executions_restored_sample :
    ∃ state : State, state.shared.status? 1 = some .approved ∧ Attended state ∧
      ∀ action next, (services sampleSettings).system.step state action = some next →
        (Restores state action next ↔ Handled state action = true) := by
  obtain ⟨state, reached, passed⟩ : ∃ state, (services sampleSettings).system.Reachable
      (fun state action => Handled state action = true) state ∧
        state.shared.status? 1 = some .approved :=
    exists_reachable (idleState_initial sampleSettings)
      (gasTankClaimed (sampleRequest 1) ++ [.advance 3 ⟨.failed, .nothing⟩] ++ advances 3 2) (by decide +kernel)
  exact ⟨state, passed,
    failed_executions_restored_iff sampleSettings state reached⟩

/-- The submission from the gas tank fails, and neither retry can claim the withdrawal. -/
def gasTankFails : List Action :=
  gasTankClaimed gasTankRequest ++ [.advance 3 ⟨.failed, .nothing⟩] ++ advances 3 1 ++
    [.launch (.promote 1), .launch (.execute 1)] ++ advances 5 2

/-- No process stops and no statement has an effect that it does not report. -/
def answered : Action → Bool
  | .launch _ => true
  | .advance _ input => input.outcome ≠ .lost
  | .crash _ => false

/-- A withdrawal from the gas tank stays 'broadcasting' without a transaction hash. -/
theorem failed_execution_not_restored :
    ¬ ∀ (settings : Settings) (state : State),
      (services settings).system.Reachable (fun _ action => answered action = true) state →
        Attended state := by
  intro attended
  obtain ⟨state, reached, waiting, idle⟩ : ∃ state, (services sampleSettings).system.Reachable
      (fun _ action => answered action = true) state ∧
        state.shared.unrecorded 1 = true ∧
          state.processes.all Option.isNone = true :=
    exists_reachable (idleState_initial sampleSettings) gasTankFails (by decide +kernel)
  obtain ⟨process, member, running, rfl, _⟩ :=
    PoolState.runs_iff_mem.mp (attended sampleSettings state reached 1 waiting)
  have ended := List.all_eq_true.mp idle _ member
  cases ended

end CryptoVaultHub.Withdrawal
