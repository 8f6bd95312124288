import CryptoVaultHub.Sweep.BookkeepingSafety

/-!
# Deposits that are left behind

A deposit that was confirmed and is still on its forwarder can only move on if the next run of
`executeSweep` selects it or a transaction that it waits for is still followed by the reconciler.
`confirmed_deposits_recoverable` says what the steps have to avoid for this to stay so.
-/

namespace CryptoVaultHub.Sweep

open TransitionSystem List

variable {shared after : Shared} {hash : TxHash}

/-- The deposit is selected by `executeSweep`, or it waits for a transaction whose row of the gas
tank is still `submitted`. -/
def Shared.recoverable (shared : Shared) (row : Deposit) : Bool :=
  (row.status = .confirmed && row.sweepTxHash = none) ||
    (row.status = .sweepPending && row.sweepTxHash.any shared.isSubmitted)

/-- The deposit was confirmed once, and its funds are still on its forwarder. -/
def Shared.isDue (shared : Shared) (row : Deposit) : Bool :=
  row.wasConfirmed && shared.holds row.inflow

/-- No confirmed deposit is stranded. -/
@[reducible] def Shared.NoneStranded (shared : Shared) : Prop :=
  ∀ row ∈ shared.deposits, shared.isDue row = true → shared.recoverable row = true

/-! ## The condition -/

/-- One of the deposits is due. -/
def Shared.anyDue (shared : Shared) (ids : List Nat) : Bool :=
  ids.any fun id => (shared.deposits[id]?).any shared.isDue

/-- A due deposit waits for the transaction. -/
def Shared.isAwaited (shared : Shared) (hash : TxHash) : Bool :=
  shared.deposits.any fun row =>
    shared.isDue row && row.status = .sweepPending && row.sweepTxHash = some hash

/-- What a statement that takes effect has to avoid: a sweep marks due deposits as failed, or as
pending for a transaction that the reconciler does not follow, the reconciler gives up a transaction
that due deposits wait for, or its orphan pass finds the forwarder funded again. -/
def Process.retains (shared : Shared) : Process → Bool
  | .sweep ⟨_, _, .markFailed _ flush _⟩ => !shared.anyDue flush.depositIds
  | .sweep ⟨_, _, .markPending _ flush _ hash⟩ =>
    shared.isSubmitted hash || !shared.anyDue flush.depositIds
  | .reconcile (.timeOut row _) | .reconcile (.close row false _) => !shared.isAwaited row.txHash
  | .reconcile (.cascadeFailed hash _) => !shared.isAwaited hash
  | .reconcile (.adoptOrphans cascade _) =>
    cascade.cascaded.all fun tokenId => shared.balance cascade.forwarder tokenId = 0
  | .sweep _ | .reconcile _ => true

/-- The condition on the actions. -/
def State.retaining (state : State) : Action → Bool
  | .advance pid input =>
    (state.process? pid).all fun process =>
      input.ending = .failed || process.retains state.shared
  | .launch _ | .crash _ => true

@[reducible] def State.Retaining (state : State) (action : Action) : Prop :=
  State.retaining state action = true

/-! ## The invariant -/

/-- A row is not stranded, has no sweep hash while it is open, and was not confirmed yet while the
confirmation tracker changes it. -/
structure Shared.Recovers (shared : Shared) (row : Deposit) : Prop where
  unswept : row.status.isOpen = true → row.sweepTxHash = none
  unconfirmed : row.status.isUnconfirmed = true → row.wasConfirmed = false
  recoverable : shared.isDue row = true → shared.recoverable row = true

def Shared.Recovering (shared : Shared) : Prop := ∀ row ∈ shared.deposits, shared.Recovers row

theorem recoverable_iff {row : Deposit} : shared.recoverable row = true ↔
    (row.status = .confirmed ∧ row.sweepTxHash = none) ∨
      (row.status = .sweepPending ∧
        ∃ hash, row.sweepTxHash = some hash ∧ shared.isSubmitted hash = true) := by
  simp [Shared.recoverable, Option.any_eq_true]

/-- The rows stay, no inflow comes back, and what due deposits wait for is still followed. -/
theorem Shared.Recovering.frame (recovering : shared.Recovering)
    (deposits : after.deposits = shared.deposits)
    (held : ∀ row ∈ shared.deposits, after.holds row.inflow = true →
      shared.holds row.inflow = true)
    (submitted : ∀ row ∈ shared.deposits, shared.isDue row = true → row.status = .sweepPending →
      ∀ hash, row.sweepTxHash = some hash → shared.isSubmitted hash = true →
        after.isSubmitted hash = true) :
    after.Recovering := by
  intro row member
  rw [deposits] at member
  obtain ⟨unswept, unconfirmed, recoverable⟩ := recovering row member
  refine ⟨unswept, unconfirmed, ?_⟩
  intro due
  have dueBefore : shared.isDue row = true := by
    simp only [Shared.isDue, Bool.and_eq_true] at due ⊢
    exact ⟨due.1, held row member due.2⟩
  rcases recoverable_iff.mp (recoverable dueBefore) with selected | waits
  · exact recoverable_iff.mpr (.inl selected)
  · obtain ⟨status, hash, own, followed⟩ := waits
    exact recoverable_iff.mpr
      (.inr ⟨status, hash, own, submitted row member dueBefore status hash own followed⟩)

/-- What is shared outside the rows stays; each row that changes recovers. -/
theorem Shared.Recovering.updateDeposits {chosen : Nat → Deposit → Bool}
    {change : Deposit → Deposit} (recovering : shared.Recovering)
    (changed : ∀ id row, shared.deposits[id]? = some row → chosen id row = true →
      shared.Recovers (change row)) :
    (shared.updateDeposits chosen change).Recovering := by
  have each : ∀ row ∈ (shared.updateDeposits chosen change).deposits, shared.Recovers row := by
    intro later member
    obtain ⟨id, found⟩ := mem_iff_getElem?.mp member
    rw [getElem?_updateDeposits] at found
    obtain ⟨row, before, rfl⟩ := Option.map_eq_some_iff.mp found
    by_cases taken : chosen id row = true
    · rw [if_pos taken]
      exact changed id row before taken
    · rw [if_neg taken]
      exact recovering row (mem_of_getElem? before)
  exact fun row member => ⟨(each row member).unswept, (each row member).unconfirmed,
    (each row member).recoverable⟩

/-- A row that is not due recovers where it is neither open nor tracked. -/
theorem Recovers.of_not_due {row : Deposit} (closed : row.status.isOpen = false)
    (gone : shared.isDue row = false) : shared.Recovers row where
  unswept isOpen := by
    rw [closed] at isOpen
    cases isOpen
  unconfirmed unconfirmed := by
    cases status : row.status <;> rw [status] at closed unconfirmed <;> cases closed <;>
      cases unconfirmed
  recoverable due := by
    rw [gone] at due
    cases due

/-- A row of the gas tank that no due deposit waits for is closed. -/
theorem Shared.Recovering.close {closed : Nat} {status : GasTankStatus} {found : GasTankRow}
    (recovering : shared.Recovering) (there : shared.gasTank[closed]? = some found)
    (unawaited : ∀ row ∈ shared.deposits, shared.isDue row = true → row.status = .sweepPending →
      row.sweepTxHash ≠ some found.txHash) :
    (shared.closeGasTank closed status).Recovering := by
  refine recovering.frame rfl (fun _ _ held => held) ?_
  intro row member due waits hash own followed
  rw [Shared.isSubmitted, any_eq_true] at followed ⊢
  obtain ⟨gasRow, inside, own_and_open⟩ := followed
  obtain ⟨id, place⟩ := mem_iff_getElem?.mp inside
  simp only [Bool.and_eq_true, decide_eq_true_eq] at own_and_open
  have other : closed ≠ id := by
    intro same
    subst same
    cases there.symm.trans place
    exact unawaited row member due waits (own_and_open.1 ▸ own)
  refine ⟨gasRow, mem_of_getElem? (i := id) ?_, by simp [own_and_open]⟩
  rw [getElem?_closeGasTank, place, Option.map_some, if_neg other]

theorem isDue_of_anyDue {ids : List Nat} (none : shared.anyDue ids = false) {id : Nat}
    (member : id ∈ ids) {row : Deposit} (found : shared.deposits[id]? = some row) :
    shared.isDue row = false := by
  have gone := any_eq_false.mp none id member
  rw [found] at gone
  simpa using gone

theorem not_awaited (unawaited : shared.isAwaited hash = false) {row : Deposit}
    (member : row ∈ shared.deposits) (due : shared.isDue row = true)
    (status : row.status = .sweepPending) : row.sweepTxHash ≠ some hash := by
  intro own
  have other := any_eq_false.mp unawaited row member
  simp [due, status, own] at other

theorem Sweeper.statement_recovering {sweeper : Sweeper} {answer : Answer}
    (recovering : shared.Recovering) (retains : (Process.sweep sweeper).retains shared = true) :
    (sweeper.statement shared answer).after.Recovering := by
  obtain ⟨clientId, lockValue, point⟩ := sweeper
  cases point with
  | setLock =>
    simp only [Sweeper.statement]
    split
    · exact recovering
    · exact recovering.frame rfl (fun _ _ held => held) fun _ _ _ _ _ _ followed => followed
  | findDeposits | findChain | findGasTank | findTokens | findAddress | getCode | readBalance
  | resolveParentWallet | publish | getLock => exact recovering
  | submit visit flush rest =>
    simp only [Sweeper.statement]
    split
    · exact recovering
    · exact recovering.frame rfl (fun _ _ held => held) fun _ _ _ _ _ _ followed => followed
  | logSubmit visit flush rest hash =>
    refine recovering.frame rfl (fun _ _ held => held) ?_
    intro _ _ _ _ hash _ followed
    obtain ⟨found, member, own⟩ := any_eq_true.mp followed
    exact any_eq_true.mpr ⟨found, mem_append_left _ member, own⟩
  | markPending visit flush rest hash =>
    refine recovering.updateDeposits ?_
    intro id row found chosen
    rcases Bool.or_eq_true_iff.mp retains with followed | noneDue
    · refine ⟨by simp [DepositStatus.isOpen], by simp [DepositStatus.isUnconfirmed], ?_⟩
      exact fun _ => recoverable_iff.mpr (.inr ⟨rfl, hash, rfl, followed⟩)
    · have gone : shared.isDue row = false :=
        isDue_of_anyDue (Bool.not_eq_true' _ ▸ noneDue) (of_decide_eq_true chosen) found
      exact Recovers.of_not_due rfl gone
  | markFailed visit flush rest =>
    refine recovering.updateDeposits ?_
    intro id row found chosen
    have gone : shared.isDue row = false :=
      isDue_of_anyDue (Bool.not_eq_true' _ ▸ retains) (of_decide_eq_true chosen) found
    exact Recovers.of_not_due rfl gone
  | delLock => exact recovering.frame rfl (fun _ _ held => held) fun _ _ _ _ _ _ followed => followed

theorem ReconcilePoint.statement_recovering {point : ReconcilePoint} {answer : Answer}
    (consistent : shared.Consistent) (knows : point.Knows shared) (recovering : shared.Recovering)
    (retains : (Process.reconcile point).retains shared = true) :
    (point.statement shared answer).after.Recovering := by
  cases point with
  | findRows | getReceipt | findPending | findTokens | readBalance => exact recovering
  | timeOut row rest =>
    obtain ⟨found, there, same⟩ := knows row mem_cons_self
    refine recovering.close there ?_
    rw [same]
    exact fun _ => not_awaited (Bool.not_eq_true' _ ▸ retains)
  | close row ok rest =>
    obtain ⟨found, there, same⟩ := knows.1 row mem_cons_self
    refine recovering.close there ?_
    rw [same]
    cases ok with
    | false => exact fun _ => not_awaited (Bool.not_eq_true' _ ▸ retains)
    | true =>
      -- What waits for a successful transaction has left its forwarder.
      intro waiting member due status own
      obtain ⟨id, place⟩ := mem_iff_getElem?.mp member
      obtain ⟨hash, sameHash, sentFor⟩ := consistent.pending place status
      cases own.symm.trans sameHash
      have left := consistent.moved knows.2 sentFor place
      simp [Shared.isDue, left] at due
  | cascadeFailed hash rest =>
    refine recovering.updateDeposits ?_
    intro id row found chosen
    refine Recovers.of_not_due rfl (Bool.eq_false_iff.mpr ?_)
    intro due
    simp only [Bool.and_eq_true, decide_eq_true_eq] at chosen
    exact not_awaited (Bool.not_eq_true' _ ▸ retains) (mem_of_getElem? found) due chosen.2
      chosen.1
  | cascadeSwept cascade rest =>
    refine recovering.updateDeposits ?_
    intro id row found chosen
    simp only [Bool.and_eq_true, decide_eq_true_eq] at chosen
    have sentFor : shared.SentFor cascade.hash [id] := by
      intro other member
      rw [mem_singleton.mp member]
      exact knows.2.pending id (knows.2.safe id chosen.1)
    have left := consistent.moved knows.2.receipt sentFor found
    exact Recovers.of_not_due rfl (by simp [Shared.isDue, left])
  | adoptOrphans cascade rest =>
    refine recovering.updateDeposits ?_
    intro id row found chosen
    simp only [Bool.and_eq_true, decide_eq_true_eq] at chosen
    obtain ⟨inflow, there, sameForwarder, sameToken⟩ := consistent.inflow found
    have empty := of_decide_eq_true (all_eq_true.mp retains row.tokenId chosen.1.2)
    have left := holds_of_balance empty there (sameForwarder.trans chosen.1.1) sameToken
    exact Recovers.of_not_due rfl (by simp [Shared.isDue, left])

theorem start_recovering {begun : Start} {next : Option Process} (consistent : shared.Consistent)
    (recovering : shared.Recovering) (started : shared.start begun = some (after, next)) :
    after.Recovering := by
  have extended := (start_moves consistent started).1
  have held : ∀ row ∈ shared.deposits, after.holds row.inflow = true →
      shared.holds row.inflow = true := by
    intro row member
    obtain ⟨id, found⟩ := mem_iff_getElem?.mp member
    exact extended.holds (consistent.known found)
  cases begun with
  | sweep | reconcile | expireLock | deploy =>
    cases started
    exact recovering.frame rfl held fun _ _ _ _ _ _ followed => followed
  | pay forwarder tokenId amount =>
    simp only [Shared.start] at started
    split at started
    · cases started
      exact recovering.frame rfl held fun _ _ _ _ _ _ followed => followed
    · cases started
  | revert index =>
    simp only [Shared.start] at started
    split at started
    · cases started
      exact recovering.frame rfl held fun _ _ _ _ _ _ followed => followed
    · cases started
  | mine hash ok =>
    obtain ⟨mined, changed, same⟩ := Option.map_eq_some_iff.mp started
    cases same
    obtain ⟨_, _, _, deposits, _, gasTank, _⟩ := inflows_mine changed
    refine recovering.frame deposits held ?_
    intro _ _ _ _ _ _ followed
    rw [Shared.isSubmitted, gasTank]
    exact followed
  | insert clientId projectId index =>
    obtain ⟨inflow, found, same⟩ := Option.map_eq_some_iff.mp started
    cases same
    intro row member
    rcases mem_append.mp member with old | fresh
    · exact ⟨(recovering row old).unswept, (recovering row old).unconfirmed,
        (recovering row old).recoverable⟩
    · rw [mem_singleton.mp fresh]
      exact ⟨fun _ => rfl, fun _ => rfl, by simp [Shared.isDue]⟩
  | track id status =>
    simp only [Shared.start] at started
    split at started
    · rename_i tracked
      cases started
      refine recovering.updateDeposits ?_
      intro other row there chosen
      simp only [Bool.and_eq_true, decide_eq_true_eq] at chosen
      have own := recovering row (mem_of_getElem? there)
      have fresh := own.unconfirmed chosen.2
      have unswept : row.sweepTxHash = none := by
        refine own.unswept ?_
        cases was : row.status <;> rw [was] at chosen <;> simp_all [DepositStatus.isOpen,
          DepositStatus.isUnconfirmed]
      refine ⟨fun _ => unswept, ?_, ?_⟩
      · rcases tracked with rfl | rfl | rfl <;> simp [DepositStatus.isUnconfirmed, fresh]
      · intro due
        simp only [Shared.isDue, fresh, Bool.false_or, Bool.and_eq_true, decide_eq_true_eq] at due
        exact recoverable_iff.mpr (.inl ⟨due.1, unswept⟩)
    · cases started

/-- As long as every statement retains what is due, no confirmed deposit is stranded. -/
theorem confirmed_deposits_recoverable {state : State}
    (reached : services.system.Reachable State.Retaining state) : state.shared.NoneStranded := by
  have joint : bookkeeping.HoldsWith (fun state => state.shared.Recovering) state := by
    refine bookkeeping_covered reached ?_ ?_
    · intro shared initial row member
      rw [initial.2.2.2.1] at member
      cases member
    · intro before action later holds recovering allowed transition
      cases action with
      | launch begun =>
        obtain ⟨shared, process, started, rfl⟩ := ProcessPool.step_launch transition
        exact start_recovering holds.global recovering started
      | advance pid input =>
        obtain ⟨process, shared, next, running, moved, rfl⟩ :=
          ProcessPool.step_advance transition
        have knows : process.Knows before.shared := holds.locals pid process running
        have retains : input.ending = .failed ∨ process.retains before.shared = true := by
          simpa [State.Retaining, State.retaining, running] using allowed
        have performed := Option.some.inj moved
        obtain ⟨rfl, effective⟩ | ⟨_, rfl, _⟩ := Statement.perform_cases performed
        · have took : input.ending ≠ .failed := Statement.ne_failed effective
          cases process with
          | sweep sweeper =>
            exact Sweeper.statement_recovering recovering (retains.resolve_left took)
          | reconcile point =>
            exact ReconcilePoint.statement_recovering holds.global knows recovering
              (retains.resolve_left took)
        · exact recovering
      | crash pid =>
        obtain ⟨process, running, rfl⟩ := ProcessPool.step_crash transition
        exact recovering
  exact fun row member => (joint.covered row member).recoverable

/-- The deposit is swept and reconciled. -/
theorem confirmed_deposits_recoverable_sample :
    ∃ state : State, (state.shared.deposits.map Deposit.status) = [.swept] ∧
      state.shared.NoneStranded := by
  obtain ⟨state, reached, swept⟩ : ∃ state, services.system.Reachable State.Retaining state ∧
      (state.shared.deposits.map Deposit.status) = [.swept] :=
    exists_reachable sampleSweep_initial
      (samplePayment ++ sampleSubmission ++ List.replicate 6 (sampleMove 3 .done) ++
        [.launch (.mine 100 true), .launch .reconcile] ++ List.replicate 8 (sampleMove 5 .done))
      (by decide +kernel)
  exact ⟨state, swept, confirmed_deposits_recoverable reached⟩

/-- The submission fails, and `sweep_failed` is a status that no later run selects. -/
theorem failed_submission_strands :
    ¬ ∀ state : State, services.system.Reachable Unrestricted state →
      state.shared.NoneStranded := by
  intro always
  obtain ⟨state, reached, stranded⟩ : ∃ state, services.system.Reachable Unrestricted state ∧
      ¬ state.shared.NoneStranded :=
    exists_reachable sampleSweep_initial
      (samplePayment ++ sampleSubmission ++ [sampleMove 3 .failed] ++
        List.replicate 3 (sampleMove 3 .done)) (by decide +kernel)
  exact stranded (always state reached)

end CryptoVaultHub.Sweep
