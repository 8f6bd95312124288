import CryptoVaultHub.Sweep.FleetBookkeeping

/-!
# The order of statuses

A deposit that was given to a sweep should not go back. The reconciler and the reconciliation after a
deployment update rows by their status; the tracker and the bookkeeping of a submission update them
by id. `statuses_advance` says what those updates have to find.
-/

namespace CryptoVaultHub.Sweep

open TransitionSystem

variable {shared after : Shared} {fleet : Fleet}

/-- How far a deposit is. A sweep that failed is no further than one that waits. -/
def DepositStatus.rank : DepositStatus → Nat
  | .pending => 0
  | .detected => 1
  | .confirming => 2
  | .confirmed | .reverted => 3
  | .sweepPending | .sweepFailed => 4
  | .swept => 5

/-- The statuses later than `confirmed`. -/
def DepositStatus.isPast (status : DepositStatus) : Bool := DepositStatus.confirmed.rank < status.rank

/-- No deposit that is past `confirmed` has gone back. -/
def Shared.Advances (shared after : Shared) : Prop :=
  ∀ (id : Nat) (row : Deposit), shared.deposits[id]? = some row → row.status.isPast = true →
    ∃ later : Deposit, after.deposits[id]? = some later ∧ row.status.rank ≤ later.status.rank

/-! ## The condition -/

/-- The deposits, if they are there, are still no further than the status. -/
def Shared.within (shared : Shared) (ids : List Nat) (status : DepositStatus) : Bool :=
  ids.all fun id => (shared.deposits[id]?).all fun row => row.status.rank ≤ status.rank

/-- What an update by id has to find: the tracker a deposit that no sweep was given, the bookkeeping
of a submission deposits that are not swept. -/
def FleetProcess.finds (fleet : Fleet) : FleetProcess → Bool
  | .track (.update id _ _) => fleet.shared.within [id] .confirmed
  | .base (.sweep ⟨_, _, .markPending _ flush _ _⟩)
  | .base (.sweep ⟨_, _, .markFailed _ flush _⟩) =>
    fleet.shared.within flush.depositIds .sweepPending
  | .base _ | .track _ | .deploy _ | .close _ => true

theorem Shared.Advances.of_deposits (same : after.deposits = shared.deposits) :
    shared.Advances after :=
  fun _ row found _ => ⟨row, same ▸ found, Nat.le_refl _⟩

theorem Shared.Advances.trans {last : Shared} (first : shared.Advances after)
    (second : after.Advances last) : shared.Advances last := by
  intro id row found past
  obtain ⟨later, there, further⟩ := first id row found past
  have still : later.status.isPast = true := by
    simp only [DepositStatus.isPast, decide_eq_true_eq] at past ⊢
    omega
  obtain ⟨final, here, furthest⟩ := second id later there still
  exact ⟨final, here, Nat.le_trans further furthest⟩

/-- An update that takes no deposit back. -/
theorem Shared.Advances.updateDeposits {chosen : Nat → Deposit → Bool}
    {change : Deposit → Deposit}
    (further : ∀ id row, shared.deposits[id]? = some row → chosen id row = true →
      row.status.isPast = true → row.status.rank ≤ (change row).status.rank) :
    shared.Advances (shared.updateDeposits chosen change) := by
  intro id row found past
  refine ⟨_, by rw [getElem?_updateDeposits, found, Option.map_some], ?_⟩
  by_cases taken : chosen id row = true
  · rw [if_pos taken]
    exact further id row found taken past
  · rw [if_neg taken]

/-- A row that an update by id finds. -/
theorem rank_of_within {ids : List Nat} {status : DepositStatus} {id : Nat} {row : Deposit}
    (within : shared.within ids status = true) (member : id ∈ ids)
    (found : shared.deposits[id]? = some row) : row.status.rank ≤ status.rank := by
  have each := List.all_eq_true.mp within id member
  simpa [found] using each

theorem not_isPast_of_isOpen {status : DepositStatus} (isOpen : status.isOpen = true) :
    status.isPast = false := by
  cases status <;> first | rfl | cases isOpen

theorem Sweeper.statement_advances {sweeper : Sweeper} {answer : Answer}
    (finds : (FleetProcess.base (.sweep sweeper)).finds fleet = true) :
    fleet.shared.Advances (sweeper.statement fleet.shared answer).after := by
  obtain ⟨clientId, lockValue, point⟩ := sweeper
  cases point with
  | setLock | submit =>
    simp only [Sweeper.statement]
    split
    · exact .of_deposits rfl
    · exact .of_deposits rfl
  | findDeposits | findChain | findGasTank | findTokens | findAddress | getCode | readBalance
  | resolveParentWallet | logSubmit | publish | getLock | delLock => exact .of_deposits rfl
  | markPending visit flush rest hash =>
    refine .updateDeposits ?_
    intro id row found chosen _
    exact rank_of_within finds (of_decide_eq_true chosen) found
  | markFailed visit flush rest =>
    refine .updateDeposits ?_
    intro id row found chosen _
    exact rank_of_within finds (of_decide_eq_true chosen) found

/-- The reconciler takes rows that wait for their sweep, or that no sweep was given. -/
theorem ReconcilePoint.statement_advances (point : ReconcilePoint) (answer : Answer) :
    shared.Advances (point.statement shared answer).after := by
  cases point with
  | findRows | getReceipt | timeOut | close | findPending | findTokens | readBalance =>
    exact .of_deposits rfl
  | cascadeFailed hash rest =>
    refine .updateDeposits ?_
    intro id row _ chosen _
    simp only [Bool.and_eq_true, decide_eq_true_eq] at chosen
    simp [chosen.2, DepositStatus.rank]
  | cascadeSwept cascade rest =>
    refine .updateDeposits ?_
    intro id row _ chosen _
    simp only [Bool.and_eq_true, decide_eq_true_eq] at chosen
    simp [chosen.2, DepositStatus.rank]
  | adoptOrphans cascade rest =>
    refine .updateDeposits ?_
    intro id row _ chosen past
    simp only [Bool.and_eq_true] at chosen
    rw [not_isPast_of_isOpen chosen.2] at past
    cases past

theorem Fleet.baseStatement_advances {process : Process} {answer : Answer}
    (finds : (FleetProcess.base process).finds fleet = true) :
    fleet.shared.Advances (fleet.baseStatement process answer).after := by
  simp only [Fleet.baseStatement]
  split
  · exact .of_deposits rfl
  · cases process with
    | sweep sweeper => exact Sweeper.statement_advances finds
    | reconcile point => exact ReconcilePoint.statement_advances point answer

theorem FleetProcess.statement_advances {process : FleetProcess} {answer : FleetAnswer}
    (finds : process.finds fleet = true) :
    fleet.shared.Advances (process.statement fleet answer).after.shared := by
  cases process with
  | base process => exact Fleet.baseStatement_advances finds
  | track point =>
    cases point with
    | select | getBlockNumber | getReceipt | publish => exact .of_deposits rfl
    | update id verdict rest =>
      refine Shared.Advances.updateDeposits ?_
      intro other row found chosen past
      have rank := rank_of_within finds (List.mem_singleton.mpr (of_decide_eq_true chosen)) found
      simp only [DepositStatus.isPast, decide_eq_true_eq] at past
      omega
  | deploy point =>
    cases point with
    | submit row rest =>
      simp only [FleetProcess.statement, Statement.map, DeployPoint.statement]
      split
      · exact .of_deposits rfl
      · exact .of_deposits rfl
    | reconcile row rest hash =>
      refine Shared.Advances.updateDeposits ?_
      intro id deposit _ chosen past
      simp only [Fleet.taken, Bool.and_eq_true] at chosen
      rw [not_isPast_of_isOpen chosen.1.1.2] at past
      cases past
    | findUndeployed | groupDeposits | findChain | findWallets | getCode | markFound | logSubmit
    | markDeployed | getBalance | findNative => exact .of_deposits rfl
  | close point => cases point <;> exact .of_deposits rfl

/-- Two deposits, of which a tick of the tracker confirms the first and not yet the second. -/
def sampleDeposits : List FleetAction :=
  [.launch (.base (.pay 7 1 5)), .launch (.base (.insert 1 0 0)), .launch (.base (.pay 7 1 3)),
    .launch (.base (.insert 1 0 1)), .launch .track] ++
  List.replicate 5 (sampleStep 4 .confirmed) ++ List.replicate 3 (sampleStep 4 .confirming)

end CryptoVaultHub.Sweep
