import CryptoVaultHub.Sweep.BookkeepingSafety

/-!
# Exclusion of sweeps

A run of `executeSweep` takes the lock of its client first and releases it with a GET and a DEL at
the end. The lock expires after five minutes whether or not the run has ended, and the timeout of a
pair abandons the run without stopping it. `locked_sweeps_exclusive` says that expiry while the
lock is needed is all that can break the exclusion.
-/

namespace CryptoVaultHub.Sweep

open TransitionSystem List Option

variable {shared after : Shared}

/-- The points at which a run works on the deposits of its client. -/
def SweepPoint.isProcessing : SweepPoint → Bool
  | .setLock | .getLock | .delLock => false
  | .findDeposits | .findChain _ | .findGasTank _ | .findTokens _ | .findAddress _ | .getCode _
  | .readBalance .. | .resolveParentWallet .. | .submit .. | .logSubmit .. | .markPending ..
  | .publish .. | .markFailed .. => true

/-- The points that rely on the lock. -/
def SweepPoint.needsLock (point : SweepPoint) : Bool := point.isProcessing || point = .delLock

/-- A run that works on the deposits of the client. -/
def Process.isProcessing (clientId : ClientId) : Process → Bool
  | .sweep sweeper => sweeper.clientId = clientId && sweeper.point.isProcessing
  | .reconcile _ => false

/-- A run that relies on the lock of the client. -/
def Process.needsLock (clientId : ClientId) : Process → Bool
  | .sweep sweeper => sweeper.clientId = clientId && sweeper.point.needsLock
  | .reconcile _ => false

/-- At most one run works on the deposits of a client, and a run that is about to delete the lock of
its client finds no other run's. -/
structure State.Exclusive (state : State) : Prop where
  alone : ∀ clientId first second left right,
    state.process? first = some left → state.process? second = some right →
    left.isProcessing clientId = true → right.isProcessing clientId = true → first = second
  deletesOwn : ∀ pid sweeper, state.process? pid = some (.sweep sweeper) →
    sweeper.point = .delLock →
    ∀ lock ∈ state.shared.locks, lock.1 = sweeper.clientId → lock.2 = sweeper.lockValue

/-- The condition on the actions: a lock does not expire under a run that relies on it. -/
def State.keepsLocks (state : State) : Action → Bool
  | .launch (.expireLock clientId) => state.every fun _ process => !process.needsLock clientId
  | .launch _ | .advance .. | .crash _ => true

@[reducible] def State.KeepsLocks (state : State) (action : Action) : Prop :=
  State.keepsLocks state action = true

/-! ## The steps -/

/-- The key and the value of a run. -/
def Sweeper.lock (sweeper : Sweeper) : ClientId × Nat := (sweeper.clientId, sweeper.lockValue)

/-- What one operation does to the locks: nothing, or it takes a free one, or it deletes the one of
its client. A run relies on its lock only after it relied on it already, or once it is there. -/
structure Sweeper.Locks (sweeper : Sweeper) (shared after : Shared) (next : Option Sweeper) :
    Prop where
  drawn : after.drawn = shared.drawn
  locks : after.locks = shared.locks ∨
    ((∀ lock ∈ shared.locks, lock.1 ≠ sweeper.clientId) ∧
      after.locks = sweeper.lock :: shared.locks) ∨
    (sweeper.point = .delLock ∧
      after.locks = shared.locks.filter fun lock => lock.1 ≠ sweeper.clientId)
  same : ∀ later, next = some later → later.lock = sweeper.lock
  relies : ∀ later, next = some later → later.point.needsLock = true →
    (sweeper.point.needsLock = true ∧ after.locks = shared.locks) ∨ sweeper.lock ∈ after.locks

variable {ending : Ending} {next : Option Sweeper}

/-- A statement of the body leaves the locks alone. -/
theorem Sweeper.Locks.of_unchanged {sweeper : Sweeper} {statement : Statement Shared Sweeper}
    (needs : sweeper.point.needsLock = true) (drawn : statement.after.drawn = shared.drawn)
    (locks : statement.after.locks = shared.locks)
    (continues : ∀ later, statement.next = some later → later.lock = sweeper.lock)
    (throws : ∀ later, statement.thrown = some later → later.lock = sweeper.lock)
    (performed : statement.perform shared ending = (after, next)) :
    sweeper.Locks shared after next := by
  have unchanged : after.drawn = shared.drawn ∧ after.locks = shared.locks :=
    Statement.perform_shared (fun state => state.drawn = shared.drawn ∧ state.locks = shared.locks)
      performed ⟨rfl, rfl⟩ ⟨drawn, locks⟩
  refine ⟨unchanged.1, .inl unchanged.2, ?_, fun _ _ _ => .inl ⟨needs, unchanged.2⟩⟩
  intro later found
  obtain ⟨_, ⟨_, rfl⟩ | ⟨_, rfl⟩⟩ | ⟨_, _, rfl⟩ := Statement.perform_cases performed
  · exact continues later found
  · exact throws later found
  · exact throws later found

/-- A run that goes on keeps its key and its value. -/
theorem Sweeper.lock_goTo {sweeper later : Sweeper} {point : SweepPoint}
    (found : sweeper.goTo point = some later) : later.lock = sweeper.lock := by
  cases found
  rfl

variable {answer : Answer}

theorem Sweeper.perform_locks {sweeper : Sweeper}
    (performed : (sweeper.statement shared answer).perform shared ending = (after, next)) :
    sweeper.Locks shared after next := by
  obtain ⟨clientId, lockValue, point⟩ := sweeper
  cases point with
  | setLock =>
    simp only [Sweeper.statement] at performed
    by_cases taken : (shared.locks.any fun lock => lock.1 = clientId) = true
    · rw [if_pos taken] at performed
      cases ending <;> cases performed <;> exact ⟨rfl, .inl rfl, by simp, by simp⟩
    · rw [if_neg taken] at performed
      have free : ∀ lock ∈ shared.locks, lock.1 ≠ clientId := fun lock member same =>
        taken (any_eq_true.mpr ⟨lock, member, decide_eq_true same⟩)
      cases ending with
      | done =>
        cases performed
        refine ⟨rfl, .inr (.inl ⟨free, rfl⟩), fun _ => Sweeper.lock_goTo, ?_⟩
        exact fun _ _ _ => .inr mem_cons_self
      | failed =>
        cases performed
        exact ⟨rfl, .inl rfl, by simp, by simp⟩
      | lost =>
        cases performed
        exact ⟨rfl, .inr (.inl ⟨free, rfl⟩), by simp, by simp⟩
  | findDeposits | findChain | findGasTank | findTokens | findAddress | getCode | readBalance
  | resolveParentWallet | logSubmit | markPending | publish | markFailed =>
    exact .of_unchanged rfl rfl rfl (fun _ => Sweeper.lock_goTo) (fun _ => Sweeper.lock_goTo)
      performed
  | submit visit flush rest =>
    simp only [Sweeper.statement] at performed
    split at performed
    · exact .of_unchanged rfl rfl rfl (fun _ => Sweeper.lock_goTo) (fun _ => Sweeper.lock_goTo)
        performed
    · exact .of_unchanged rfl rfl rfl (fun _ => Sweeper.lock_goTo) (fun _ => Sweeper.lock_goTo)
        performed
  | getLock =>
    simp only [Sweeper.statement] at performed
    by_cases own : (clientId, lockValue) ∈ shared.locks
    · rw [if_pos own] at performed
      cases ending with
      | done =>
        cases performed
        exact ⟨rfl, .inl rfl, fun _ => Sweeper.lock_goTo, fun _ _ _ => .inr own⟩
      | failed | lost =>
        cases performed
        exact ⟨rfl, .inl rfl, by simp, by simp⟩
    · rw [if_neg own] at performed
      cases ending <;> cases performed <;> exact ⟨rfl, .inl rfl, by simp, by simp⟩
  | delLock =>
    cases ending with
    | done | lost =>
      cases performed
      exact ⟨rfl, .inr (.inr ⟨rfl, rfl⟩), by simp [Sweeper.statement],
        by simp [Sweeper.statement]⟩
    | failed =>
      cases performed
      exact ⟨rfl, .inl rfl, by simp [Sweeper.statement], by simp [Sweeper.statement]⟩

/-- The reconciler has nothing to do with the locks. -/
theorem ReconcilePoint.statement_locks {point : ReconcilePoint} :
    (point.statement shared answer).after.locks = shared.locks ∧
      (point.statement shared answer).after.drawn = shared.drawn := by
  cases point <;> exact ⟨rfl, rfl⟩

/-! ## The invariant -/

/-- No two values for one key. -/
def Shared.UniqueLocks (shared : Shared) : Prop :=
  ∀ first ∈ shared.locks, ∀ second ∈ shared.locks, first.1 = second.1 → first = second

/-- A run that relies on its lock has it, and its value was drawn. -/
def Process.HasLock (shared : Shared) : Process → Prop
  | .sweep sweeper => sweeper.lockValue < shared.drawn ∧
      (sweeper.point.needsLock = true → sweeper.lock ∈ shared.locks)
  | .reconcile _ => True

/-- No two runs have drawn the same value. -/
def Process.DrawnApart : Process → Process → Prop
  | .sweep first, .sweep second => first.lockValue ≠ second.lockValue
  | .sweep _, .reconcile _ | .reconcile _, .sweep _ | .reconcile _, .reconcile _ => True

def exclusion : ProofOutline Shared Process where
  Global := Shared.UniqueLocks
  Local := Process.HasLock
  Apart := Process.DrawnApart
  apart_symm := by
    intro first second apart
    cases first with
    | sweep _ =>
      cases second with
      | sweep _ => exact Ne.symm apart
      | reconcile _ => trivial
    | reconcile _ => cases second <;> trivial

/-- A process keeps its lock while the locks that it may rely on stay. -/
theorem Process.HasLock.frame {process : Process} (has : process.HasLock shared)
    (drawn : shared.drawn ≤ after.drawn)
    (kept : ∀ clientId, process.needsLock clientId = true →
      ∀ lock ∈ shared.locks, lock.1 = clientId → lock ∈ after.locks) :
    process.HasLock after := by
  cases process with
  | sweep sweeper =>
    refine ⟨Nat.lt_of_lt_of_le has.1 drawn, ?_⟩
    intro needs
    exact kept sweeper.clientId (by simp [Process.needsLock, needs]) _ (has.2 needs) rfl
  | reconcile _ => trivial

variable {state : State}

theorem start_exclusion {begun : Start} {process : Option Process} (holds : exclusion.Holds state)
    (allowed : State.KeepsLocks state (.launch begun))
    (started : state.shared.start begun = some (after, process)) :
    exclusion.Keeps state state.processes.length after process := by
  have unchanged : after.locks = state.shared.locks → after.drawn = state.shared.drawn →
      process = none ∨ process = some (.reconcile .findRows) →
      exclusion.Keeps state state.processes.length after process := by
    intro locks drawn fresh
    refine ⟨?_, ?_, ?_, ?_⟩
    · intro first inside second member
      rw [locks] at inside member
      exact holds.global first inside second member
    · rintro point rfl
      rcases fresh with none | reconciles
      · cases none
      · cases reconciles
        trivial
    · intro other point _ running
      refine Process.HasLock.frame (holds.locals other point running) (Nat.le_of_eq drawn.symm) ?_
      intro _ _ lock member _
      rwa [locks]
    · rintro point other right rfl _ _
      rcases fresh with none | reconciles
      · cases none
      · cases reconciles
        cases right <;> trivial
  cases begun with
  | sweep clientId =>
    cases started
    refine ⟨holds.global, ?_, ?_, ?_⟩
    · rintro point same
      cases same
      exact ⟨Nat.lt_succ_self _, by simp [SweepPoint.needsLock, SweepPoint.isProcessing]⟩
    · intro other point _ running
      exact Process.HasLock.frame (holds.locals other point running) (Nat.le_succ _)
        fun _ _ _ member _ => member
    · intro point other right same _ running
      cases same
      cases right with
      | sweep sweeper =>
        have drawn : Process.HasLock state.shared (.sweep sweeper) :=
          holds.locals other _ running
        exact Nat.ne_of_gt drawn.1
      | reconcile _ => trivial
  | expireLock clientId =>
    cases started
    refine ⟨?_, by simp, ?_, by simp⟩
    · intro first inside second member
      exact holds.global first (mem_of_mem_filter inside) second
        (mem_of_mem_filter member)
    · intro other point _ running
      refine Process.HasLock.frame (holds.locals other point running) (Nat.le_refl _) ?_
      intro owner needs lock member own
      refine mem_filter.mpr ⟨member, ?_⟩
      have unneeded := PoolState.every_apply allowed running
      simp only [Bool.not_eq_true'] at unneeded
      refine decide_eq_true ?_
      intro same
      rw [← same, own, needs] at unneeded
      cases unneeded
  | reconcile =>
    cases started
    exact unchanged rfl rfl (.inr rfl)
  | deploy forwarder =>
    cases started
    exact unchanged rfl rfl (.inl rfl)
  | pay | revert | track =>
    simp only [Shared.start] at started
    split at started
    · cases started
      exact unchanged rfl rfl (.inl rfl)
    · cases started
  | mine hash ok =>
    obtain ⟨mined, changed, same⟩ := map_eq_some_iff.mp started
    cases same
    obtain ⟨tx, _, taken⟩ := bind_eq_some_iff.mp changed
    split at taken
    · cases taken
    · cases taken
      exact unchanged rfl rfl (.inl rfl)
  | insert clientId projectId index =>
    obtain ⟨inflow, found, same⟩ := map_eq_some_iff.mp started
    cases same
    exact unchanged rfl rfl (.inl rfl)

/-- Two different runs that rely on their locks have different clients. -/
theorem clients_apart (holds : exclusion.Holds state) {first second : Nat} {left right : Sweeper}
    (different : first ≠ second) (leftRuns : state.process? first = some (.sweep left))
    (rightRuns : state.process? second = some (.sweep right))
    (leftNeeds : left.point.needsLock = true) (rightNeeds : right.point.needsLock = true) :
    left.clientId ≠ right.clientId := by
  have leftHas : Process.HasLock state.shared (.sweep left) := holds.locals first _ leftRuns
  have rightHas : Process.HasLock state.shared (.sweep right) := holds.locals second _ rightRuns
  have apart : left.lockValue ≠ right.lockValue :=
    holds.apart first second _ _ different leftRuns rightRuns
  intro same
  have equal := holds.global _ (leftHas.2 leftNeeds) _ (rightHas.2 rightNeeds) same
  exact apart (congrArg Prod.snd equal)

/-- A statement of the reconciler keeps the exclusion. -/
theorem ReconcilePoint.keeps_exclusion {pid : Nat} {point : ReconcilePoint}
    {next : Option ReconcilePoint} (holds : exclusion.Holds state)
    (performed : (point.statement state.shared answer).perform state.shared ending = (after, next)) :
    exclusion.Keeps state pid after (next.map .reconcile) := by
  obtain ⟨locks, drawn⟩ : after.locks = state.shared.locks ∧ after.drawn = state.shared.drawn :=
    Statement.perform_shared
      (fun later => later.locks = state.shared.locks ∧ later.drawn = state.shared.drawn)
      performed ⟨rfl, rfl⟩ statement_locks
  refine ⟨?_, ?_, ?_, ?_⟩
  · intro first inside second member
    rw [locks] at inside member
    exact holds.global first inside second member
  · intro later found
    obtain ⟨_, _, rfl⟩ := map_eq_some_iff.mp found
    trivial
  · intro other later _ running
    refine Process.HasLock.frame (holds.locals other later running) (Nat.le_of_eq drawn.symm) ?_
    intro _ _ lock member _
    rwa [locks]
  · intro later other right found _ _
    obtain ⟨_, _, rfl⟩ := map_eq_some_iff.mp found
    cases right <;> trivial

/-- A statement of a run keeps the exclusion: it takes a lock that no run has, and it deletes a
lock that no other run relies on. -/
theorem Sweeper.keeps_exclusion {pid : Nat} {sweeper : Sweeper} (holds : exclusion.Holds state)
    (running : state.process? pid = some (.sweep sweeper))
    (performed : (sweeper.statement state.shared answer).perform state.shared ending =
      (after, next)) : exclusion.Keeps state pid after (next.map .sweep) := by
  obtain ⟨drawn, locks, same, relies⟩ := Sweeper.perform_locks performed
  have has : Process.HasLock state.shared (.sweep sweeper) := holds.locals pid _ running
  refine ⟨?_, ?_, ?_, ?_⟩
  · rcases locks with unchanged | ⟨free, taken⟩ | ⟨_, deleted⟩
    · intro first inside second member
      rw [unchanged] at inside member
      exact holds.global first inside second member
    · intro first inside second member equal
      rw [taken] at inside member
      rcases mem_cons.mp inside with rfl | inside
      · rcases mem_cons.mp member with rfl | member
        · rfl
        · exact absurd equal.symm (free second member)
      · rcases mem_cons.mp member with rfl | member
        · exact absurd equal (free first inside)
        · exact holds.global first inside second member equal
    · intro first inside second member
      rw [deleted] at inside member
      exact holds.global first (mem_of_mem_filter inside) second
        (mem_of_mem_filter member)
  · intro point found
    obtain ⟨later, goesOn, rfl⟩ := map_eq_some_iff.mp found
    have kept : later.lock = sweeper.lock := same later goesOn
    refine ⟨?_, ?_⟩
    · rw [drawn, show later.lockValue = sweeper.lockValue from congrArg Prod.snd kept]
      exact has.1
    · intro needs
      rw [kept]
      rcases relies later goesOn needs with ⟨needed, unchanged⟩ | there
      · rw [unchanged]
        exact has.2 needed
      · exact there
  · intro other point different otherRuns
    refine Process.HasLock.frame (holds.locals other point otherRuns) (Nat.le_of_eq drawn.symm) ?_
    intro clientId needs lock member own
    rcases locks with unchanged | ⟨_, taken⟩ | ⟨deletes, deleted⟩
    · rwa [unchanged]
    · rw [taken]
      exact mem_cons_of_mem _ member
    · rw [deleted]
      refine mem_filter.mpr ⟨member, decide_eq_true ?_⟩
      cases point with
      | reconcile _ => simp [Process.needsLock] at needs
      | sweep right =>
        simp only [Process.needsLock, Bool.and_eq_true, decide_eq_true_eq] at needs
        rw [own, ← needs.1]
        exact clients_apart holds different otherRuns running needs.2
          (by simp [deletes, SweepPoint.needsLock])
  · intro point other right found different otherRuns
    obtain ⟨later, goesOn, rfl⟩ := map_eq_some_iff.mp found
    cases right with
    | reconcile _ => trivial
    | sweep right =>
      have apart : sweeper.lockValue ≠ right.lockValue :=
        holds.apart pid other _ _ different.symm running otherRuns
      have kept : later.lockValue = sweeper.lockValue :=
        congrArg Prod.snd (same later goesOn)
      exact fun equal => apart (kept.symm.trans equal)

/-- As long as no lock expires under a run that relies on it, at most one run works on the deposits
of a client, and no run deletes the lock of another one. -/
theorem locked_sweeps_exclusive {state : State}
    (reached : services.system.Reachable State.KeepsLocks state) : state.Exclusive := by
  have holds : exclusion.Holds state := by
    refine ProofOutline.reachable reached ?_ ?_ ?_
    · intro shared initial first inside
      rw [initial.2.2.2.2.2] at inside
      cases inside
    · exact fun _ _ _ _ holds allowed started => start_exclusion holds allowed started
    · intro before pid process input shared next holds _ running moved
      cases process with
      | sweep sweeper =>
        obtain ⟨later, performed, rfl⟩ := Statement.perform_map (Option.some.inj moved)
        exact Sweeper.keeps_exclusion holds running performed
      | reconcile point =>
        obtain ⟨later, performed, rfl⟩ := Statement.perform_map (Option.some.inj moved)
        exact ReconcilePoint.keeps_exclusion holds performed
  refine ⟨?_, ?_⟩
  · intro clientId first second left right leftRuns rightRuns leftWorks rightWorks
    by_contra different
    cases left with
    | reconcile _ => cases leftWorks
    | sweep left =>
      cases right with
      | reconcile _ => cases rightWorks
      | sweep right =>
        simp only [Process.isProcessing, Bool.and_eq_true, decide_eq_true_eq] at leftWorks
        simp only [Process.isProcessing, Bool.and_eq_true, decide_eq_true_eq] at rightWorks
        refine clients_apart holds different leftRuns rightRuns ?_ ?_
          (leftWorks.1.trans rightWorks.1.symm)
        · simp [SweepPoint.needsLock, leftWorks.2]
        · simp [SweepPoint.needsLock, rightWorks.2]
  · intro pid sweeper running deletes lock member own
    have has : Process.HasLock state.shared (.sweep sweeper) := holds.locals pid _ running
    have there : sweeper.lock ∈ state.shared.locks :=
      has.2 (by simp [deletes, SweepPoint.needsLock])
    exact congrArg Prod.snd (holds.global lock member _ there own)

/-- A second run finds the lock of the first one. -/
theorem locked_sweeps_exclusive_sample :
    ∃ state : State, state.shared.locks = [(1, 0)] ∧ state.process? 1 = none ∧
      state.Exclusive := by
  obtain ⟨state, reached, locks, ended⟩ : ∃ state,
      services.system.Reachable State.KeepsLocks state ∧
      state.shared.locks = [(1, 0)] ∧ state.process? 1 = none :=
    exists_reachable sampleSweep_initial
      [.launch (.sweep 1), .launch (.sweep 1), sampleMove 0 .done, sampleMove 1 .done]
      (by decide +kernel)
  exact ⟨state, locks, ended, locked_sweeps_exclusive reached⟩

/-- The lock expires between its GET and its DEL, and the DEL finds the lock of a second run. -/
theorem expired_lock_deleted :
    ¬ ∀ state : State, services.system.Reachable Unrestricted state → state.Exclusive := by
  intro always
  obtain ⟨state, reached, deletes, other⟩ : ∃ state, services.system.Reachable Unrestricted state ∧
      state.process? 0 = some (.sweep ⟨1, 0, .delLock⟩) ∧
        (1, 1) ∈ state.shared.locks :=
    exists_reachable sampleSweep_initial
      ([.launch (.sweep 1), .launch (.sweep 1)] ++ List.replicate 3 (sampleMove 0 .done) ++
        [.launch (.expireLock 1), sampleMove 1 .done]) (by decide +kernel)
  have own : (1 : Nat) = 0 := (always state reached).deletesOwn 0 _ deletes rfl (1, 1) other rfl
  cases own

end CryptoVaultHub.Sweep
