import CryptoVaultHub.Semantics.Execution

/-!
# Pools of sequential processes over one shared state

Each process is a program point with its local values. `ProcessPool.next` runs
one atomic operation of a process, `ProcessPool.start` lets the environment
begin a process or change the shared state, and a process can stop at any
point. A pool therefore interleaves any number of processes in any order.

`ProofOutline` is the proof outline of such a pool: a property of the shared
state, one of each process, and one of each pair of processes.
`ProofOutline.reachable` reduces its invariance to the obligations of a single
operation: the acting process re-establishes its own assertion and interferes
with no other assertion. `ProofOutline.reachable_with` carries a property of the
whole pool along, such as the existence of a process at some point.
-/

namespace CryptoVaultHub

/-- The atomic operations of a pool. A finished process has no next point. -/
structure ProcessPool (Shared Process Input Start : Type) where
  Initial : Shared → Prop
  next : Shared → Process → Input → Option (Shared × Option Process)
  start : Shared → Start → Option (Shared × Option Process)

/-- A pool in progress; the position of a process is its identity. -/
structure PoolState (Shared Process : Type) where
  shared : Shared
  processes : List (Option Process)

/-- What can happen next in a pool. -/
inductive PoolAction (Input Start : Type) where
  | launch (start : Start)
  | advance (pid : Nat) (input : Input)
  | crash (pid : Nat)

variable {Shared Process Input Start : Type}

namespace PoolState

/-- The point a process has reached, if it is still running. -/
def process? (state : PoolState Shared Process) (pid : Nat) : Option Process :=
  (state.processes[pid]?).join

/-- Replace the shared state and the point of one process. -/
def update (state : PoolState Shared Process) (shared : Shared) (pid : Nat)
    (process : Option Process) : PoolState Shared Process :=
  ⟨shared, state.processes.set pid process⟩

/-- Replace the shared state and add a process. -/
def spawn (state : PoolState Shared Process) (shared : Shared) (process : Option Process) :
    PoolState Shared Process :=
  ⟨shared, state.processes ++ [process]⟩

@[simp] theorem shared_update (state : PoolState Shared Process) (shared : Shared) (pid : Nat)
    (process : Option Process) : (state.update shared pid process).shared = shared := rfl

@[simp] theorem shared_spawn (state : PoolState Shared Process) (shared : Shared)
    (process : Option Process) : (state.spawn shared process).shared = shared := rfl

variable {state : PoolState Shared Process} {pid : Nat}

/-- A running process occupies a position of the pool. -/
theorem lt_of_process? {process : Process} (found : state.process? pid = some process) :
    pid < state.processes.length := by
  unfold process? at found
  cases entry : state.processes[pid]? with
  | none => simp [entry] at found
  | some _ => exact (List.getElem?_eq_some_iff.mp entry).1

/-- The updated process is at its new point. -/
theorem process?_update_self {state : PoolState Shared Process} {shared : Shared} {pid : Nat}
    {before : Process} {process : Option Process} (found : state.process? pid = some before) :
    (state.update shared pid process).process? pid = process := by
  have within := lt_of_process? found
  simp [process?, update, within]

variable {shared : Shared} {process : Option Process}

/-- Updating one process leaves every other at its point. -/
theorem process?_update_of_ne {pid other : Nat} (different : other ≠ pid) :
    (state.update shared pid process).process? other = state.process? other := by
  simp [process?, update, List.getElem?_set_ne different.symm]

/-- A process of an extended pool was there before or is the new one. -/
theorem process?_spawn {found : Process}
    (running : (state.spawn shared process).process? pid = some found) :
    state.process? pid = some found ∨
      (pid = state.processes.length ∧ process = some found) := by
  unfold process? spawn at running
  obtain before | same | after := Nat.lt_trichotomy pid state.processes.length
  · left
    simpa [process?, List.getElem?_append_left before] using running
  · right
    subst same
    simpa using running
  · have beyond : (state.processes ++ [process])[pid]? = none := by
      simp
      omega
    simp [beyond] at running

/-- Extending a pool keeps every process that was running. -/
theorem process?_spawn_of_running {found : Process} (running : state.process? pid = some found) :
    (state.spawn shared process).process? pid = some found := by
  have within := lt_of_process? running
  simpa [process?, spawn, List.getElem?_append_left within] using running

/-- Some running process has a property. -/
def Runs (state : PoolState Shared Process) (Property : Process → Prop) : Prop :=
  ∃ pid process, state.process? pid = some process ∧ Property process

variable {Property : Process → Prop}

theorem runs_iff_mem :
    state.Runs Property ↔ ∃ process ∈ state.processes, ∃ running ∈ process, Property running := by
  constructor
  · rintro ⟨pid, running, found, property⟩
    have entry : state.processes[pid]? = some (some running) := Option.join_eq_some_iff.mp found
    exact ⟨_, List.mem_of_getElem? entry, running, rfl, property⟩
  · rintro ⟨process, member, running, rfl, property⟩
    obtain ⟨pid, entry⟩ := List.getElem?_of_mem member
    refine ⟨pid, running, ?_, property⟩
    rw [process?, entry, Option.join_some]

theorem Runs.spawn (runs : state.Runs Property) (shared : Shared) (process : Option Process) :
    (state.spawn shared process).Runs Property := by
  obtain ⟨pid, running, found, property⟩ := runs
  exact ⟨pid, running, process?_spawn_of_running found, property⟩

/-- A process with the property stays when another is updated. -/
theorem Runs.update_cases {before : Process} (runs : state.Runs Property)
    (found : state.process? pid = some before) (shared : Shared) (process : Option Process) :
    Property before ∨ (state.update shared pid process).Runs Property := by
  obtain ⟨other, running, foundOther, property⟩ := runs
  by_cases same : other = pid
  · subst same
    cases found.symm.trans foundOther
    exact .inl property
  · right
    refine ⟨other, running, ?_, property⟩
    rw [process?_update_of_ne same, foundOther]

/-- Some process keeps the property when the updated one does. -/
theorem Runs.update_of {before : Process} (runs : state.Runs Property)
    (found : state.process? pid = some before)
    (kept : Property before → ∃ later, process = some later ∧ Property later) :
    (state.update shared pid process).Runs Property := by
  obtain property | other := runs.update_cases found shared process
  · obtain ⟨later, goes, property⟩ := kept property
    exact ⟨pid, later, (process?_update_self found).trans goes, property⟩
  · exact other

/-- A process with the property in an updated pool is the updated one, or was there before. -/
theorem runs_of_update {before : Process} (found : state.process? pid = some before)
    (runs : (state.update shared pid process).Runs Property) :
    (∃ later, process = some later ∧ Property later) ∨
      ∃ other running, other ≠ pid ∧ state.process? other = some running ∧ Property running := by
  obtain ⟨other, running, foundOther, property⟩ := runs
  by_cases same : other = pid
  · subst same
    rw [process?_update_self found] at foundOther
    exact .inl ⟨running, foundOther, property⟩
  · rw [process?_update_of_ne same] at foundOther
    exact .inr ⟨other, running, same, foundOther, property⟩

/-- A process with the property in an extended pool is the new one, or was there before. -/
theorem runs_of_spawn (runs : (state.spawn shared process).Runs Property) :
    (∃ begun, process = some begun ∧ Property begun) ∨ state.Runs Property := by
  obtain ⟨pid, running, found, property⟩ := runs
  obtain old | ⟨_, begun⟩ := process?_spawn found
  · exact .inr ⟨pid, running, old, property⟩
  · exact .inl ⟨running, begun, property⟩

theorem runs_update {before later : Process} (found : state.process? pid = some before)
    (property : Property later) (shared : Shared) :
    (state.update shared pid (some later)).Runs Property :=
  ⟨pid, later, process?_update_self found, property⟩

/-- A list around one of its entries, which another one can replace. -/
theorem exists_split_set {Item : Type} {items : List Item} {position : Nat} {item : Item}
    (found : items[position]? = some item) (other : Item) :
    ∃ first last, items = first ++ item :: last ∧
      items.set position other = first ++ other :: last := by
  obtain ⟨inside, here⟩ := List.getElem?_eq_some_iff.mp found
  obtain ⟨first, last, split, _, replaced⟩ : ∃ first last, items = first ++ items[position] :: last ∧
      first.length = position ∧ items.set position other = first ++ other :: last :=
    List.exists_of_set inside
  rw [here] at split
  exact ⟨first, last, split, replaced⟩

/-- What the running processes have together. -/
def tally {M : Type} [AddCommMonoid M] (state : PoolState Shared Process) (weigh : Process → M) :
    M :=
  (state.processes.map fun process => process.elim 0 weigh).sum

section Tally

variable {M : Type} [AddCommMonoid M] {weigh : Process → M} {state : PoolState Shared Process}

theorem tally_spawn (shared : Shared) (process : Option Process) :
    (state.spawn shared process).tally weigh = state.tally weigh + process.elim 0 weigh := by
  simp [tally, spawn]

/-- An updated process has its new share in place of the old one. -/
theorem tally_update {pid : Nat} {before : Process} (found : state.process? pid = some before)
    (shared : Shared) (process : Option Process) :
    (state.update shared pid process).tally weigh + weigh before =
      state.tally weigh + process.elim 0 weigh := by
  have entry : state.processes[pid]? = some (some before) := Option.join_eq_some_iff.mp found
  obtain ⟨first, last, split, replaced⟩ := exists_split_set entry process
  simp only [tally, update, replaced]
  rw [split]
  simp only [List.map_append, List.map_cons, List.sum_append, List.sum_cons, Option.elim_some]
  abel

/-- Processes without a share do not count. -/
theorem tally_eq_zero (none : ∀ process ∈ state.processes, ∀ running ∈ process,
    weigh running = 0) : state.tally weigh = 0 := by
  refine List.sum_eq_zero ?_
  intro share member
  obtain ⟨process, inside, rfl⟩ := List.mem_map.mp member
  cases process with
  | none => rfl
  | some running => exact none _ inside running rfl

end Tally

/-- A check of every running process. -/
def every (state : PoolState Shared Process) (check : Nat → Process → Bool) : Bool :=
  (List.range state.processes.length).all fun pid => (state.process? pid).all (check pid)

/-- A check that every process passes holds of each running one. -/
theorem every_apply {check : Nat → Process → Bool} {process : Process}
    (passes : state.every check = true) (running : state.process? pid = some process) :
    check pid process = true := by
  have inside := List.mem_range.mpr (lt_of_process? running)
  have passed := List.all_eq_true.mp passes pid inside
  simpa [running] using passed

end PoolState

namespace ProcessPool

variable (pool : ProcessPool Shared Process Input Start)

/-- One action of the pool. -/
def step (state : PoolState Shared Process) :
    PoolAction Input Start → Option (PoolState Shared Process)
  | .launch begun =>
    (pool.start state.shared begun).map fun result => state.spawn result.1 result.2
  | .advance pid input =>
    (state.process? pid).bind fun process =>
      (pool.next state.shared process input).map fun result =>
        state.update result.1 pid result.2
  | .crash pid => (state.process? pid).map fun _ => state.update state.shared pid none

/-- The transition system of a pool, starting with no process. -/
def system : TransitionSystem (PoolState Shared Process) (PoolAction Input Start) where
  Initial state := pool.Initial state.shared ∧ state.processes = []
  step := pool.step

variable {pool}

variable {state after : PoolState Shared Process}

theorem step_launch {begun : Start}
    (transition : pool.system.step state (.launch begun) = some after) :
    ∃ shared process, pool.start state.shared begun = some (shared, process) ∧
      after = state.spawn shared process := by
  simp only [system, step, Option.map_eq_some_iff] at transition
  obtain ⟨⟨shared, process⟩, started, rfl⟩ := transition
  exact ⟨shared, process, started, rfl⟩

theorem step_advance {pid : Nat} {input : Input}
    (transition : pool.system.step state (.advance pid input) = some after) :
    ∃ before shared process, state.process? pid = some before ∧
      pool.next state.shared before input = some (shared, process) ∧
      after = state.update shared pid process := by
  simp only [system, step, Option.bind_eq_some_iff, Option.map_eq_some_iff] at transition
  obtain ⟨before, found, ⟨shared, process⟩, advanced, rfl⟩ := transition
  exact ⟨before, shared, process, found, advanced, rfl⟩

theorem step_crash {pid : Nat} (transition : pool.system.step state (.crash pid) = some after) :
    ∃ before, state.process? pid = some before ∧
      after = state.update state.shared pid none := by
  simp only [system, step, Option.map_eq_some_iff] at transition
  obtain ⟨before, found, rfl⟩ := transition
  exact ⟨before, found, rfl⟩

/-- A property that the steps of one process keep holds of it along every run. -/
theorem process_invariant {Allowed : PoolState Shared Process → PoolAction Input Start → Prop}
    {Property : Process → Prop} {state later : PoolState Shared Process} {pid : Nat}
    (steps : pool.system.Steps Allowed state later) (within : pid < state.processes.length)
    (holds : ∀ process, state.process? pid = some process → Property process)
    (kept : ∀ shared process input after next, Property process →
      pool.next shared process input = some (after, some next) → Property next) :
    ∀ process, later.process? pid = some process → Property process := by
  have joint : pid < later.processes.length ∧
      ∀ process, later.process? pid = some process → Property process := by
    induction steps with
    | refl => exact ⟨within, holds⟩
    | step prior allowed transition ih =>
      rename_i middle action next
      obtain ⟨inside, property⟩ := ih
      cases action with
      | launch begun =>
        obtain ⟨shared, process, _, rfl⟩ := step_launch transition
        refine ⟨?_, ?_⟩
        · simp only [PoolState.spawn, List.length_append]
          omega
        · intro found running
          obtain old | ⟨fresh, _⟩ := PoolState.process?_spawn running
          · exact property found old
          · omega
      | advance acting input =>
        obtain ⟨before, shared, process, runs, moved, rfl⟩ := step_advance transition
        refine ⟨by simpa [PoolState.update] using inside, ?_⟩
        intro found running
        by_cases same : pid = acting
        · subst same
          rw [PoolState.process?_update_self runs] at running
          subst running
          exact kept _ _ _ _ _ (property before runs) moved
        · rw [PoolState.process?_update_of_ne same] at running
          exact property found running
      | crash crashed =>
        obtain ⟨before, runs, rfl⟩ := step_crash transition
        refine ⟨by simpa [PoolState.update] using inside, ?_⟩
        intro found running
        by_cases same : pid = crashed
        · subst same
          rw [PoolState.process?_update_self runs] at running
          cases running
        · rw [PoolState.process?_update_of_ne same] at running
          exact property found running
  exact joint.2

end ProcessPool

/-- The proof outline of a pool. -/
structure ProofOutline (Shared Process : Type) where
  Global : Shared → Prop
  Local : Shared → Process → Prop
  Apart : Process → Process → Prop
  apart_symm : ∀ {first second}, Apart first second → Apart second first

namespace ProofOutline

variable (outline : ProofOutline Shared Process)

/-- Every part of the outline holds of a pool in progress. -/
structure Holds (state : PoolState Shared Process) : Prop where
  global : outline.Global state.shared
  locals : ∀ pid process, state.process? pid = some process →
    outline.Local state.shared process
  apart : ∀ first second left right, first ≠ second → state.process? first = some left →
    state.process? second = some right → outline.Apart left right

/-- The outline together with a property of the whole pool. -/
structure HoldsWith (Covered : PoolState Shared Process → Prop)
    (state : PoolState Shared Process) : Prop where
  holds : outline.Holds state
  covered : Covered state

/-- What an operation owes to the outline: the shared property, the assertion of
the acting process at its new point, and the assertions of the other processes. -/
structure Keeps (state : PoolState Shared Process) (pid : Nat) (shared : Shared)
    (process : Option Process) : Prop where
  global : outline.Global shared
  own : ∀ point, process = some point → outline.Local shared point
  others : ∀ other point, other ≠ pid → state.process? other = some point →
    outline.Local shared point
  apart : ∀ point other right, process = some point → other ≠ pid →
    state.process? other = some right → outline.Apart point right

variable {outline}

variable {state : PoolState Shared Process}

/-- An operation of a running process that keeps the outline. -/
theorem Holds.update {shared : Shared} {pid : Nat} {before : Process} {process : Option Process}
    (holds : outline.Holds state) (found : state.process? pid = some before)
    (keeps : outline.Keeps state pid shared process) :
    outline.Holds (state.update shared pid process) where
  global := keeps.global
  locals := by
    intro other point running
    by_cases same : other = pid
    · subst same
      rw [PoolState.process?_update_self found] at running
      exact keeps.own point running
    · rw [PoolState.process?_update_of_ne same] at running
      exact keeps.others other point same running
  apart := by
    intro first second left right different leftRuns rightRuns
    by_cases firstActs : first = pid
    · subst firstActs
      rw [PoolState.process?_update_self found] at leftRuns
      rw [PoolState.process?_update_of_ne (Ne.symm different)] at rightRuns
      exact keeps.apart left second right leftRuns (Ne.symm different) rightRuns
    · rw [PoolState.process?_update_of_ne firstActs] at leftRuns
      by_cases secondActs : second = pid
      · subst secondActs
        rw [PoolState.process?_update_self found] at rightRuns
        exact outline.apart_symm (keeps.apart right first left rightRuns different leftRuns)
      · rw [PoolState.process?_update_of_ne secondActs] at rightRuns
        exact holds.apart first second left right different leftRuns rightRuns

/-- A new process that keeps the outline; its identity is beyond every running one. -/
theorem Holds.spawn {shared : Shared} {process : Option Process} (holds : outline.Holds state)
    (keeps : outline.Keeps state state.processes.length shared process) :
    outline.Holds (state.spawn shared process) where
  global := keeps.global
  locals := by
    intro other point running
    obtain old | ⟨_, fresh⟩ := PoolState.process?_spawn running
    · exact keeps.others other point (Nat.ne_of_lt (PoolState.lt_of_process? old)) old
    · exact keeps.own point fresh
  apart := by
    intro first second left right different leftRuns rightRuns
    obtain leftOld | ⟨leftPid, leftFresh⟩ := PoolState.process?_spawn leftRuns
    · obtain rightOld | ⟨rightPid, rightFresh⟩ := PoolState.process?_spawn rightRuns
      · exact holds.apart first second left right different leftOld rightOld
      · have other := Nat.ne_of_lt (PoolState.lt_of_process? leftOld)
        exact outline.apart_symm (keeps.apart right first left rightFresh other leftOld)
    · obtain rightOld | ⟨rightPid, _⟩ := PoolState.process?_spawn rightRuns
      · have other := Nat.ne_of_lt (PoolState.lt_of_process? rightOld)
        exact keeps.apart left second right leftFresh other rightOld
      · exact absurd (leftPid.trans rightPid.symm) different

/-- The outline and a property of the whole pool are a joint invariant of every
allowed run: initially there is no process, a crash only removes one, and each
other action keeps the outline. -/
theorem reachable_with {pool : ProcessPool Shared Process Input Start}
    {Allowed : PoolState Shared Process → PoolAction Input Start → Prop}
    {Covered : PoolState Shared Process → Prop} (reached : pool.system.Reachable Allowed state)
    (initial : ∀ shared, pool.Initial shared → outline.Global shared ∧ Covered ⟨shared, []⟩)
    (launched : ∀ state begun shared process, outline.Holds state → Covered state →
      Allowed state (.launch begun) → pool.start state.shared begun = some (shared, process) →
      outline.Keeps state state.processes.length shared process)
    (advanced : ∀ state pid before input shared process, outline.Holds state → Covered state →
      Allowed state (.advance pid input) → state.process? pid = some before →
      pool.next state.shared before input = some (shared, process) →
      outline.Keeps state pid shared process)
    (covered : ∀ state action next, outline.Holds state → Covered state → Allowed state action →
      pool.system.step state action = some next → Covered next) :
    outline.HoldsWith Covered state := by
  refine reached.invariant ?_ ?_
  · rintro ⟨shared, processes⟩ ⟨valid, empty⟩
    obtain ⟨holds, starts⟩ := initial shared valid
    cases empty
    refine ⟨⟨holds, ?_, ?_⟩, starts⟩
    · intro pid process running
      simp [PoolState.process?] at running
    · intro first second left right _ running
      simp [PoolState.process?] at running
  · rintro state action next ⟨holds, joint⟩ allowed transition
    refine ⟨?_, covered state action next holds joint allowed transition⟩
    cases action with
    | launch begun =>
      obtain ⟨shared, process, started, rfl⟩ := ProcessPool.step_launch transition
      exact holds.spawn (launched _ _ _ _ holds joint allowed started)
    | advance pid input =>
      obtain ⟨before, shared, process, found, moved, rfl⟩ := ProcessPool.step_advance transition
      exact holds.update found (advanced _ _ _ _ _ _ holds joint allowed found moved)
    | crash pid =>
      obtain ⟨before, found, rfl⟩ := ProcessPool.step_crash transition
      refine holds.update found ⟨holds.global, ?_, ?_, ?_⟩
      · simp
      · exact fun other point _ running => holds.locals other point running
      · simp

/-- The outline by itself is an invariant of every allowed run. -/
theorem reachable {pool : ProcessPool Shared Process Input Start}
    {Allowed : PoolState Shared Process → PoolAction Input Start → Prop}
    (reached : pool.system.Reachable Allowed state)
    (initial : ∀ shared, pool.Initial shared → outline.Global shared)
    (launched : ∀ state begun shared process, outline.Holds state →
      Allowed state (.launch begun) → pool.start state.shared begun = some (shared, process) →
      outline.Keeps state state.processes.length shared process)
    (advanced : ∀ state pid before input shared process, outline.Holds state →
      Allowed state (.advance pid input) → state.process? pid = some before →
      pool.next state.shared before input = some (shared, process) →
      outline.Keeps state pid shared process) : outline.Holds state := by
  have joint : outline.HoldsWith (fun _ => True) state := by
    refine reachable_with reached ?_ ?_ ?_ ?_
    · exact fun shared valid => ⟨initial shared valid, trivial⟩
    · exact fun state begun shared process holds _ => launched state begun shared process holds
    · exact fun state pid before input shared process holds _ =>
        advanced state pid before input shared process holds
    · exact fun _ _ _ _ _ _ _ => trivial
  exact joint.holds

end ProofOutline

end CryptoVaultHub
