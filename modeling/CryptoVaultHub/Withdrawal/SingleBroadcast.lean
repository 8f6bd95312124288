import CryptoVaultHub.Withdrawal.Control

/-!
# At most one broadcast

The worker claims a withdrawal by a guarded update, so two processes prepare a
transaction for one withdrawal only if it becomes 'approved' again in between.
`approvesUnsent` is the condition on runs that this does not happen to a
withdrawal that was broadcast or is being prepared; under it no withdrawal is
broadcast twice.
-/

namespace CryptoVaultHub.Withdrawal

open TransitionSystem

/-- The withdrawal a process has claimed and not yet broadcast. -/
def Process.preparing : Process → Option WithdrawalId
  | .execute attempt .load => some attempt.id
  | .execute attempt (.prepare _) => some attempt.id
  | .execute attempt (.broadcast ..) => some attempt.id
  | .execute attempt (.gasSubmit _) => some attempt.id
  | _ => none

/-- No other process prepares a withdrawal. -/
def preparedOnlyBy (state : State) (pid : Nat) (id : WithdrawalId) : Bool :=
  state.every fun other process => other = pid || process.preparing ≠ some id

/-- A status update to 'approved' finds a withdrawal that was never broadcast and
that no other process prepares. -/
def approvesUnsent (settings : Settings) (state : State) (action : Action) : Bool :=
  match setsStatus settings state action with
  | some (pid, id, .approved) =>
    (state.shared.broadcastsOf id).isEmpty && preparedOnlyBy state pid id
  | _ => true

variable {state : State}

theorem preparedOnlyBy_apply {pid other : Nat} {id : WithdrawalId} {process : Process}
    (only : preparedOnlyBy state pid id = true) (different : other ≠ pid)
    (running : state.process? other = some process) : process.preparing ≠ some id := by
  have unlike := PoolState.every_apply only running
  simpa [different] using unlike

variable {settings : Settings}

/-- Only a process that prepares a withdrawal broadcasts it. -/
theorem preparing_of_broadcast {shared : Shared} {answer : Answer} {process : Process}
    {sent : Broadcast} (write : (process.step settings shared answer).write = .broadcast sent) :
    process.preparing = some sent.withdrawalId := by
  have sends := sending_of_broadcast write
  unfold Process.sending at sends
  split at sends <;> cases sends <;> rfl

/-- A process comes to prepare a withdrawal by its claim and otherwise only keeps
preparing it, without changing the records. -/
theorem preparing_of_continuesAt {shared : Shared} {answer : Answer} {before point : Process}
    {id : WithdrawalId} (continues : (before.step settings shared answer).ContinuesAt point)
    (prepares : point.preparing = some id) :
    (before.preparing = some id ∧ (before.step settings shared answer).write = .skip) ∨
      ∃ attempt, before = .execute attempt .claim ∧ attempt.id = id ∧
        shared.status? id = some .approved ∧
        (before.step settings shared answer).thrown = some (.execute attempt .fail) := by
  cases sameCall_of_continuesAt continues with
  | execute attempt first second =>
    obtain ⟨_, same, next⟩ := execute_next continues
    cases same
    cases next with
    | claim approved =>
      right
      cases prepares
      exact ⟨attempt, rfl, rfl, approved, rfl⟩
    | hot | gasTank | prepare => exact Or.inl ⟨prepares, rfl⟩
    | skip | broadcast | record | track | publish | published | throw | exhaust | gasSubmit
    | gasRecord | gasTrack | gasPublish | gasPublished | fail => cases prepares
  | approve | cancel | submit | expire | poll | confirm => cases prepares

/-- What holds of the records, of a process, and of two processes. -/
def singleBroadcast : ProofOutline Shared Process where
  Global shared := ∀ id, (shared.broadcastsOf id).length ≤ 1 ∧
    (shared.status? id = some .approved → shared.broadcastsOf id = [])
  Local shared process := ∀ id, process.preparing = some id →
    shared.status? id ≠ some .approved ∧ shared.broadcastsOf id = []
  Apart first second := ∀ id, first.preparing = some id → second.preparing ≠ some id
  apart_symm := fun apart id second first => apart id first second

/-- The first point of a process prepares nothing. -/
theorem Process.Fresh.preparing {process : Process} (fresh : process.Fresh) :
    process.preparing = none := by
  cases fresh <;> rfl

variable {process : Option Process}

/-- What a step can do to a withdrawal, given the outline. -/
theorem singleBroadcast_advance {pid : Nat} {before : Process} {input : Input} {after : Shared}
    (holds : singleBroadcast.Holds state)
    (allowed : approvesUnsent settings state (.advance pid input) = true)
    (running : state.process? pid = some before)
    (moved : (services settings).next state.shared before input = some (after, process))
    (id : WithdrawalId) :
    (after.status? id = some .approved →
      state.shared.status? id = some .approved ∨
        (state.shared.broadcastsOf id = [] ∧ preparedOnlyBy state pid id = true)) ∧
      (after.broadcastsOf id = state.shared.broadcastsOf id ∨
        (before.preparing = some id ∧ (after.broadcastsOf id).length = 1 ∧
          after.status? id ≠ some .approved)) := by
  constructor
  · intro approved
    obtain same | ⟨status, sets, set⟩ := status?_advance running moved id
    · exact Or.inl (same ▸ approved)
    · right
      rw [set] at approved
      cases approved
      simpa [approvesUnsent, sets] using allowed
  · obtain same | ⟨sent, write, own, added⟩ := broadcastsOf_advance moved id
    · exact Or.inl same
    · right
      have prepares := preparing_of_broadcast write
      rw [own] at prepares
      obtain ⟨notApproved, none⟩ := holds.locals pid before running id prepares
      refine ⟨prepares, by rw [added, none]; rfl, ?_⟩
      obtain same | ⟨status, sets, _⟩ := status?_advance running moved id
      · rwa [same]
      · obtain ⟨_, _, _, other, _⟩ := write_of_setsStatus running sets
        rw [write] at other
        cases other

/-- Every allowed step keeps the outline. -/
theorem singleBroadcast_keeps {pid : Nat} {before : Process} {input : Input} {after : Shared}
    (holds : singleBroadcast.Holds state)
    (allowed : approvesUnsent settings state (.advance pid input) = true)
    (running : state.process? pid = some before)
    (moved : (services settings).next state.shared before input = some (after, process)) :
    singleBroadcast.Keeps state pid after process := by
  have effect := singleBroadcast_advance holds allowed running moved
  have performed := perform_cases moved
  -- A process that prepares a withdrawal now did so before, or claims it here.
  have origin : ∀ point id, process = some point → point.preparing = some id →
      (before.preparing = some id ∧ after = state.shared) ∨
        (state.shared.status? id = some .approved ∧ after.status? id = some .broadcasting) := by
    intro point id continued prepares
    subst continued
    obtain ⟨kept, skips⟩ | ⟨attempt, rfl, rfl, approved, thrown⟩ :=
      preparing_of_continuesAt performed.continuesAt prepares
    · left
      obtain same | ⟨_, applied⟩ := performed.shared_cases
      · exact ⟨kept, same⟩
      · rw [skips] at applied
        cases applied
        exact ⟨kept, rfl⟩
    · right
      obtain ⟨_, applied⟩ | failed := performed.process_cases
      · exact ⟨approved, status?_claim approved applied⟩
      · rw [thrown] at failed
        cases failed
        cases prepares
  constructor
  · intro id
    obtain ⟨becomes, broadcasts⟩ := effect id
    obtain ⟨once, unsent⟩ := holds.global id
    obtain same | ⟨_, one, notApproved⟩ := broadcasts
    · rw [same]
      refine ⟨once, fun approved => ?_⟩
      obtain already | ⟨none, _⟩ := becomes approved
      · exact unsent already
      · exact none
    · exact ⟨one.le, fun approved => absurd approved notApproved⟩
  · intro point continued id prepares
    obtain ⟨kept, same⟩ | ⟨approved, claimed⟩ := origin point id continued prepares
    · rw [same]
      exact holds.locals pid before running id kept
    · refine ⟨by simp [claimed], ?_⟩
      obtain same | ⟨kept, _, _⟩ := (effect id).2
      · rw [same]
        exact (holds.global id).2 approved
      · exact absurd approved (holds.locals pid before running id kept).1
  · intro other point different found id prepares
    obtain ⟨notApproved, none⟩ := holds.locals other point found id prepares
    obtain ⟨becomes, broadcasts⟩ := effect id
    constructor
    · intro approved
      obtain already | ⟨_, only⟩ := becomes approved
      · exact notApproved already
      · exact preparedOnlyBy_apply only different found prepares
    · obtain same | ⟨alsoPrepares, _, _⟩ := broadcasts
      · rw [same, none]
      · exact absurd prepares (holds.apart pid other before point different.symm running found id
          alsoPrepares)
  · intro point other right continued different found id prepares alsoPrepares
    obtain ⟨kept, _⟩ | ⟨approved, _⟩ := origin point id continued prepares
    · exact holds.apart pid other before right different.symm running found id kept alsoPrepares
    · exact (holds.locals other right found id alsoPrepares).1 approved

/-- What begins from outside keeps the outline. -/
theorem singleBroadcast_launch {begun : Start} {after : Shared}
    (holds : singleBroadcast.Holds state)
    (started : start state.shared begun = some (after, process)) :
    singleBroadcast.Keeps state state.processes.length after process := by
  have broadcasts := broadcastsOf_start started
  have approved : ∀ id, after.status? id = some .approved →
      state.shared.status? id = some .approved :=
    fun id now => status?_of_start started now (by decide)
  constructor
  · intro id
    rw [broadcasts]
    exact ⟨(holds.global id).1, fun now => (holds.global id).2 (approved id now)⟩
  · intro point continued id prepares
    subst continued
    rw [(start_fresh started).preparing] at prepares
    cases prepares
  · intro other point _ found id prepares
    obtain ⟨notApproved, none⟩ := holds.locals other point found id prepares
    exact ⟨fun now => notApproved (approved id now), by rw [broadcasts, none]⟩
  · intro point other right continued _ _ id prepares
    subst continued
    rw [(start_fresh started).preparing] at prepares
    cases prepares

/-- In every run in which a withdrawal only becomes 'approved' while it was never
broadcast and nobody else prepares it, no withdrawal is broadcast twice. -/
theorem broadcast_at_most_once {settings : Settings} {state : State}
    (reached : (services settings).system.Reachable
      (fun state action => approvesUnsent settings state action = true) state)
    (id : WithdrawalId) : (state.shared.broadcastsOf id).length ≤ 1 := by
  have holds : singleBroadcast.Holds state := by
    refine ProofOutline.reachable reached ?_ ?_ ?_
    · rintro shared rfl id
      simp [Shared.broadcastsOf, Shared.initial]
    · intro state begun shared process holds _ started
      exact singleBroadcast_launch holds started
    · intro state pid before input shared process holds allowed running moved
      exact singleBroadcast_keeps holds allowed running moved
  exact (holds.global id).1

theorem broadcast_at_most_once_sample :
    ∃ state : State, (state.shared.broadcastsOf 1).length = 1 ∧
      ∀ id, (state.shared.broadcastsOf id).length ≤ 1 := by
  obtain ⟨state, reached, passed⟩ : ∃ state, (services sampleSettings).system.Reachable
      (fun state action => approvesUnsent sampleSettings state action = true) state ∧
        (state.shared.broadcastsOf 1).length = 1 :=
    exists_reachable (idleState_initial sampleSettings)
      (approvedAndPolled 1 ++ [.launch (.execute 1)] ++ claimsAndPrepares 3 ++
        [answers 3 (.txHash "0x01")] ++ advances 3 5) (by decide +kernel)
  exact ⟨state, passed, broadcast_at_most_once reached⟩

/-- The row of a broadcast transaction cannot be updated, so the withdrawal is
'approved' again and the retry broadcasts a second transaction. -/
def retryAfterBroadcast : List Action :=
  approvedAndPolled 1 ++ [.launch (.execute 1)] ++ claimsAndPrepares 3 ++
    [answers 3 (.txHash "0x01"), .advance 3 ⟨.failed, .nothing⟩] ++ advances 3 2 ++
    [.launch (.promote 1), .launch (.execute 1)] ++ claimsAndPrepares 5 ++
    [answers 5 (.txHash "0x02")]

theorem broadcast_twice :
    ¬ ∀ (settings : Settings) (state : State),
      (services settings).system.Reachable Unrestricted state →
        ∀ id, (state.shared.broadcastsOf id).length ≤ 1 := by
  intro once
  obtain ⟨state, reached, passed⟩ : ∃ state,
      (services sampleSettings).system.Reachable Unrestricted state ∧
      (state.shared.broadcastsOf 1).length = 2 :=
    exists_reachable (idleState_initial sampleSettings) retryAfterBroadcast (by decide +kernel)
  have two : (state.shared.broadcastsOf 1).length = 2 := passed
  have one := once sampleSettings state reached 1
  omega

end CryptoVaultHub.Withdrawal
