import CryptoVaultHub.Withdrawal.SingleBroadcast

/-!
# The status machine

`Transition` is the machine that the services mean to implement. Most of their
updates name no expected status, so they follow it only while the status they
act on is still there: `updatesFresh` is this condition on runs. Under it every
step is a transition or leaves the status alone, a claimed withdrawal has one
owner, and a final status stays.
-/

namespace CryptoVaultHub.Withdrawal

open TransitionSystem

/-- The states without a way out. -/
def Status.final : Status → Bool
  | .confirmed | .failed | .cancelled | .rejected => true
  | .pendingApproval | .pendingCosign | .approved | .broadcasting => false

/-- The transitions of a withdrawal. -/
inductive Transition : Status → Status → Prop where
  | approve : Transition .pendingApproval .approved
  | cancel : Transition .pendingApproval .cancelled
  | cosign : Transition .approved .pendingCosign
  | release : Transition .pendingCosign .approved
  | expire : Transition .pendingCosign .cancelled
  | claim : Transition .approved .broadcasting
  | retry : Transition .broadcasting .approved
  | fail : Transition .broadcasting .failed
  | confirm : Transition .broadcasting .confirmed

/-- No transition leaves a final status. -/
theorem Transition.not_final {before after : Status} (transition : Transition before after) :
    before.final = false := by
  cases transition <;> rfl

/-! ## Fresh updates -/

/-- The status that a process acts on: the one it has read, claimed or written
itself, or that its update expects. -/
def Process.actsOn : Process → Option Status
  | .approve (.write _) => some .pendingApproval
  | .approve (.update _) => some .approved
  | .cancel (.write _) => some .pendingApproval
  | .submit (.release _) => some .pendingCosign
  | .expire (.cancel _ _) => some .pendingCosign
  | .execute _ .claim => some .approved
  | .execute _ .caught => some .broadcasting
  | .confirm _ .markFailed => some .broadcasting
  | .confirm _ .markConfirmed => some .broadcasting
  | _ => none

/-- A status update finds the status its process acts on, or the one it writes. -/
def updatesFresh (settings : Settings) (state : State) (action : Action) : Bool :=
  match setsStatus settings state action with
  | some (pid, id, status) =>
    state.shared.status? id = some status ||
      state.shared.status? id = (state.process? pid).bind Process.actsOn
  | none => true

/-- The statuses of a withdrawal that a process has claimed. -/
def Status.claimed : Status → Bool
  | .broadcasting | .confirmed | .failed => true
  | .pendingApproval | .pendingCosign | .approved | .cancelled | .rejected => false

/-- The withdrawal a process has claimed and not yet given back. -/
def Process.owning : Process → Option WithdrawalId
  | .execute _ .claim | .execute _ .publishFailed | .execute _ .finish | .execute _ .fail => none
  | .execute attempt _ => some attempt.id
  | _ => none

variable {process : Process} {id : WithdrawalId}

/-- An update of the status it acts on is a transition, and only the owner of a
withdrawal gives it back. -/
theorem StatusUpdate.transition {status found : Status} {expected : Option Status}
    (update : StatusUpdate process id status expected) (fresh : process.actsOn = some found) :
    Transition found status ∧
      (found = .broadcasting → status = .approved → process.owning = some id) := by
  constructor
  · cases update <;> cases fresh <;> constructor
  · rintro rfl rfl
    cases update <;> cases fresh
    rfl

variable {settings : Settings} {state : State} {input : Input}

/-- A fresh update is a transition or rewrites the status that is there. -/
theorem transition_of_setsStatus {pid owner : Nat} {status : Status}
    (running : state.process? pid = some process)
    (fresh : updatesFresh settings state (.advance pid input) = true)
    (sets : setsStatus settings state (.advance pid input) = some (owner, id, status)) :
    ∃ found, state.shared.status? id = some found ∧
      (found = status ∨ Transition found status ∧
        (found = .broadcasting → status = .approved → process.owning = some id)) := by
  obtain ⟨rfl, expected, found, update, current, _⟩ := statusUpdate_of_setsStatus running sets
  refine ⟨found, current, ?_⟩
  simp only [updatesFresh, sets, running, Option.bind_some, Bool.or_eq_true,
    decide_eq_true_eq] at fresh
  obtain rewritten | acted := fresh
  · left
    rw [current] at rewritten
    exact Option.some.inj rewritten
  · right
    exact update.transition (acted.symm.trans current)

variable {after : Shared}

/-- Every step of the services refines the status machine. -/
theorem transition_of_advance {pid : Nat} {before : Process} {process : Option Process}
    (fresh : updatesFresh settings state (.advance pid input) = true)
    (running : state.process? pid = some before)
    (moved : (services settings).next state.shared before input = some (after, process))
    (id : WithdrawalId) :
    after.status? id = state.shared.status? id ∨
      ∃ found status, state.shared.status? id = some found ∧ after.status? id = some status ∧
        Transition found status ∧
        (found = .broadcasting → status = .approved → before.owning = some id) := by
  obtain same | ⟨status, sets, set⟩ := status?_advance running moved id
  · exact Or.inl same
  · obtain ⟨found, current, kept | ⟨transition, owner⟩⟩ :=
      transition_of_setsStatus running fresh sets
    · left
      rw [set, current, kept]
    · right
      exact ⟨found, status, current, set, transition, owner⟩

/-! ## Claimed withdrawals -/

/-- A process comes to own a withdrawal by its claim and otherwise only keeps it,
without a status update. -/
theorem owning_of_continuesAt {shared : Shared} {answer : Answer} {before point : Process}
    (continues : (before.step settings shared answer).ContinuesAt point)
    (owns : point.owning = some id) :
    (before.owning = some id ∧ before.actsOn = none) ∨
      ∃ attempt, before = .execute attempt .claim ∧ attempt.id = id ∧
        shared.status? id = some .approved ∧
        (before.step settings shared answer).thrown = some (.execute attempt .fail) := by
  cases sameCall_of_continuesAt continues with
  | execute attempt first second =>
    obtain ⟨_, same, next⟩ := execute_next continues
    cases same
    cases next with
    | claim approved =>
      right
      cases owns
      exact ⟨attempt, rfl, rfl, approved, rfl⟩
    | throw inside =>
      left
      cases first with
      | prepare | broadcast | record | track | publish => exact ⟨owns, rfl⟩
      | claim | load | caught | publishFailed | gasSubmit | gasRecord | gasTrack | gasPublish
      | finish | fail => cases inside
    | hot | gasTank | prepare | broadcast | record | track | publish | gasSubmit | gasRecord
    | gasTrack | gasPublish => exact Or.inl ⟨owns, rfl⟩
    | skip | published | exhaust | gasPublished | fail => cases owns
  | approve | cancel | submit | expire | poll | confirm => cases owns

/-- What a process with no status to act on does to the statuses. -/
theorem status?_of_actsOn_none {pid : Nat} {before : Process} {process : Option Process}
    (idle : before.actsOn = none) (running : state.process? pid = some before)
    (moved : (services settings).next state.shared before input = some (after, process))
    (id : WithdrawalId) : after.status? id = state.shared.status? id := by
  obtain same | ⟨status, sets, _⟩ := status?_advance running moved id
  · exact same
  · obtain ⟨_, expected, found, update, _⟩ := statusUpdate_of_setsStatus running sets
    cases update <;> cases idle

/-- A claimed withdrawal has one owner, and its status says that it is claimed. -/
def ownership : ProofOutline Shared Process where
  Global _ := True
  Local shared process := ∀ id, process.owning = some id →
    ∃ status, shared.status? id = some status ∧ status.claimed = true
  Apart first second := ∀ id, first.owning = some id → second.owning ≠ some id
  apart_symm := fun apart id second first => apart id first second

/-- The first point of a process owns nothing. -/
theorem Process.Fresh.owning (fresh : process.Fresh) : process.owning = none := by
  cases fresh <;> rfl

/-- A transition keeps a withdrawal claimed unless it gives it back. -/
theorem Transition.claimed {before after : Status} (transition : Transition before after)
    (claimed : before.claimed = true) :
    after.claimed = true ∨ (before = .broadcasting ∧ after = .approved) := by
  cases transition with
  | retry => exact Or.inr ⟨rfl, rfl⟩
  | fail | confirm => exact Or.inl rfl
  | approve | cancel | cosign | release | expire | claim => cases claimed

/-- A withdrawal is broadcast by its owner. -/
theorem owning_of_broadcast {shared : Shared} {answer : Answer} {sent : Broadcast}
    (write : (process.step settings shared answer).write = .broadcast sent) :
    process.owning = some sent.withdrawalId := by
  have sends := sending_of_broadcast write
  unfold Process.sending at sends
  split at sends <;> cases sends <;> rfl

/-- Every fresh step keeps the ownership. -/
theorem ownership_keeps {pid : Nat} {before : Process} {process : Option Process}
    (holds : ownership.Holds state)
    (fresh : updatesFresh settings state (.advance pid input) = true)
    (running : state.process? pid = some before)
    (moved : (services settings).next state.shared before input = some (after, process)) :
    ownership.Keeps state pid after process := by
  have performed := perform_cases moved
  -- A process that owns a withdrawal now owned it before, or claims it here.
  have origin : ∀ point id, process = some point → point.owning = some id →
      (before.owning = some id ∧ after.status? id = state.shared.status? id) ∨
        (state.shared.status? id = some .approved ∧ after.status? id = some .broadcasting) := by
    intro point id continued owns
    subst continued
    obtain ⟨kept, idle⟩ | ⟨attempt, rfl, rfl, approved, thrown⟩ :=
      owning_of_continuesAt performed.continuesAt owns
    · exact Or.inl ⟨kept, status?_of_actsOn_none idle running moved id⟩
    · right
      obtain ⟨_, applied⟩ | failed := performed.process_cases
      · exact ⟨approved, status?_claim approved applied⟩
      · rw [thrown] at failed
        cases failed
        cases owns
  constructor
  · trivial
  · intro point continued id owns
    obtain ⟨kept, same⟩ | ⟨_, claimed⟩ := origin point id continued owns
    · rw [same]
      exact holds.locals pid before running id kept
    · exact ⟨.broadcasting, claimed, rfl⟩
  · intro other point different found id owns
    obtain ⟨status, current, claimed⟩ := holds.locals other point found id owns
    obtain same | ⟨old, new, foundOld, foundNew, transition, owner⟩ :=
      transition_of_advance fresh running moved id
    · exact ⟨status, same.trans current, claimed⟩
    · rw [current] at foundOld
      cases foundOld
      obtain still | ⟨was, given⟩ := transition.claimed claimed
      · exact ⟨new, foundNew, still⟩
      · -- The process that gives the withdrawal back would be a second owner.
        exact absurd (owner was given) (holds.apart other pid point before different found running
          id owns)
  · intro point other right continued different found id owns alsoOwns
    obtain ⟨kept, _⟩ | ⟨approved, _⟩ := origin point id continued owns
    · exact holds.apart pid other before right different.symm running found id kept alsoOwns
    · obtain ⟨status, current, claimed⟩ := holds.locals other right found id alsoOwns
      rw [approved] at current
      cases current
      cases claimed

/-- What begins from outside keeps the ownership. -/
theorem ownership_launch {begun : Start} {process : Option Process} (holds : ownership.Holds state)
    (started : start state.shared begun = some (after, process)) :
    ownership.Keeps state state.processes.length after process := by
  constructor
  · trivial
  · intro point continued id owns
    subst continued
    rw [(start_fresh started).owning] at owns
    cases owns
  · intro other point _ found id owns
    obtain ⟨status, current, claimed⟩ := holds.locals other point found id owns
    exact ⟨status, status?_start_of_some started current, claimed⟩
  · intro point other right continued _ _ id owns
    subst continued
    rw [(start_fresh started).owning] at owns
    cases owns

/-- Ownership holds along every run of fresh updates. -/
theorem ownership_reachable
    (reached : (services settings).system.Reachable
      (fun state action => updatesFresh settings state action = true) state) :
    ownership.Holds state := by
  refine ProofOutline.reachable reached ?_ ?_ ?_
  · exact fun _ _ => trivial
  · intro state begun shared process holds _ started
    exact ownership_launch holds started
  · intro state pid before input shared process holds fresh running moved
    exact ownership_keeps holds fresh running moved

/-! ## Final statuses -/

/-- One step keeps a final status, and does not broadcast a withdrawal that was
cancelled or rejected. -/
theorem final_step {state after : State} {action : Action} {status : Status}
    (holds : ownership.Holds state) (fresh : updatesFresh settings state action = true)
    (transition : (services settings).system.step state action = some after)
    (current : state.shared.status? id = some status) (isFinal : status.final = true) :
    after.shared.status? id = some status ∧
      (status.claimed = false → after.shared.broadcastsOf id = state.shared.broadcastsOf id) := by
  cases action with
  | launch begun =>
    obtain ⟨shared, process, started, rfl⟩ := ProcessPool.step_launch transition
    rw [PoolState.shared_spawn]
    exact ⟨status?_start_of_some started current, fun _ => broadcastsOf_start started id⟩
  | advance pid input =>
    obtain ⟨before, shared, process, running, moved, rfl⟩ := ProcessPool.step_advance transition
    rw [PoolState.shared_update]
    constructor
    · obtain same | ⟨old, new, found, _, leaves, _⟩ :=
        transition_of_advance fresh running moved id
      · rw [same, current]
      · rw [current] at found
        cases found
        rw [leaves.not_final] at isFinal
        cases isFinal
    · intro unclaimed
      obtain same | ⟨sent, write, own, _⟩ := broadcastsOf_advance moved id
      · exact same
      · have owns : before.owning = some id := by
          rw [← own]
          exact owning_of_broadcast write
        obtain ⟨found, now, claimed⟩ := holds.locals pid before running id owns
        rw [current] at now
        cases now
        rw [unclaimed] at claimed
        cases claimed
  | crash pid =>
    obtain ⟨before, _, rfl⟩ := ProcessPool.step_crash transition
    exact ⟨current, fun _ => rfl⟩

/-- While every update finds the status its process acts on, a final status is
never left, and a withdrawal that was cancelled or rejected is never broadcast. -/
theorem final_status_stays {settings : Settings} {state later : State} {id : WithdrawalId}
    {status : Status}
    (reached : (services settings).system.Reachable
      (fun state action => updatesFresh settings state action = true) state)
    (steps : (services settings).system.Steps
      (fun state action => updatesFresh settings state action = true) state later)
    (current : state.shared.status? id = some status) (isFinal : status.final = true) :
    later.shared.status? id = some status ∧
      (status = .cancelled ∨ status = .rejected →
        later.shared.broadcastsOf id = state.shared.broadcastsOf id) := by
  induction steps with
  | refl => exact ⟨current, fun _ => rfl⟩
  | step prior fresh transition ih =>
    obtain ⟨kept, unsent⟩ := ih
    have holds := ownership_reachable (reached.append prior)
    obtain ⟨stays, broadcasts⟩ := final_step holds fresh transition kept isFinal
    refine ⟨stays, fun withdrawn => ?_⟩
    have unclaimed : status.claimed = false := by
      obtain rfl | rfl := withdrawn <;> rfl
    exact (broadcasts unclaimed).trans (unsent withdrawn)

/-- Withdrawal 1 is requested, and one process has read it to approve it when
another cancels it. -/
def cancelledWhileApproved : List Action :=
  [.launch (.create (sampleRequest 1) false), .launch (.approve 1 1), .launch (.cancel 1 1)] ++
    advances 1 1 ++ advances 2 2

/-- The approval goes on, and the worker polls and broadcasts. -/
def approvedAndBroadcast : List Action :=
  advances 1 1 ++ [.launch .poll] ++ advances 3 4 ++ [.launch (.execute 1)] ++
    claimsAndPrepares 4 ++ [answers 4 (.txHash "0x01")]

theorem final_status_stays_sample :
    ∃ state later : State, state.shared.status? 1 = some .cancelled ∧
      (later.shared.status? 1 = some .cancelled ∧
        (Status.cancelled = .cancelled ∨ Status.cancelled = .rejected →
          later.shared.broadcastsOf 1 = state.shared.broadcastsOf 1)) := by
  have replayed : ∃ state later,
      (services sampleSettings).system.Steps
        (fun state action => updatesFresh sampleSettings state action = true) idleState state ∧
      (services sampleSettings).system.Steps
        (fun state action => updatesFresh sampleSettings state action = true) state later ∧
      decide (state.shared.status? 1 = some .cancelled) = true ∧ true = true :=
    exists_steps_of_runs cancelledWhileApproved ([.crash 1, .launch .poll] ++ advances 3 2)
      (fun state : State => state.shared.status? 1 = some .cancelled) (fun _ => true)
      (by decide +kernel)
  obtain ⟨state, later, steps, suffix, cancelled, _⟩ := replayed
  have current := of_decide_eq_true cancelled
  have reached : (services sampleSettings).system.Reachable
      (fun state action => updatesFresh sampleSettings state action = true) state :=
    ⟨idleState, idleState_initial sampleSettings, steps⟩
  exact ⟨state, later, current, final_status_stays reached suffix current rfl⟩

/-- A cancelled withdrawal is approved, broadcast and no longer cancelled. -/
theorem cancelled_then_broadcast :
    ∃ state later : State, (services sampleSettings).system.Reachable Unrestricted state ∧
      (services sampleSettings).system.Steps Unrestricted state later ∧
      (state.shared.status? 1 = some .cancelled ∧ (state.shared.broadcastsOf 1).length = 0) ∧
      later.shared.status? 1 = some .broadcasting ∧
        (later.shared.broadcastsOf 1).length = 1 := by
  have replayed : ∃ state later,
      (services sampleSettings).system.Steps Unrestricted idleState state ∧
      (services sampleSettings).system.Steps Unrestricted state later ∧
      decide (state.shared.status? 1 = some .cancelled ∧
        (state.shared.broadcastsOf 1).length = 0) = true ∧
      decide (later.shared.status? 1 = some .broadcasting ∧
        (later.shared.broadcastsOf 1).length = 1) = true :=
    exists_steps_of_runs cancelledWhileApproved approvedAndBroadcast
      (fun state : State => state.shared.status? 1 = some .cancelled ∧
        (state.shared.broadcastsOf 1).length = 0)
      (fun later : State => later.shared.status? 1 = some .broadcasting ∧
        (later.shared.broadcastsOf 1).length = 1) (by decide +kernel)
  obtain ⟨state, later, steps, suffix, before, after⟩ := replayed
  exact ⟨state, later, ⟨idleState, idleState_initial sampleSettings, steps⟩, suffix,
    of_decide_eq_true before, of_decide_eq_true after⟩

/-- Final statuses are left, and cancelled withdrawals are broadcast. -/
theorem final_status_left :
    (¬ ∀ (settings : Settings) (state later : State) (id : WithdrawalId) (status : Status),
      (services settings).system.Reachable Unrestricted state →
        (services settings).system.Steps Unrestricted state later →
          state.shared.status? id = some status → status.final = true →
            later.shared.status? id = some status) ∧
      ¬ ∀ (settings : Settings) (state later : State) (id : WithdrawalId),
        (services settings).system.Reachable Unrestricted state →
          (services settings).system.Steps Unrestricted state later →
            state.shared.status? id = some .cancelled →
              later.shared.broadcastsOf id = state.shared.broadcastsOf id := by
  obtain ⟨state, later, reached, steps, ⟨cancelled, unsent⟩, broadcasting, sent⟩ :=
    cancelled_then_broadcast
  constructor
  · intro stays
    have kept := stays sampleSettings state later 1 .cancelled reached steps cancelled rfl
    rw [broadcasting] at kept
    cases kept
  · intro never
    have same := never sampleSettings state later 1 reached steps cancelled
    rw [same, unsent] at sent
    cases sent

end CryptoVaultHub.Withdrawal
