import CryptoVaultHub.Withdrawal.CoSignCustody

/-!
# Polling for approved withdrawals

A poll skips a withdrawal when the queue has a job of its fixed identifier. The
job may have ended: a claim that finds the withdrawal in another status completes
the job silently, and ended jobs stay in the queue. A withdrawal that is then
'approved' again is skipped as long as the old job is kept. `approvesQueued` and
`jobsOutlast` are the conditions on runs that this does not happen.
-/

namespace CryptoVaultHub.Withdrawal

open TransitionSystem

/-- The withdrawal whose execute job an action ends. -/
def endsJob (settings : Settings) (state : State) : Action → Option WithdrawalId
  | .launch (.stallOut (.execute id) token) =>
    if (state.shared.withdrawalQueue.held (.execute id) token).isSome then some id else none
  | .advance pid input =>
    match state.process? pid with
    | none => none
    | some process =>
      if input.outcome = .failed then none
      else
        match (process.step settings state.shared input.answer).write with
        | .completeJob (.execute id) token =>
          if (state.shared.withdrawalQueue.held (.execute id) token).isSome then some id
          else none
        | .failJob (.execute id) token =>
          if (state.shared.withdrawalQueue.held (.execute id) token).any
              JobQueue.Job.exhausted then some id
          else none
        | _ => none
  | _ => none

/-- The withdrawals that a poll in progress has dealt with. -/
def Process.passed : Process → List WithdrawalId
  | .poll _ (.check passed _ _) | .poll _ (.add passed _ _) | .poll _ (.done passed) => passed
  | _ => []

/-- A status update to 'approved' finds no ended job of the withdrawal in the queue,
and an unfinished one if a poll in progress has dealt with the withdrawal. -/
def approvesQueued (settings : Settings) (state : State) (action : Action) : Bool :=
  match setsStatus settings state action with
  | some (_, id, .approved) =>
    !decide (state.shared.withdrawalQueue.Finished (.execute id)) &&
      (decide (state.shared.withdrawalQueue.Live (.execute id)) ||
        state.every fun _ process => id ∉ process.passed)
  | _ => true

/-- No execute job ends while its withdrawal is 'approved'. -/
def jobsOutlast (settings : Settings) (state : State) (action : Action) : Bool :=
  (endsJob settings state action).all fun id => state.shared.status? id ≠ some .approved

/-- The condition on the runs of approvals and jobs. -/
@[reducible] def JobsOrdered (settings : Settings) (state : State) (action : Action) : Prop :=
  approvesQueued settings state action = true ∧ jobsOutlast settings state action = true

/-! ## The queue -/

variable {id : WithdrawalId}

/-- A statement that does not end the job of a withdrawal keeps it. -/
theorem keepsJob_apply {shared after : Shared} {write : Write}
    (applied : write.apply shared = some after)
    (completes : ∀ token, write = .completeJob (.execute id) token →
      shared.withdrawalQueue.held (.execute id) token = none)
    (fails : ∀ token, write = .failJob (.execute id) token →
      (shared.withdrawalQueue.held (.execute id) token).any JobQueue.Job.exhausted = false) :
    shared.withdrawalQueue.KeepsJob after.withdrawalQueue (.execute id) := by
  cases write with
  | addExecute other =>
    cases applied
    exact JobQueue.keepsJob_add _ rfl
  | completeJob job token =>
    cases applied
    apply JobQueue.keepsJob_complete
    rintro held rfl
    rw [completes token rfl] at held
    cases held
  | failJob job token =>
    cases applied
    apply JobQueue.keepsJob_fail
    rintro exhausted rfl
    rw [fails token rfl] at exhausted
    cases exhausted
  | insertOperation operation =>
    simp only [Write.apply] at applied
    split at applied
    · cases applied
    · cases applied
      exact .refl _ _
  | skip | setStatus | setTransaction | signOperation | expireOperation | broadcast | addConfirm
  | completeConfirm | failConfirm =>
    cases applied
    exact .refl _ _

variable {settings : Settings} {state : State} {input : Input} {after : Shared}
  {process : Option Process}

/-- A step that does not end the job of a withdrawal keeps it. -/
theorem keepsJob_advance {pid : Nat} {before : Process} (running : state.process? pid = some before)
    (moved : (services settings).next state.shared before input = some (after, process))
    (other : endsJob settings state (.advance pid input) ≠ some id) :
    state.shared.withdrawalQueue.KeepsJob after.withdrawalQueue (.execute id) := by
  obtain rfl | ⟨reported, applied⟩ := (perform_cases moved).shared_cases
  · exact .refl _ _
  · apply keepsJob_apply applied
    · intro token write
      by_contra held
      have present := Option.isSome_iff_ne_none.mpr held
      simp [endsJob, running, reported, write, present] at other
    · intro token write
      by_contra exhausted
      rw [Bool.not_eq_false] at exhausted
      simp [endsJob, running, reported, write, exhausted] at other

/-- What begins from outside keeps a job that it does not end. -/
theorem keepsJob_start {settings : Settings} {state : State} {begun : Start} {after : Shared}
    {process : Option Process} {id : WithdrawalId}
    (started : start state.shared begun = some (after, process))
    (other : endsJob settings state (.launch begun) ≠ some id) :
    state.shared.withdrawalQueue.KeepsJob after.withdrawalQueue (.execute id) := by
  cases begun with
  | create request isRejected =>
    simp only [start] at started
    split at started
    · cases started
    · cases started
      exact .refl _ _
  | poll =>
    cases started
    exact JobQueue.keepsJob_add _ rfl
  | execute job =>
    simp only [start] at started
    split at started
    · split at started
      · cases started
        exact JobQueue.keepsJob_move _ rfl rfl
      · cases started
    · cases started
  | confirm job =>
    simp only [start] at started
    split at started
    · split at started
      · cases started
        exact .refl _ _
      · cases started
    · cases started
  | promote job =>
    cases started
    exact JobQueue.keepsJob_move _ rfl rfl
  | stall job token =>
    cases started
    exact JobQueue.keepsJob_move _ rfl rfl
  | stallOut job token =>
    cases started
    apply JobQueue.keepsJob_stallOut
    rintro held rfl
    simp [endsJob, held] at other
  | approve | cancel | submit | expireStale | promoteConfirm | stallConfirm | stallOutConfirm =>
    cases started
    exact .refl _ _

/-- A status update ends no job. -/
theorem endsJob_of_setsStatus {pid : Nat} {process : Process} {update : Nat × WithdrawalId × Status}
    (running : state.process? pid = some process)
    (sets : setsStatus settings state (.advance pid input) = some update) :
    endsJob settings state (.advance pid input) = none := by
  obtain ⟨owner, id, status⟩ := update
  obtain ⟨_, _, _, write, _, _⟩ := write_of_setsStatus running sets
  simp [endsJob, running, write]

/-! ## The loop of a poll -/

theorem passed_of_pollNext {run : Nat} {passed ids : List WithdrawalId} {point : Process}
    (continued : pollNext run passed ids = some point) : point.passed = passed := by
  obtain ⟨_, rfl⟩ | ⟨_, _, _, rfl⟩ := pollNext_some continued
  · rfl
  · rfl

/-- A poll deals with a withdrawal when it finds a job of it or has added one. -/
theorem passed_of_continuesAt {shared : Shared} {answer : Answer} {before point : Process}
    (continues : (before.step settings shared answer).ContinuesAt point)
    (passed : id ∈ point.passed) :
    id ∈ before.passed ∨ (shared.withdrawalQueue.getJob (.execute id)).isSome ∨
      ((before.step settings shared answer).write = .addExecute id ∧
        (before.step settings shared answer).thrown ≠ some point) := by
  cases sameCall_of_continuesAt continues with
  | poll run first second =>
    cases first with
    | select =>
      obtain continued | continued := continues
      · rw [passed_of_pollNext continued] at passed
        cases passed
      · cases continued
        cases passed
    | check done next rest =>
      obtain continued | continued := continues
      · simp only [Process.step, pollApprovedWithdrawals] at continued
        split at continued
        · rename_i found
          rw [passed_of_pollNext continued, List.mem_append, List.mem_singleton] at passed
          obtain old | rfl := passed
          · exact Or.inl old
          · exact Or.inr (Or.inl found)
        · cases continued
          exact Or.inl passed
      · cases continued
        cases passed
    | add done next rest =>
      obtain continued | continued := continues
      · have unthrown : some (Process.poll run .fail) ≠ some (.poll run second) := by
          rintro same
          cases same
          cases passed
        rw [passed_of_pollNext continued, List.mem_append, List.mem_singleton] at passed
        obtain old | rfl := passed
        · exact Or.inl old
        · exact Or.inr (Or.inr ⟨rfl, unthrown⟩)
      · cases continued
        cases passed
    | done | fail =>
      obtain continued | continued := continues
      · cases continued
      · cases continued
  | approve | cancel | submit | expire | execute | confirm => cases passed

theorem Process.Fresh.passed {process : Process} (fresh : process.Fresh) : process.passed = [] := by
  cases fresh <;> rfl

/-- No approved withdrawal has an ended job in the queue, and those a poll has dealt
with have an unfinished one. -/
def queued : ProofOutline Shared Process where
  Global shared := ∀ id, shared.status? id = some .approved →
    ¬ shared.withdrawalQueue.Finished (.execute id)
  Local shared process := ∀ id ∈ process.passed, shared.status? id = some .approved →
    shared.withdrawalQueue.Live (.execute id)
  Apart _ _ := True
  apart_symm := fun _ => trivial

/-- What an allowed step finds of a withdrawal that is 'approved' after it. -/
theorem queued_before {pid : Nat} {before : Process} (holds : queued.Holds state)
    (allowed : JobsOrdered settings state (.advance pid input))
    (running : state.process? pid = some before)
    (moved : (services settings).next state.shared before input = some (after, process))
    (approved : after.status? id = some .approved) :
    state.shared.withdrawalQueue.KeepsJob after.withdrawalQueue (.execute id) ∧
      ¬ state.shared.withdrawalQueue.Finished (.execute id) ∧
      ∀ other point, state.process? other = some point → id ∈ point.passed →
        state.shared.withdrawalQueue.Live (.execute id) := by
  obtain same | ⟨status, sets, set⟩ := status?_advance running moved id
  · have current : state.shared.status? id = some .approved := same ▸ approved
    refine ⟨keepsJob_advance running moved ?_, holds.global id current, ?_⟩
    · intro ends
      have outlasts := allowed.2
      simp [jobsOutlast, ends, current] at outlasts
    · exact fun other point found passed => holds.locals other point found id passed current
  · rw [set] at approved
    cases approved
    have queuedThen := allowed.1
    simp only [approvesQueued, sets, Bool.and_eq_true, Bool.not_eq_true', decide_eq_false_iff_not,
      Bool.or_eq_true, decide_eq_true_eq] at queuedThen
    obtain ⟨unfinished, live | unpassed⟩ := queuedThen
    · refine ⟨keepsJob_advance running moved ?_, unfinished, fun _ _ _ _ => live⟩
      simp [endsJob_of_setsStatus running sets]
    · refine ⟨keepsJob_advance running moved ?_, unfinished, ?_⟩
      · simp [endsJob_of_setsStatus running sets]
      · intro other point found passed
        have absent := PoolState.every_apply unpassed found
        exact absurd passed (of_decide_eq_true absent)

/-- Every allowed step keeps the outline. -/
theorem queued_keeps {pid : Nat} {before : Process} (holds : queued.Holds state)
    (allowed : JobsOrdered settings state (.advance pid input))
    (running : state.process? pid = some before)
    (moved : (services settings).next state.shared before input = some (after, process)) :
    queued.Keeps state pid after process := by
  have performed := perform_cases moved
  constructor
  · intro id approved finished
    obtain ⟨keeps, unfinished, _⟩ := queued_before holds allowed running moved approved
    exact unfinished (keeps.finished finished)
  · intro point continued id passed approved
    subst continued
    obtain ⟨keeps, unfinished, passedLive⟩ := queued_before holds allowed running moved approved
    obtain old | found | ⟨write, unthrown⟩ := passed_of_continuesAt performed.continuesAt passed
    · exact keeps.live (passedLive pid before running old)
    · obtain live | finished := JobQueue.live_or_finished found
      · exact keeps.live live
      · exact absurd finished unfinished
    · obtain ⟨_, applied⟩ | thrown := performed.process_cases
      · rw [write] at applied
        cases applied
        have job : (executeJob id).state.finished = false := rfl
        obtain live | finished := JobQueue.live_or_finished_add job
        · exact live
        · exact absurd finished unfinished
      · exact absurd thrown.symm unthrown
  · intro other point _ found id passed approved
    obtain ⟨keeps, _, passedLive⟩ := queued_before holds allowed running moved approved
    exact keeps.live (passedLive other point found passed)
  · exact fun _ _ _ _ _ _ => trivial

/-- What begins from outside keeps the outline. -/
theorem queued_launch {begun : Start} (holds : queued.Holds state)
    (allowed : JobsOrdered settings state (.launch begun))
    (started : start state.shared begun = some (after, process)) :
    queued.Keeps state state.processes.length after process := by
  have before : ∀ id, after.status? id = some .approved →
      state.shared.status? id = some .approved ∧
        state.shared.withdrawalQueue.KeepsJob after.withdrawalQueue (.execute id) := by
    intro id approved
    have current := status?_of_start started approved (by decide)
    refine ⟨current, @keepsJob_start settings _ _ _ _ _ started ?_⟩
    intro ends
    have outlasts := allowed.2
    simp [jobsOutlast, ends, current] at outlasts
  constructor
  · intro id approved finished
    obtain ⟨current, keeps⟩ := before id approved
    exact holds.global id current (keeps.finished finished)
  · intro point continued id passed
    subst continued
    rw [(start_fresh started).passed] at passed
    cases passed
  · intro other point _ found id passed approved
    obtain ⟨current, keeps⟩ := before id approved
    exact keeps.live (holds.locals other point found id passed current)
  · exact fun _ _ _ _ _ _ => trivial

theorem queued_reachable
    (reached : (services settings).system.Reachable (JobsOrdered settings) state) :
    queued.Holds state := by
  refine ProofOutline.reachable reached ?_ ?_ ?_
  · rintro shared rfl id approved
    cases approved
  · intro state begun shared process holds allowed started
    exact queued_launch holds allowed started
  · intro state pid before input shared process holds allowed running moved
    exact queued_keeps holds allowed running moved

/-! ## The selection of a poll -/

/-- The withdrawals that a poll has selected. -/
def PollPoint.selection : PollPoint → Option (List WithdrawalId)
  | .check passed id rest | .add passed id rest => some (passed ++ id :: rest)
  | .done passed => some passed
  | .select | .fail => none

/-- A poll that goes through a selection, unless it has failed. -/
def Process.Polls (run : Nat) (selection : List WithdrawalId) (process : Process) : Prop :=
  ∃ point, process = .poll run point ∧ (point.selection = some selection ∨ point = .fail)

theorem polls_of_pollNext {run : Nat} {passed ids : List WithdrawalId} {point : Process}
    (continued : pollNext run passed ids = some point) : point.Polls run (passed ++ ids) := by
  obtain ⟨rfl, rfl⟩ | ⟨id, rest, rfl, rfl⟩ := pollNext_some continued
  · exact ⟨_, rfl, Or.inl (by simp [PollPoint.selection])⟩
  · exact ⟨_, rfl, Or.inl rfl⟩

/-- The loop of a poll keeps its selection. -/
theorem polls_of_continuesAt {shared : Shared} {answer : Answer} {before point : Process}
    {run : Nat} {selection : List WithdrawalId} (polls : before.Polls run selection)
    (continues : (before.step settings shared answer).ContinuesAt point) :
    point.Polls run selection := by
  obtain ⟨first, rfl, selected⟩ := polls
  cases first with
  | check passed id rest =>
    obtain same | failed := selected
    · cases same
      obtain continued | continued := continues
      · simp only [Process.step, pollApprovedWithdrawals] at continued
        split at continued
        · have goesOn := polls_of_pollNext continued
          rwa [List.append_assoc] at goesOn
        · cases continued
          exact ⟨_, rfl, Or.inl rfl⟩
      · cases continued
        exact ⟨_, rfl, Or.inr rfl⟩
    · cases failed
  | add passed id rest =>
    obtain same | failed := selected
    · cases same
      obtain continued | continued := continues
      · have goesOn := polls_of_pollNext continued
        rwa [List.append_assoc] at goesOn
      · cases continued
        exact ⟨_, rfl, Or.inr rfl⟩
    · cases failed
  | done passed =>
    obtain continued | continued := continues
    · cases continued
    · cases continued
  | fail =>
    obtain continued | continued := continues
    · cases continued
    · cases continued
  | select =>
    obtain same | failed := selected
    · cases same
    · cases failed

/-- In every run that meets the condition, each withdrawal that a poll selected and
that is still 'approved' at its end has a waiting, delayed or active job. -/
theorem selected_has_live_job {settings : Settings} {before selected later : State}
    {pid run : Nat} {input : Input} {passed : List WithdrawalId} {id : WithdrawalId}
    (reached : (services settings).system.Reachable (JobsOrdered settings) before)
    (polling : before.process? pid = some (.poll run .select))
    (allowed : JobsOrdered settings before (.advance pid input))
    (selects : (services settings).system.step before (.advance pid input) = some selected)
    (steps : (services settings).system.Steps (JobsOrdered settings) selected later)
    (ended : later.process? pid = some (.poll run (.done passed)))
    (member : id ∈ selectApproved before.shared)
    (approved : later.shared.status? id = some .approved) :
    later.shared.withdrawalQueue.Live (.execute id) := by
  have holds : queued.Holds later :=
    queued_reachable ((reached.append (.step .refl allowed selects)).append steps)
  obtain ⟨process, shared, point, running, moved, rfl⟩ := ProcessPool.step_advance selects
  rw [polling] at running
  cases running
  have starts : ∀ process, (before.update shared pid point).process? pid = some process →
      process.Polls run (selectApproved before.shared) := by
    intro process running
    rw [PoolState.process?_update_self polling] at running
    subst running
    obtain continued | continued := (perform_cases moved).continuesAt
    · exact polls_of_pollNext continued
    · cases continued
      exact ⟨_, rfl, Or.inr rfl⟩
  have within : pid < (before.update shared pid point).processes.length := by
    simpa [PoolState.update] using PoolState.lt_of_process? polling
  have polls : ∀ process, later.process? pid = some process →
      process.Polls run (selectApproved before.shared) :=
    ProcessPool.process_invariant steps within starts fun _ _ _ _ _ polls advanced =>
      polls_of_continuesAt polls (perform_cases advanced).continuesAt
  obtain ⟨last, same, kept | failed⟩ := polls _ ended
  · cases same
    have all : passed = selectApproved before.shared := Option.some.inj kept
    exact holds.locals pid _ ended id (all ▸ member) approved
  · subst failed
    cases same

/-- Withdrawal 1 is approved by process 1, and process 2 begins to poll. -/
def approvedBeforePoll : List Action :=
  [.launch (.create (sampleRequest 1) false), .launch (.approve 1 1)] ++ advances 1 2 ++
    [.launch .poll]

/-- Process `pid` is about to make its selection. -/
def selecting (pid run : Nat) (state : State) : Bool :=
  match state.process? pid with
  | some (.poll token .select) => token = run
  | _ => false

/-- Process `pid` has dealt with withdrawal 1. -/
def dealtWith (pid run : Nat) (state : State) : Bool :=
  match state.process? pid with
  | some (.poll token (.done [1])) => token = run
  | _ => false

theorem selecting_eq_true {pid run : Nat} (passed : selecting pid run state = true) :
    state.process? pid = some (.poll run .select) := by
  unfold selecting at passed
  split at passed
  · rename_i found
    rw [found, of_decide_eq_true passed]
  · cases passed

theorem dealtWith_eq_true {pid run : Nat} (passed : dealtWith pid run state = true) :
    state.process? pid = some (.poll run (.done [1])) := by
  unfold dealtWith at passed
  split at passed
  · rename_i found
    rw [found, of_decide_eq_true passed]
  · cases passed

/-- From a state where process `pid` is about to poll, one step selects withdrawal 1
and `count` more deal with it, while it stays 'approved'. -/
def pollsApproved (Allowed : State → Action → Prop)
    [∀ state action, Decidable (Allowed state action)] (pid run count : Nat)
    (final : State → Bool) (before : State) : Bool :=
  let selects : Action := answers pid .nothing
  selecting pid run before && (selectApproved before.shared).elem 1 &&
    decide (Allowed before selects) &&
    ((services sampleSettings).system.step before selects).any fun selected =>
      ((services sampleSettings).system.run Allowed selected (advances pid count)).any fun later =>
        dealtWith pid run later && decide (later.shared.status? 1 = some .approved) && final later

/-- Such a replay is a run of a poll. -/
theorem pollsApproved_eq_true {Allowed : State → Action → Prop}
    [∀ state action, Decidable (Allowed state action)] {pid run count : Nat}
    {final : State → Bool} {before : State}
    (passed : pollsApproved Allowed pid run count final before = true) :
    ∃ selected later, before.process? pid = some (.poll run .select) ∧
      1 ∈ selectApproved before.shared ∧ Allowed before (answers pid .nothing) ∧
      (services sampleSettings).system.step before (answers pid .nothing) = some selected ∧
      (services sampleSettings).system.Steps Allowed selected later ∧
      later.process? pid = some (.poll run (.done [1])) ∧
      later.shared.status? 1 = some .approved ∧ final later = true := by
  simp only [pollsApproved, Bool.and_eq_true, decide_eq_true_eq, Option.any_eq_true,
    List.elem_eq_mem] at passed
  obtain ⟨⟨⟨begins, member⟩, allowed⟩, selected, selects, later, replayed, ⟨ends, approved⟩, last⟩ :=
    passed
  exact ⟨selected, later, selecting_eq_true begins, member, allowed, selects, run_steps replayed,
    dealtWith_eq_true ends, approved, last⟩

theorem selected_has_live_job_sample :
    ∃ later : State, later.shared.status? 1 = some .approved ∧
      later.shared.withdrawalQueue.Live (.execute 1) := by
  have replayed : ∃ before,
      (services sampleSettings).system.Reachable (JobsOrdered sampleSettings) before ∧
        pollsApproved (JobsOrdered sampleSettings) 2 0 2 (fun _ => true) before = true :=
    exists_reachable_of_run (idleState_initial sampleSettings) approvedBeforePoll
      (pollsApproved (JobsOrdered sampleSettings) 2 0 2 fun _ => true) (by decide +kernel)
  obtain ⟨before, reached, passed⟩ := replayed
  obtain ⟨selected, later, polling, member, allowed, selects, steps, ended, approved, _⟩ :=
    pollsApproved_eq_true passed
  exact ⟨later, approved,
    selected_has_live_job reached polling allowed selects steps ended member approved⟩

/-- The job of withdrawal 1 finds it 'pending_cosign' and completes; the client signs,
and process 5 begins to poll. -/
def claimedBeforeSigned : List Action :=
  [.launch (.create (sampleRequest 2) false), .launch (.approve 1 1)] ++ advances 1 2 ++
    [.launch .poll] ++ advances 2 4 ++ advances 1 1 ++ [answers 1 (.coSign sampleCoSignInputs)] ++
    advances 1 3 ++ [.launch (.execute 1)] ++ advances 3 2 ++
    [.launch (.submit 1 1 [] 1700000000000)] ++ advances 4 4 ++ [.launch .poll]

/-- The poll skips the withdrawal, which nothing will execute. -/
theorem selected_without_live_job :
    ¬ ∀ (settings : Settings) (before selected later : State) (pid run : Nat) (input : Input)
        (passed : List WithdrawalId) (id : WithdrawalId),
      (services settings).system.Reachable Unrestricted before →
        before.process? pid = some (.poll run .select) →
          (services settings).system.step before (.advance pid input) = some selected →
            (services settings).system.Steps Unrestricted selected later →
              later.process? pid = some (.poll run (.done passed)) →
                id ∈ selectApproved before.shared →
                  later.shared.status? id = some .approved →
                    later.shared.withdrawalQueue.Live (.execute id) := by
  intro queuedAlways
  have replayed : ∃ before,
      (services sampleSettings).system.Reachable Unrestricted before ∧
        pollsApproved Unrestricted 5 2 1
          (fun later => !decide (later.shared.withdrawalQueue.Live (.execute 1))) before = true :=
    exists_reachable_of_run (idleState_initial sampleSettings) claimedBeforeSigned
      (pollsApproved Unrestricted 5 2 1
        fun later => !decide (later.shared.withdrawalQueue.Live (.execute 1))) (by decide +kernel)
  obtain ⟨before, reached, passed⟩ := replayed
  obtain ⟨selected, later, polling, member, _, selects, steps, ended, approved, last⟩ :=
    pollsApproved_eq_true passed
  have live := queuedAlways sampleSettings before selected later 5 2 _ [1] 1 reached polling selects
    steps ended member approved
  simp [live] at last

end CryptoVaultHub.Withdrawal
