import Mathlib

/-!
# Job queues with retention

A job has a fixed identifier, waits (perhaps delayed), is active under the lock
token of a worker, and ends completed or failed. Finished jobs stay in the queue
until enough newer ones have ended the same way, and while a job is in the queue
no other job of its identifier can be added.

`Live` and `Finished` say whether a queue has an unfinished or a finished job of
an identifier. The lemmas give the effect of each operation on them.
-/

namespace CryptoVaultHub

open List

inductive JobState where
  | waiting
  | delayed
  | active (token : Nat)
  | completed
  | failed
deriving DecidableEq

/-- A job in one of these states is never run again. -/
def JobState.finished : JobState → Bool
  | .completed | .failed => true
  | .waiting | .delayed | .active _ => false

structure Job (Id Data : Type) where
  id : Id
  data : Data
  attempts : Nat
  attemptsMade : Nat
  state : JobState

/-- A queue; among its finished jobs the last to end comes first. -/
structure JobQueue (Id Data : Type) where
  jobs : List (Job Id Data)

namespace JobQueue

variable {Id Data : Type} [DecidableEq Id]

/-- The queue without jobs. -/
def empty : JobQueue Id Data := ⟨[]⟩

/-- `getJob`, which also finds finished jobs. -/
def getJob (queue : JobQueue Id Data) (id : Id) : Option (Job Id Data) :=
  queue.jobs.find? fun job => job.id = id

/-- `add`: nothing happens while a job of the identifier is in the queue. -/
def add (queue : JobQueue Id Data) (job : Job Id Data) : JobQueue Id Data :=
  if (queue.getJob job.id).isSome then queue else ⟨queue.jobs ++ [job]⟩

/-- Change the state of the jobs of an identifier that are in a given state. -/
def move (queue : JobQueue Id Data) (id : Id) (source target : JobState) : JobQueue Id Data :=
  ⟨queue.jobs.map fun job =>
    if job.id = id ∧ job.state = source then { job with state := target } else job⟩

/-- Only the first `keep` jobs in a final state stay. -/
def retain (final : JobState) : Nat → List (Job Id Data) → List (Job Id Data)
  | _, [] => []
  | keep, job :: rest =>
    if job.state = final then
      match keep with
      | 0 => retain final 0 rest
      | keep + 1 => job :: retain final keep rest
    else job :: retain final keep rest

/-- End a job in a final state and drop the oldest that ended so. -/
def finish (queue : JobQueue Id Data) (job : Job Id Data) (final : JobState) (keep : Nat) :
    JobQueue Id Data :=
  ⟨retain final keep
    ({ job with state := final } :: queue.jobs.filter fun other => other.id ≠ job.id)⟩

/-- The job a worker holds the lock of. -/
def held (queue : JobQueue Id Data) (id : Id) (token : Nat) : Option (Job Id Data) :=
  (queue.getJob id).filter fun job => job.state = .active token

/-- The worker's function returned. -/
def complete (queue : JobQueue Id Data) (id : Id) (token keep : Nat) : JobQueue Id Data :=
  match queue.held id token with
  | none => queue
  | some job => queue.finish job .completed keep

/-- Whether another failure ends a job. -/
def Job.exhausted (job : Job Id Data) : Bool := job.attempts ≤ job.attemptsMade + 1

/-- The worker's function threw: retry after a delay, or end the job. -/
def fail (queue : JobQueue Id Data) (id : Id) (token keep : Nat) : JobQueue Id Data :=
  match queue.held id token with
  | none => queue
  | some job =>
    let counted := { job with attemptsMade := job.attemptsMade + 1 }
    if Job.exhausted job then queue.finish counted .failed keep
    else ⟨queue.jobs.map fun other =>
      if other.id = id then { counted with state := .delayed } else other⟩

/-- The lock of an active job ran out too often. -/
def stallOut (queue : JobQueue Id Data) (id : Id) (token keep : Nat) : JobQueue Id Data :=
  match queue.held id token with
  | none => queue
  | some job => queue.finish job .failed keep

/-- The queue has an unfinished job of the identifier. -/
@[reducible] def Live (queue : JobQueue Id Data) (id : Id) : Prop :=
  ∃ job ∈ queue.jobs, job.id = id ∧ job.state.finished = false

/-- The queue has a finished job of the identifier. -/
@[reducible] def Finished (queue : JobQueue Id Data) (id : Id) : Prop :=
  ∃ job ∈ queue.jobs, job.id = id ∧ job.state.finished = true

/-! ## Effects on live and finished jobs -/

/-- An operation keeps a live job of an identifier and finishes none. -/
structure KeepsJob (before after : JobQueue Id Data) (id : Id) : Prop where
  live : before.Live id → after.Live id
  finished : after.Finished id → before.Finished id

omit [DecidableEq Id] in
theorem KeepsJob.refl (queue : JobQueue Id Data) (id : Id) : queue.KeepsJob queue id :=
  ⟨fun live => live, fun finished => finished⟩

variable {queue : JobQueue Id Data} {id : Id} {job : Job Id Data}

theorem getJob_some (found : queue.getJob id = some job) : job ∈ queue.jobs ∧ job.id = id := by
  have named := find?_some found
  exact ⟨mem_of_find?_eq_some found, of_decide_eq_true named⟩

/-- A job that is found is live or finished. -/
theorem live_or_finished (found : (queue.getJob id).isSome) :
    queue.Live id ∨ queue.Finished id := by
  obtain ⟨job, exists_⟩ := Option.isSome_iff_exists.mp found
  obtain ⟨member, named⟩ := getJob_some exists_
  cases ended : job.state.finished with
  | true => exact Or.inr ⟨job, member, named, ended⟩
  | false => exact Or.inl ⟨job, member, named, ended⟩

/-- Adding an unfinished job finishes none. -/
theorem keepsJob_add (id : Id) (unfinished : job.state.finished = false) :
    queue.KeepsJob (queue.add job) id := by
  unfold JobQueue.add
  split
  · exact .refl queue id
  · constructor
    · rintro ⟨other, member, named, runs⟩
      exact ⟨other, mem_append_left _ member, named, runs⟩
    · rintro ⟨other, member, named, ended⟩
      obtain old | new := mem_append.mp member
      · exact ⟨other, old, named, ended⟩
      · rw [mem_singleton.mp new, unfinished] at ended
        cases ended

/-- After adding a job there is one of its identifier. -/
theorem live_or_finished_add (unfinished : job.state.finished = false) :
    (queue.add job).Live job.id ∨ queue.Finished job.id := by
  unfold JobQueue.add
  split
  · rename_i found
    exact live_or_finished found
  · exact Or.inl ⟨job, mem_append_right _ (mem_singleton_self _), rfl, unfinished⟩

/-- Moving a job between unfinished states. -/
theorem keepsJob_move {moved : Id} {source target : JobState} (id : Id)
    (sourceRuns : source.finished = false) (targetRuns : target.finished = false) :
    queue.KeepsJob (queue.move moved source target) id := by
  have keeps : ∀ job : Job Id Data,
      (if job.id = moved ∧ job.state = source then { job with state := target } else job).id =
          job.id ∧
        (if job.id = moved ∧ job.state = source then { job with state := target }
          else job).state.finished = job.state.finished := by
    intro job
    split
    · rename_i matched
      exact ⟨rfl, by rw [matched.2, sourceRuns, targetRuns]⟩
    · exact ⟨rfl, rfl⟩
  constructor
  · rintro ⟨job, member, named, runs⟩
    obtain ⟨sameId, sameState⟩ := keeps job
    exact ⟨_, mem_map_of_mem member, sameId.trans named, sameState.trans runs⟩
  · rintro ⟨changed, member, named, ended⟩
    obtain ⟨job, inQueue, rfl⟩ := mem_map.mp member
    obtain ⟨sameId, sameState⟩ := keeps job
    exact ⟨job, inQueue, sameId ▸ named, sameState ▸ ended⟩

variable {final : JobState} {keep : Nat}

omit [DecidableEq Id] in
theorem mem_of_mem_retain {jobs : List (Job Id Data)} (member : job ∈ retain final keep jobs) :
    job ∈ jobs := by
  induction jobs generalizing keep with
  | nil => simp [retain] at member
  | cons first rest ih =>
    unfold retain at member
    split at member
    · split at member
      · exact mem_cons_of_mem _ (ih member)
      · obtain rfl | later := mem_cons.mp member
        · exact mem_cons_self
        · exact mem_cons_of_mem _ (ih later)
    · obtain rfl | later := mem_cons.mp member
      · exact mem_cons_self
      · exact mem_cons_of_mem _ (ih later)

omit [DecidableEq Id] in
/-- Retention only drops jobs in the final state. -/
theorem mem_retain {jobs : List (Job Id Data)} (member : job ∈ jobs) (other : job.state ≠ final) :
    job ∈ retain final keep jobs := by
  induction jobs generalizing keep with
  | nil => cases member
  | cons first rest ih =>
    unfold retain
    obtain rfl | later := mem_cons.mp member
    · simp [other]
    · split
      · split
        · exact ih later
        · exact mem_cons_of_mem _ (ih later)
      · exact mem_cons_of_mem _ (ih later)

/-- Ending a job keeps the jobs of other identifiers. -/
theorem keepsJob_finish (other : id ≠ job.id) (ends : final.finished = true) :
    queue.KeepsJob (queue.finish job final keep) id := by
  constructor
  · rintro ⟨kept, member, named, runs⟩
    refine ⟨kept, mem_retain (mem_cons_of_mem _ (mem_filter.mpr ⟨member, ?_⟩)) ?_, named,
      runs⟩
    · simpa [named] using other
    · intro same
      rw [same, ends] at runs
      cases runs
  · rintro ⟨ended, member, named, state⟩
    obtain new | old := mem_cons.mp (mem_of_mem_retain member)
    · subst new
      exact absurd named.symm other
    · exact ⟨ended, (mem_filter.mp old).1, named, state⟩

variable {token : Nat}

theorem held_id (found : queue.held id token = some job) : job.id = id := by
  obtain ⟨inQueue, -⟩ := Option.filter_eq_some_iff.mp found
  exact (getJob_some inQueue).2

theorem keepsJob_complete {id ended : Id} {token keep : Nat}
    (apart : (queue.held ended token).isSome → id ≠ ended) :
    queue.KeepsJob (queue.complete ended token keep) id := by
  unfold complete
  split
  · exact .refl queue id
  · rename_i job found
    apply keepsJob_finish
    · rw [held_id found]
      exact apart (by simp [found])
    · rfl

theorem keepsJob_stallOut {id ended : Id} {token keep : Nat}
    (apart : (queue.held ended token).isSome → id ≠ ended) :
    queue.KeepsJob (queue.stallOut ended token keep) id := by
  unfold stallOut
  split
  · exact .refl queue id
  · rename_i job found
    apply keepsJob_finish
    · rw [held_id found]
      exact apart (by simp [found])
    · rfl

/-- A failure with attempts left keeps the job, too. -/
theorem keepsJob_fail {id ended : Id} {token keep : Nat}
    (apart : (queue.held ended token).any Job.exhausted = true → id ≠ ended) :
    queue.KeepsJob (queue.fail ended token keep) id := by
  unfold fail
  split
  · exact .refl queue id
  · rename_i job found
    have named := held_id found
    dsimp only
    split
    · rename_i exhausted
      apply keepsJob_finish
      · rw [named]
        exact apart (by simp [found, exhausted])
      · rfl
    · constructor
      · rintro ⟨other, member, sameId, runs⟩
        by_cases retried : other.id = ended
        · refine ⟨_, mem_map_of_mem member, ?_⟩
          rw [if_pos retried]
          exact ⟨named.trans (retried.symm.trans sameId), rfl⟩
        · refine ⟨_, mem_map_of_mem member, ?_⟩
          rw [if_neg retried]
          exact ⟨sameId, runs⟩
      · rintro ⟨changed, member, sameId, state⟩
        obtain ⟨other, inQueue, rfl⟩ := mem_map.mp member
        by_cases retried : other.id = ended
        · rw [if_pos retried] at state
          cases state
        · rw [if_neg retried] at sameId state
          exact ⟨other, inQueue, sameId, state⟩

/-! ## The jobs of a queue -/

/-- Where identifiers are distinct, `getJob` finds each job. -/
theorem getJob_of_mem (distinct : (queue.jobs.map Job.id).Nodup) (inside : job ∈ queue.jobs) :
    queue.getJob job.id = some job := by
  cases search : queue.getJob job.id with
  | none => simpa using find?_eq_none.mp search job inside
  | some other =>
    obtain ⟨inQueue, same⟩ := getJob_some search
    rw [inj_on_of_nodup_map distinct inQueue inside same]

/-- A job of a new identifier is added behind the others. -/
theorem jobs_add (fresh : ∀ other ∈ queue.jobs, other.id ≠ job.id) :
    (queue.add job).jobs = queue.jobs ++ [job] := by
  have absent : queue.getJob job.id = none := by
    apply find?_eq_none.mpr
    intro other member same
    exact fresh other member (of_decide_eq_true same)
  simp [add, absent]

omit [DecidableEq Id] in
theorem retain_sublist (final : JobState) (keep : Nat) (jobs : List (Job Id Data)) :
    (retain final keep jobs).Sublist jobs := by
  induction jobs generalizing keep with
  | nil => exact .slnil
  | cons first rest ih =>
    unfold retain
    split
    · split
      · exact .cons _ (ih 0)
      · exact .cons_cons _ (ih _)
    · exact .cons_cons _ (ih keep)

/-- The jobs that have ended a job: the others, and the job in its final state. -/
theorem mem_finish {job other : Job Id Data} (member : other ∈ (queue.finish job final keep).jobs) :
    (other ∈ queue.jobs ∧ other.id ≠ job.id) ∨ other = { job with state := final } := by
  obtain rfl | old := mem_cons.mp (mem_of_mem_retain member)
  · exact .inr rfl
  · obtain ⟨inside, apart⟩ := mem_filter.mp old
    exact .inl ⟨inside, of_decide_eq_true apart⟩

theorem nodup_finish (distinct : (queue.jobs.map Job.id).Nodup) :
    ((queue.finish job final keep).jobs.map Job.id).Nodup := by
  have shorter := (retain_sublist final keep ({ job with state := final } ::
    queue.jobs.filter fun other => other.id ≠ job.id)).map Job.id
  apply List.Nodup.sublist shorter
  rw [map_cons]
  apply nodup_cons.mpr
  constructor
  · intro listed
    obtain ⟨other, inside, same⟩ := mem_map.mp listed
    exact of_decide_eq_true (mem_filter.mp inside).2 same
  · exact distinct.sublist (filter_sublist.map Job.id)

variable {other : Job Id Data}

/-- `move` changes states only. -/
theorem mem_move {moved : Id} {source target : JobState}
    (member : other ∈ (queue.move moved source target).jobs) :
    (other ∈ queue.jobs ∧ ¬ (other.id = moved ∧ other.state = source)) ∨
      ∃ job ∈ queue.jobs, job.id = moved ∧ job.state = source ∧
        other = { job with state := target } := by
  obtain ⟨job, inside, rfl⟩ := mem_map.mp member
  split
  · rename_i matched
    exact .inr ⟨job, inside, matched.1, matched.2, rfl⟩
  · rename_i unmatched
    exact .inl ⟨inside, unmatched⟩

theorem ids_move (queue : JobQueue Id Data) (moved : Id) (source target : JobState) :
    (queue.move moved source target).jobs.map Job.id = queue.jobs.map Job.id := by
  simp only [move, map_map]
  congr 1
  ext job
  simp only [Function.comp_apply]
  split <;> rfl

/-- The three ways in which a job that a worker holds ends. -/
inductive EndsJob (queue : JobQueue Id Data) (id : Id) (token : Nat) : JobQueue Id Data → Prop where
  | unheld (lost : queue.held id token = none) : EndsJob queue id token queue
  | ended {job ending : Job Id Data} {final : JobState} {keep : Nat}
      (held : queue.held id token = some job) (same : ending.id = job.id)
      (data : ending.data = job.data) (attempts : ending.attempts = job.attempts)
      (ends : final.finished = true) : EndsJob queue id token (queue.finish ending final keep)

theorem endsJob_complete (queue : JobQueue Id Data) (id : Id) (token keep : Nat) :
    queue.EndsJob id token (queue.complete id token keep) := by
  unfold complete
  split
  · rename_i lost
    exact .unheld lost
  · rename_i job held
    exact .ended held rfl rfl rfl rfl

theorem endsJob_stallOut (queue : JobQueue Id Data) (id : Id) (token keep : Nat) :
    queue.EndsJob id token (queue.stallOut id token keep) := by
  unfold stallOut
  split
  · rename_i lost
    exact .unheld lost
  · rename_i job held
    exact .ended held rfl rfl rfl rfl

/-- A job of one attempt fails for good. -/
theorem endsJob_fail (keep : Nat) (once : ∀ job ∈ queue.jobs, job.attempts ≤ 1) :
    queue.EndsJob id token (queue.fail id token keep) := by
  unfold fail
  split
  · rename_i lost
    exact .unheld lost
  · rename_i job held
    obtain ⟨inQueue, _⟩ := Option.filter_eq_some_iff.mp held
    have exhausted : Job.exhausted job = true := by
      have bound := once job (getJob_some inQueue).1
      simp only [Job.exhausted, decide_eq_true_eq]
      omega
    simp only [exhausted, if_true]
    exact .ended held rfl rfl rfl rfl

/-- A job that is ended is among the finished ones, and every other stays what it was. -/
theorem EndsJob.mem {queue after : JobQueue Id Data} (ends : queue.EndsJob id token after)
    (member : other ∈ after.jobs) :
    (other ∈ queue.jobs ∧ ((queue.held id token).isSome → other.id ≠ id)) ∨
      (other.state.finished = true ∧ ∃ job ∈ queue.jobs, job.id = other.id ∧
        job.data = other.data ∧ job.attempts = other.attempts) := by
  cases ends with
  | unheld lost => exact .inl ⟨member, by simp [lost]⟩
  | ended held same data attempts final =>
    have named := held_id held
    obtain ⟨inside, apart⟩ | rfl := mem_finish member
    · exact .inl ⟨inside, fun _ same' => apart (same'.trans (named.symm.trans same.symm))⟩
    · obtain ⟨inQueue, _⟩ := Option.filter_eq_some_iff.mp held
      exact .inr ⟨final, _, (getJob_some inQueue).1, same.symm, data.symm, attempts.symm⟩

theorem EndsJob.nodup {queue after : JobQueue Id Data} (ends : queue.EndsJob id token after)
    (distinct : (queue.jobs.map Job.id).Nodup) : (after.jobs.map Job.id).Nodup := by
  cases ends with
  | unheld => exact distinct
  | ended => exact nodup_finish distinct

/-- Every job that is not ended stays. -/
theorem EndsJob.kept {queue after : JobQueue Id Data} (ends : queue.EndsJob id token after)
    (member : other ∈ queue.jobs) (runs : other.state.finished = false) (apart : other.id ≠ id) :
    other ∈ after.jobs := by
  cases ends with
  | unheld => exact member
  | ended held same data attempts final =>
    apply mem_retain
    · apply mem_cons_of_mem
      apply mem_filter.mpr
      refine ⟨member, ?_⟩
      simp [same, held_id held, apart]
    · intro ended
      rw [ended, final] at runs
      cases runs

theorem mem_move_of_mem (moved : Id) (source target : JobState) (member : job ∈ queue.jobs) :
    (if job.id = moved ∧ job.state = source then { job with state := target } else job) ∈
      (queue.move moved source target).jobs :=
  mem_map_of_mem member

end JobQueue

end CryptoVaultHub
