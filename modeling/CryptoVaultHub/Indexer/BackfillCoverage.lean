import CryptoVaultHub.Indexer.BackfillTasks

/-!
# What a marked block has stored

A sub-batch waits for its tasks, so that a resolved gap has only blocks whose tasks have
ended. What was due when a mark was made is then stored, if each address with transfers
in the blocks was among those looked for.
-/

namespace CryptoVaultHub.Indexer.Backfill

open TransitionSystem

/-! ## One job -/

/-- The tasks have the blocks from `first` up to `stop`. -/
def Covers (tasks : List Task) (first stop : Nat) : Prop :=
  ∀ number, first ≤ number → number < stop → ∃ task ∈ tasks, task.block = number

/-- The blocks that a job has covered at a point. -/
def Job.Covered (job : Job) : Prop :=
  let first := job.data.startBlock
  match job.point with
  | .batch batchStart next tasks =>
    Covers (job.done ++ tasks) first next ∧ next ≤ job.data.batchEnd batchStart + 1
  | .progress batchStart => Covers job.done first (job.data.batchEnd batchStart + 1)
  | .resolve => Covers job.done first (job.data.endBlock + 1)
  | .load | .exceeded | .begin | .fail => True

/-- The tasks of the sub-batch that a job waits for. -/
def Job.running (job : Job) : List Task :=
  match job.point with
  | .batch _ _ tasks => tasks
  | .load | .exceeded | .begin | .progress _ | .resolve | .fail => []

/-- What holds of a job at each of its points. -/
structure Job.Sound (chain : Nat → Block) (shared : Shared) (job : Job) : Prop where
  gap : shared.HasGap job.data
  done : ∀ task ∈ job.done, task.Leaves chain shared []
  running : ∀ task ∈ job.running, task.Sound chain shared
  fresh : job.point = .load ∨ job.point = .begin → job.done = []
  covered : job.Covered

variable {chain : Nat → Block} {shared after : Shared} {job : Job}

theorem Job.Sound.extend (sound : job.Sound chain shared) (extended : shared.Extends after) :
    job.Sound chain after where
  gap := extended.gaps _ sound.gap
  done := fun task member => (sound.done task member).extend extended
  running := fun task member => (sound.running task member).extend extended
  fresh := sound.fresh
  covered := sound.covered

/-- A job goes on to a point without tasks. -/
theorem Job.Sound.goTo (sound : job.Sound chain shared) (extended : shared.Extends after)
    {point : JobPoint} (idle : Job.running { job with point := point } = [])
    (fresh : point = .load ∨ point = .begin → job.done = [])
    (covered : Job.Covered { job with point := point }) :
    Job.Sound chain after { job with point := point } where
  gap := extended.gaps _ sound.gap
  done := fun task member => (sound.done task member).extend extended
  running := by simp [idle]
  fresh := fresh
  covered := covered

/-- A sub-batch takes up where the blocks before it end. -/
theorem Job.subBatch_sound {shared : Shared} {batchStart first : Nat} (gap : shared.HasGap job.data)
    (done : ∀ task ∈ job.done, task.Leaves chain shared [])
    (before : Covers job.done job.data.startBlock first) :
    Job.Sound chain shared { job with point := job.data.subBatch batchStart first } where
  gap := gap
  done := done
  running := by
    intro task member
    simp only [Job.running, JobData.subBatch, List.mem_map] at member
    obtain ⟨number, _, rfl⟩ := member
    trivial
  fresh := by simp [JobData.subBatch]
  covered := by
    refine ⟨?_, Nat.min_le_right _ _⟩
    intro number low high
    by_cases earlier : number < first
    · obtain ⟨task, member, block⟩ := before number low earlier
      exact ⟨task, List.mem_append_left _ member, block⟩
    · refine ⟨Task.start number, List.mem_append_right _ ?_, rfl⟩
      refine List.mem_map_of_mem (List.mem_range'_1.mpr ⟨by omega, ?_⟩)
      omega

theorem Job.nextBatch_sound {shared : Shared} {batchStart : Nat} (gap : shared.HasGap job.data)
    (done : ∀ task ∈ job.done, task.Leaves chain shared [])
    (before : Covers job.done job.data.startBlock (min batchStart (job.data.endBlock + 1))) :
    Job.Sound chain shared { job with point := job.data.nextBatch batchStart } := by
  by_cases more : batchStart ≤ job.data.endBlock
  · have start : min batchStart (job.data.endBlock + 1) = batchStart := by omega
    rw [start] at before
    simp only [JobData.nextBatch, if_pos more]
    exact Job.subBatch_sound gap done before
  · have stop : min batchStart (job.data.endBlock + 1) = job.data.endBlock + 1 := by omega
    rw [stop] at before
    simp only [JobData.nextBatch, if_neg more]
    exact ⟨gap, done, by simp [Job.running], by simp, before⟩

/-- Replacing a task of a sub-batch by its continuation keeps what holds of the job, also
when the sub-batch ends with it. -/
theorem Job.join_sound {batchStart next index : Nat} {tasks : List Task} {task later : Task}
    (sound : Job.Sound chain shared { job with point := .batch batchStart next tasks })
    (extended : shared.Extends after) (found : tasks[index]? = some task)
    (block : later.block = task.block) (advanced : later.Sound chain after) :
    Job.Sound chain after (job.join batchStart next (tasks.set index later)) := by
  obtain ⟨covers, within⟩ := sound.covered
  have gap : after.HasGap job.data := extended.gaps _ sound.gap
  have done : ∀ task ∈ job.done, task.Leaves chain after [] :=
    fun task member => Task.Leaves.extend (sound.done task member) extended
  have running : ∀ other ∈ tasks.set index later, other.Sound chain after := by
    intro other member
    rcases List.mem_or_eq_of_mem_set member with old | rfl
    · exact (sound.running other old).extend extended
    · exact advanced
  have stays : Covers (job.done ++ tasks.set index later) job.data.startBlock next := by
    have same : (tasks.set index later).map Task.block = tasks.map Task.block := by
      obtain ⟨inside, rfl⟩ := List.getElem?_eq_some_iff.mp found
      have inMap : index < (tasks.map Task.block).length := by simpa using inside
      have entry : later.block = (tasks.map Task.block)[index] := by
        rw [block, List.getElem_map]
      rw [List.map_set, entry, List.set_getElem_self inMap]
    intro number low high
    obtain ⟨other, member, rfl⟩ := covers number low high
    rcases List.mem_append.mp member with earlier | current
    · exact ⟨other, List.mem_append_left _ earlier, rfl⟩
    · have listed := List.mem_map_of_mem (f := Task.block) current
      rw [← same] at listed
      obtain ⟨replaced, inside, number⟩ := List.mem_map.mp listed
      exact ⟨replaced, List.mem_append_right _ inside, number⟩
  unfold Job.join
  by_cases ended : ((tasks.set index later).all fun task => task.point = .finished) = true
  · have finished : ∀ other ∈ job.done ++ tasks.set index later, other.Leaves chain after [] := by
      intro other member
      rcases List.mem_append.mp member with earlier | current
      · exact done other earlier
      · have point := of_decide_eq_true (List.all_eq_true.mp ended other current)
        have holds := running other current
        rw [Task.Sound, point] at holds
        exact holds
    rw [if_pos ended]
    by_cases more : next ≤ job.data.batchEnd batchStart
    · rw [if_pos more]
      let joined : Job := { job with done := job.done ++ tasks.set index later }
      have sub : Job.Sound chain after
          { joined with point := joined.data.subBatch batchStart next } :=
        Job.subBatch_sound gap finished stays
      exact sub
    · rw [if_neg more]
      have stop : job.data.batchEnd batchStart + 1 = next := by
        have within : next ≤ job.data.batchEnd batchStart + 1 := within
        omega
      refine ⟨gap, finished, by simp [Job.running], by simp, ?_⟩
      change Covers _ _ (job.data.batchEnd batchStart + 1)
      rw [stop]
      exact stays
  · rw [if_neg ended]
    exact ⟨gap, done, running, by simp, stays, within⟩

variable {input : Input Answer}

/-- Every healthy statement of a job keeps what holds of it. -/
theorem Job.statement_sound {job later : Job} (sound : job.Sound chain shared)
    (healthy : job.healthy chain shared input = true)
    (performed : (job.statement chain shared input.answer).perform shared input.ending =
      (after, some later)) : later.Sound chain after := by
  have extended : shared.Extends after := by
    have grows := statement_extends chain shared (.job job) input.answer
    exact Statement.perform_shared shared.Extends performed (.refl _) grows
  obtain ⟨data, point, done⟩ := job
  obtain ⟨ending, answer⟩ := input
  cases point with
  | load =>
    rcases ending with _ | _ | _
    · simp only [Job.statement, Statement.perform, Prod.mk.injEq] at performed
      obtain ⟨_, continues⟩ := performed
      split at continues
      · cases continues
      · split at continues
        · cases continues
        · split at continues
          · cases continues
            exact sound.goTo extended rfl (by simp) trivial
          · cases continues
            exact sound.goTo extended rfl (fun _ => sound.fresh (.inl rfl)) trivial
    · cases performed
    · cases performed
  | exceeded | fail => rcases ending with _ | _ | _ <;> cases performed
  | begin =>
    rcases ending with _ | _ | _ <;> cases performed
    have none : done = [] := sound.fresh (.inr rfl)
    refine Job.nextBatch_sound (extended.gaps _ sound.gap)
      (fun task member => (sound.done task member).extend extended) ?_
    intro number low high
    simp only at low high
    omega
  | batch batchStart next tasks =>
    simp only [Job.statement, Job.advance] at performed
    split at performed
    · rcases ending with _ | _ | _ <;> cases performed <;> exact sound.extend extended
    · rename_i task found
      have fit : task.healthy chain shared answer.block ending = true := by
        simpa [Job.healthy, found] using healthy
      have held : task.Sound chain shared :=
        sound.running task (List.mem_of_getElem? found)
      have joins : ∀ next' : Option Task,
          (task.statement chain shared answer.block).perform shared ending = (after, next') →
          later = next'.elim ⟨data, .batch batchStart next tasks, done⟩ (fun task =>
            Job.join ⟨data, .batch batchStart next tasks, done⟩ batchStart next
              (tasks.set answer.task task)) →
          later.Sound chain after := by
        rintro (_ | point) moved rfl
        · exact sound.extend extended
        · obtain ⟨block, advanced⟩ := task.statement_sound held fit moved point rfl
          exact Job.join_sound sound extended found block advanced
      rcases ending with _ | _ | _ <;> cases performed
      · refine joins _ rfl ?_
        cases (task.statement chain shared answer.block).next <;> rfl
      · refine joins _ rfl ?_
        cases (task.statement chain shared answer.block).thrown <;> rfl
      · refine joins _ rfl ?_
        cases (task.statement chain shared answer.block).thrown <;> rfl
  | progress batchStart =>
    rcases ending with _ | _ | _ <;> cases performed
    · refine Job.nextBatch_sound (extended.gaps _ sound.gap)
        (fun task member => (sound.done task member).extend extended) ?_
      have covered : Covers done data.startBlock (data.batchEnd batchStart + 1) := sound.covered
      intro number low high
      refine covered number low ?_
      simp only [JobData.batchEnd, batchSize] at high ⊢
      omega
    · exact sound.goTo extended rfl (by simp) trivial
    · exact sound.goTo extended rfl (by simp) trivial
  | resolve =>
    rcases ending with _ | _ | _ <;> cases performed
    · exact sound.goTo extended rfl (by simp) trivial
    · exact sound.goTo extended rfl (by simp) trivial

/-! ## Marks -/

/-- What holds of the tables. -/
structure Consistent (shared : Shared) : Prop where
  marks : ∀ mark ∈ shared.marks, ∀ transfer ∈ mark.due, shared.Stored transfer
  jobs : ∀ data ∈ shared.jobs, shared.HasGap data
  ids : (shared.gaps.map Gap.id).Nodup

theorem Consistent.extend (covered : Consistent shared) (extended : shared.Extends after)
    (marks : ∀ mark ∈ after.marks, mark ∈ shared.marks ∨
      ∀ transfer ∈ mark.due, after.Stored transfer)
    (jobs : ∀ data ∈ after.jobs, data ∈ shared.jobs ∨ after.HasGap data)
    (ids : (after.gaps.map Gap.id).Nodup) : Consistent after where
  marks := by
    intro mark made transfer dueThen
    rcases marks mark made with old | new
    · exact (covered.marks mark old transfer dueThen).extend extended
    · exact new transfer dueThen
  jobs := by
    intro data queued
    rcases jobs data queued with old | new
    · exact extended.gaps data (covered.jobs data old)
    · exact new
  ids := ids

theorem Consistent.updateGap {shared : Shared} (covered : Consistent shared) (id : Nat)
    {change : Gap → Gap}
    (keeps : ∀ gap, (change gap).id = gap.id ∧ (change gap).gapStartBlock = gap.gapStartBlock ∧
      (change gap).gapEndBlock = gap.gapEndBlock) : Consistent (shared.updateGap id change) := by
  refine covered.extend (updateGap_extends shared id keeps) (fun _ made => .inl made)
    (fun _ queued => .inl queued) ?_
  have same : (shared.updateGap id change).gaps.map Gap.id = shared.gaps.map Gap.id := by
    simp only [Shared.updateGap, List.map_map]
    refine List.map_congr_left ?_
    intro gap _
    by_cases hit : gap.id = id
    · simp only [Function.comp_apply, if_pos hit, (keeps gap).1]
    · simp only [Function.comp_apply, if_neg hit]
  rw [same]
  exact covered.ids

/-- A healthy task marks a block only when what is due in it is stored. -/
theorem Task.statement_covered {task : Task} {answer : BlockAnswer} {ending : Ending}
    {next : Option Task} (covered : Consistent shared) (sound : task.Sound chain shared)
    (healthy : task.healthy chain shared answer ending = true)
    (performed : (task.statement chain shared answer).perform shared ending = (after, next)) :
    Consistent after := by
  have extended := Statement.perform_shared shared.Extends performed (.refl _)
    (task.statement_extends chain shared answer)
  obtain ⟨block, known, point⟩ := task
  cases point with
  | markScanned =>
    rcases ending with _ | _ | _
    case failed =>
      cases performed
      exact covered
    all_goals
      cases performed
      have current : Task.current chain shared.monitored ⟨block, known, .markScanned⟩ = true := by
        simpa [Task.healthy] using healthy
      refine covered.extend extended ?_ (fun _ queued => .inl queued) covered.ids
      intro mark made
      rcases List.mem_append.mp made with old | new
      · exact .inl old
      · cases List.mem_singleton.mp new
        right
        intro transfer dueNow
        obtain ⟨⟨number, low, high, inBlock⟩, touches⟩ := mem_due.mp dueNow
        obtain rfl : number = block := Nat.le_antisymm high low
        have looked := Task.current_apply current inBlock touches
        rcases sound transfer inBlock looked with stored | ⟨_, nothing, _⟩
        · exact stored.extend extended
        · cases nothing
  | upsert event rest =>
    refine Statement.perform_shared Consistent performed covered ?_
    refine covered.extend (upsert_extends shared event) ?_ ?_ ?_
    all_goals
      simp only [Task.statement, Shared.upsert]
      split
    · exact fun _ made => .inl made
    · exact fun _ made => .inl made
    · exact fun _ queued => .inl queued
    · exact fun _ queued => .inl queued
    · exact covered.ids
    · exact covered.ids
  | getMonitoredAddresses =>
    refine Statement.perform_shared Consistent performed covered ?_
    simp only [Task.statement]
    split <;> exact covered
  | getBlock =>
    refine Statement.perform_shared Consistent performed covered ?_
    cases answer <;> exact covered
  | getProvider | remember | getLogs | indexBlock | cacheHash | finished =>
    exact Statement.perform_shared Consistent performed covered
      ⟨covered.marks, covered.jobs, covered.ids⟩

/-- A healthy job resolves a gap only when what is due in its range is stored. -/
theorem resolveGap_covered {shared : Shared} (covered : Consistent shared)
    (sound : job.Sound chain shared) (resolves : job.point = .resolve)
    (current : job.done.all (fun task => task.current chain shared.monitored) = true) :
    Consistent (shared.resolveGap chain job.data.gapId) := by
  have extended := resolveGap_extends chain shared job.data.gapId
  have updated : Consistent (shared.setGapStatus job.data.gapId .resolved) :=
    covered.updateGap job.data.gapId fun _ => ⟨rfl, rfl, rfl⟩
  refine covered.extend extended ?_ (fun _ queued => .inl queued) updated.ids
  intro mark made
  rcases List.mem_append.mp made with old | new
  · exact .inl old
  · right
    obtain ⟨gap, chosen, rfl⟩ := List.mem_map.mp new
    obtain ⟨stored, id⟩ := List.mem_filter.mp chosen
    obtain ⟨ours, oursStored, oursId, first, last⟩ := sound.gap
    have same : gap = ours :=
      List.inj_on_of_nodup_map covered.ids stored oursStored
        ((of_decide_eq_true id).trans oursId.symm)
    subst same
    intro transfer dueNow
    obtain ⟨⟨number, low, high, inBlock⟩, touches⟩ := mem_due.mp dueNow
    have blocks : Covers job.done job.data.startBlock (job.data.endBlock + 1) := by
      have reached := sound.covered
      rw [Job.Covered, resolves] at reached
      exact reached
    obtain ⟨task, member, rfl⟩ := blocks number (by omega) (by omega)
    have looked := Task.current_apply (List.all_eq_true.mp current task member) inBlock touches
    rcases sound.done task member transfer inBlock looked with saved | ⟨_, nothing, _⟩
    · exact saved.extend extended
    · cases nothing

theorem Job.statement_covered {next : Option Job} (covered : Consistent shared)
    (sound : job.Sound chain shared) (healthy : job.healthy chain shared input = true)
    (performed : (job.statement chain shared input.answer).perform shared input.ending =
      (after, next)) : Consistent after := by
  obtain ⟨data, point, done⟩ := job
  obtain ⟨ending, answer⟩ := input
  cases point with
  | load | progress => exact Statement.perform_shared Consistent performed covered covered
  | exceeded | begin | fail =>
    exact Statement.perform_shared Consistent performed covered
      (covered.updateGap _ fun _ => ⟨rfl, rfl, rfl⟩)
  | batch batchStart next tasks =>
    simp only [Job.statement, Job.advance] at performed
    split at performed
    · exact Statement.perform_shared Consistent performed covered covered
    · rename_i task found
      have fit : task.healthy chain shared answer.block ending = true := by
        simpa [Job.healthy, found] using healthy
      have held : task.Sound chain shared := sound.running task (List.mem_of_getElem? found)
      rcases ending with _ | _ | _ <;> cases performed
      · exact Task.statement_covered covered held fit rfl
      · exact covered
      · exact Task.statement_covered covered held fit rfl
  | resolve =>
    rcases ending with _ | _ | _ <;> cases performed
    · exact resolveGap_covered covered sound rfl (by simpa [Job.healthy] using healthy)
    · exact covered
    · exact resolveGap_covered covered sound rfl (by simpa [Job.healthy] using healthy)

/-! ## The gap detector -/

/-- A job is queued for a gap with its range. -/
def DetectPoint.Sound (shared : Shared) : DetectPoint → Prop
  | .enqueue _ data _ => shared.HasGap data
  | _ => True

variable {point : DetectPoint}

theorem DetectPoint.Sound.extend (sound : point.Sound shared) (extended : shared.Extends after) :
    point.Sound after := by
  cases point with
  | enqueue => exact extended.gaps _ sound
  | cursor | earliest | indexed | scanned | existing | create => trivial

theorem nextGap_sound {shared : Shared} {window : Window} {gaps : List (Nat × Nat)}
    (continues : window.nextGap gaps = some point) : point.Sound shared := by
  cases gaps with
  | nil =>
    simp only [Window.nextGap, Window.next] at continues
    split at continues
    · cases continues
      trivial
    · cases continues
  | cons =>
    cases continues
    trivial

theorem nextBlock_sound {shared : Shared} {window : Window} {indexed missing : List Nat}
    {block : Nat} (continues : window.nextBlock indexed block missing = some point) :
    point.Sound shared := by
  unfold Window.nextBlock at continues
  split at continues
  · cases continues
    trivial
  · exact nextGap_sound continues

theorem id_lt_nextGapId {gaps : List Gap} {gap : Gap} (stored : gap ∈ gaps) :
    gap.id < nextGapId gaps := by
  unfold nextGapId
  induction gaps with
  | nil => cases stored
  | cons head tail ih =>
    simp only [List.map_cons, List.foldr_cons]
    rcases List.mem_cons.mp stored with rfl | later
    · omega
    · have := ih later
      omega

theorem DetectPoint.statement_sound {shared : Shared} (sound : point.Sound shared)
    {later : DetectPoint} (covered : Consistent shared) :
    Consistent (point.statement shared).after ∧
      ((point.statement shared).next = some later → later.Sound (point.statement shared).after) := by
  cases point with
  | cursor =>
    refine ⟨covered, ?_⟩
    simp only [DetectPoint.statement]
    split
    · exact fun none => by cases none
    · rintro ⟨⟩
      trivial
  | earliest endBlock =>
    refine ⟨covered, ?_⟩
    intro continues
    obtain ⟨first, _, chosen⟩ := Option.bind_eq_some_iff.mp continues
    split at chosen
    · cases chosen
    · simp only [Window.next] at chosen
      split at chosen
      · cases chosen
        trivial
      · cases chosen
  | indexed window => exact ⟨covered, nextBlock_sound⟩
  | scanned window indexedSet block missing => exact ⟨covered, nextBlock_sound⟩
  | existing window gap rest =>
    refine ⟨covered, ?_⟩
    simp only [DetectPoint.statement]
    split
    · exact nextGap_sound
    · rintro ⟨⟩
      trivial
  | create window gap rest =>
    have extended := statement_extends (fun _ => ⟨0, 0, 0, [], []⟩) shared
      (.detect (.create window gap rest)) ⟨0, .null⟩
    refine ⟨covered.extend extended (fun _ made => .inl made) (fun _ queued => .inl queued) ?_, ?_⟩
    · simp only [DetectPoint.statement, List.map_append, List.map_cons, List.map_nil,
        List.nodup_append]
      refine ⟨covered.ids, by simp, ?_⟩
      rintro id old other new rfl
      obtain ⟨row, stored, rfl⟩ := List.mem_map.mp old
      have below := id_lt_nextGapId stored
      have same := List.mem_singleton.mp new
      omega
    · rintro ⟨⟩
      exact ⟨_, List.mem_append_right _ (List.mem_singleton_self _), rfl, rfl, rfl⟩
  | enqueue window data rest =>
    refine ⟨⟨covered.marks, ?_, covered.ids⟩, nextGap_sound⟩
    intro other queued
    rcases List.mem_append.mp queued with old | new
    · exact covered.jobs other old
    · cases List.mem_singleton.mp new
      exact sound

/-! ## Runs -/

/-- What holds of a process at each of its points. -/
def Process.Sound (chain : Nat → Block) (shared : Shared) : Process → Prop
  | .job running => running.Sound chain shared
  | .detect point => point.Sound shared
  | .register _ => True

theorem Process.Sound.extend {process : Process} (sound : process.Sound chain shared)
    (extended : shared.Extends after) : process.Sound chain after := by
  cases process with
  | job job => exact Job.Sound.extend sound extended
  | detect point => exact DetectPoint.Sound.extend sound extended
  | register point => trivial

def coverage (chain : Nat → Block) : ProofOutline Shared Process where
  Global := Consistent
  Local := Process.Sound chain
  Apart _ _ := True
  apart_symm := fun _ => trivial

/-- What begins from outside keeps the tables consistent. -/
theorem start_keeps {begun : Start} {process : Option Process} (consistent : Consistent shared)
    (started : start shared begun = some (after, process)) :
    shared.Extends after ∧ Consistent after ∧
      ∀ point, process = some point → point.Sound chain after := by
  cases begun with
  | detect | register =>
    cases started
    refine ⟨.refl _, consistent, ?_⟩
    rintro point ⟨⟩
    trivial
  | job data =>
    simp only [start] at started
    split at started
    · rename_i queued
      cases started
      refine ⟨.refl _, consistent, ?_⟩
      rintro point ⟨⟩
      exact ⟨consistent.jobs data queued, by simp, by simp [Job.running], by simp, trivial⟩
    · cases started
  | head | expireCache | expireScanned | deactivate =>
    cases started
    exact ⟨⟨fun _ stored => stored, fun _ has => has⟩,
      ⟨consistent.marks, consistent.jobs, consistent.ids⟩, by simp⟩
  | retryGap id =>
    simp only [start] at started
    split at started
    · cases started
    · rename_i gap found
      cases started
      have stored : gap ∈ shared.gaps := List.mem_of_find?_eq_some found
      let reset : Shared := shared.updateGap gap.id fun row =>
        { row with status := .detected, attemptCount := 0 }
      have updated : shared.Extends reset :=
        updateGap_extends shared gap.id fun _ => ⟨rfl, rfl, rfl⟩
      have after : Consistent reset :=
        consistent.updateGap gap.id fun _ => ⟨rfl, rfl, rfl⟩
      have extended : shared.Extends (shared.retryGap gap) := ⟨updated.events, updated.gaps⟩
      refine ⟨extended, consistent.extend extended (fun _ made => .inl made) ?_ ?_, by simp⟩
      · intro data queued
        rcases List.mem_append.mp queued with old | new
        · exact .inl old
        · cases List.mem_singleton.mp new
          exact .inr (extended.gaps _ ⟨gap, stored, rfl, rfl, rfl⟩)
      · exact after.ids

/-- Healthy statements of any process keep the tables consistent. -/
theorem statement_keeps {process : Process} {next : Option Process} (consistent : Consistent shared)
    (sound : process.Sound chain shared)
    (healthy : ∀ job, process = .job job → job.healthy chain shared input = true)
    (performed : (process.statement chain shared input.answer).perform shared input.ending =
      (after, next)) : Consistent after ∧ ∀ point, next = some point → point.Sound chain after := by
  cases process with
  | job job =>
    obtain ⟨ending, answer⟩ := input
    have fit := healthy job rfl
    obtain ⟨later, moved, rfl⟩ : ∃ later,
        (job.statement chain shared answer).perform shared ending = (after, later) ∧
          next = later.map .job := by
      rcases ending with _ | _ | _ <;> cases performed <;> exact ⟨_, rfl, rfl⟩
    refine ⟨Job.statement_covered consistent sound fit moved, ?_⟩
    intro point continues
    obtain ⟨running, rfl, rfl⟩ := Option.map_eq_some_iff.mp continues
    exact Job.statement_sound sound fit moved
  | detect point =>
    have kept : ∀ later, Consistent (point.statement shared).after ∧
        ((point.statement shared).next = some later →
          later.Sound (point.statement shared).after) :=
      fun later => DetectPoint.statement_sound sound consistent
    obtain ⟨rfl, ⟨_, rfl⟩ | ⟨_, rfl⟩⟩ | ⟨_, rfl, rfl⟩ := Statement.perform_cases performed
    · refine ⟨(kept point).1, ?_⟩
      intro later continues
      obtain ⟨found, goes, rfl⟩ := Option.map_eq_some_iff.mp continues
      exact (kept found).2 goes
    · refine ⟨(kept point).1, ?_⟩
      cases point <;> simp [Process.statement, Statement.map, DetectPoint.statement]
    · refine ⟨consistent, ?_⟩
      cases point <;> simp [Process.statement, Statement.map, DetectPoint.statement]
  | register point =>
    refine ⟨Statement.perform_shared Consistent performed consistent ?_, ?_⟩
    · cases point with
      | upsert | invalidateCache => exact ⟨consistent.marks, consistent.jobs, consistent.ids⟩
      | ensureCursor row =>
        simp only [Process.statement, RegisterPoint.statement, Statement.map]
        split
        · exact ⟨consistent.marks, consistent.jobs, consistent.ids⟩
        · exact consistent
    · intro later continues
      cases point <;>
        obtain ⟨rfl, ⟨_, rfl⟩ | ⟨_, rfl⟩⟩ | ⟨_, rfl, rfl⟩ := Statement.perform_cases performed <;>
        cases continues <;> trivial

/-- In every healthy run, each gap that was resolved and each block that was marked as
scanned had every transfer of the addresses monitored at that time stored. -/
theorem marked_blocks_stored {chain : Nat → Block} {state : State}
    (reached : (services chain).system.Reachable (Healthy chain) state) :
    ∀ mark ∈ state.shared.marks, ∀ transfer ∈ mark.due, state.shared.Stored transfer := by
  have holds : (coverage chain).Holds state := by
    refine ProofOutline.reachable reached ?_ ?_ ?_
    · intro shared initial
      refine ⟨?_, ?_, ?_⟩
      · simp [initial.marks]
      · simp [initial.jobs]
      · simp [initial.gaps]
    · intro before begun shared process held _ started
      obtain ⟨extended, consistent, own⟩ := start_keeps held.global started
      exact ⟨consistent, own,
        fun other point _ running => (held.locals other point running).extend extended,
        fun _ _ _ _ _ _ => trivial⟩
    · intro before pid process input shared next held allowed running moved
      have performed := Option.some.inj moved
      have extended := Statement.perform_shared before.shared.Extends performed (.refl _)
        (statement_extends chain before.shared process input.answer)
      have fit : ∀ job, process = .job job →
          job.healthy chain before.shared input = true := by
        rintro job rfl
        simpa [Healthy, healthy, running] using allowed
      obtain ⟨consistent, own⟩ :=
        statement_keeps held.global (held.locals pid process running) fit performed
      exact ⟨consistent, own,
        fun other point _ runs => (held.locals other point runs).extend extended,
        fun _ _ _ _ _ _ => trivial⟩
  exact holds.global.marks

/-! ## A gap of two blocks -/

/-- Block 5 sends address 7 some native currency and some of token 20; the other blocks
are empty. -/
def sampleChain (number : Nat) : Block :=
  if number = 5 then
    { hash := 105
      parentHash := 104
      timestamp := 0
      transactions := [⟨1, 9, some 7, 3⟩, ⟨2, 9, some 20, 0⟩]
      logs := [⟨2, 4, 20, 3, 9, 7, some 10⟩] }
  else ⟨100 + number, 99 + number, 0, [], []⟩

/-- An indexer that monitors address 7 from block 5 on. -/
def sampleIndexer : Shared :=
  ⟨[⟨7, ⟨1, 1, 1⟩, 5⟩], none, [], [], 0, [], [], [], []⟩

theorem sampleIndexer_initial :
    (services sampleChain).system.Initial ⟨sampleIndexer, []⟩ :=
  ⟨⟨rfl, rfl, rfl⟩, rfl⟩

/-- A statement that succeeds; the provider has the block. -/
def succeeds (pid task : Nat) : Action := .advance pid ⟨.done, task, .found⟩

/-- The detector finds blocks 5 and 6 missing and queues a job, which loads its gap. -/
def detectGap : List Action :=
  [.launch (.head 6), .launch .detect] ++ List.replicate 8 (succeeds 1 0) ++
    [.launch (.job ⟨1, 5, 6⟩), succeeds 2 0, succeeds 2 0]

/-- The gap is resolved after both blocks were processed. -/
theorem marked_blocks_stored_sample :
    ∃ state : State, (state.shared.marks.map fun mark => (mark.first, mark.last, mark.due.length)) =
        [(5, 5, 2), (6, 6, 0), (5, 6, 2)] ∧
      ∀ mark ∈ state.shared.marks, ∀ transfer ∈ mark.due, state.shared.Stored transfer := by
  obtain ⟨state, reached, passed⟩ : ∃ state,
      (services sampleChain).system.Reachable (Healthy sampleChain) state ∧
      (state.shared.marks.map fun mark => (mark.first, mark.last, mark.due.length)) =
        [(5, 5, 2), (6, 6, 0), (5, 6, 2)] :=
    exists_reachable sampleIndexer_initial
      (detectGap ++ List.replicate 10 (succeeds 2 0) ++ List.replicate 6 (succeeds 2 1) ++
        [succeeds 2 0, succeeds 2 0]) (by decide +kernel)
  exact ⟨state, passed, marked_blocks_stored reached⟩

/-- The logs of block 5 cannot be read: the block is marked as scanned and the gap is
resolved without its token transfer. -/
theorem resolved_without_transfer :
    ¬ ∀ (chain : Nat → Block) (state : State),
      (services chain).system.Reachable Unrestricted state →
        ∀ mark ∈ state.shared.marks, ∀ transfer ∈ mark.due, state.shared.Stored transfer := by
  intro always
  obtain ⟨state, reached, mark, made, _, _, transfer, dueThen, missing⟩ : ∃ state,
      (services sampleChain).system.Reachable Unrestricted state ∧
      ∃ mark ∈ state.shared.marks, mark.first = 5 ∧ mark.last = 6 ∧
        ∃ transfer ∈ mark.due, ¬ state.shared.Stored transfer :=
    exists_reachable sampleIndexer_initial
      (detectGap ++ List.replicate 4 (succeeds 2 0) ++ [.advance 2 ⟨.failed, 0, .found⟩] ++
        List.replicate 4 (succeeds 2 0) ++ List.replicate 6 (succeeds 2 1) ++
        [succeeds 2 0, succeeds 2 0]) (by decide +kernel)
  exact missing (always sampleChain state reached mark made transfer dueThen)

end CryptoVaultHub.Indexer.Backfill
