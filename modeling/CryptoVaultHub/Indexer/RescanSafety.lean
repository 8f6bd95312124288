import CryptoVaultHub.Indexer.Reorganisation
import CryptoVaultHub.Indexer.BackfillCoverage

/-!
# Scanning again after a rollback

A rollback deletes the rows of its blocks but neither the keys of scanned blocks nor the rows of
gaps. As long as it finds none that the detector or the worker would go by, nothing that
was written before it makes them pass over one of its blocks (`rollback_blocks_rescanned`).
-/

namespace CryptoVaultHub.Indexer

open TransitionSystem List

namespace Backfill

/-- The detector takes the gap for one that is being filled. -/
def Gap.isActive (gap : Gap) : Bool := gap.status = .detected || gap.status = .backfilling

/-- The worker turns a job of the gap away. -/
def Gap.isClosed (gap : Gap) : Bool :=
  gap.status = .resolved || decide (gap.attemptCount ≥ gap.maxAttempts)

end Backfill

namespace Reorg

open Backfill

/-! ## The property and the condition -/

/-- A process is about to pass over blocks for what was written before their rows were deleted:
the key of a block, a gap that is being filled, or a gap that is closed. -/
def LedgerProcess.passesOver (ledger : Ledger) : LedgerProcess → Bool
  | .indexer (.detect (.scanned _ _ block _)) =>
    block ∈ ledger.indexer.scanned && block ∈ ledger.staleScanned
  | .indexer (.detect (.existing _ gap _)) =>
    ledger.indexer.gaps.any fun row =>
      row.gapStartBlock = gap.1 && row.gapEndBlock = gap.2 && row.isActive &&
        row.id ∈ ledger.staleGaps
  | .indexer (.job ⟨data, .load, _⟩) =>
    (ledger.indexer.gap? data.gapId).any fun row => row.isClosed && row.id ∈ ledger.staleGaps
  | _ => false

/-- No process passes over a block that was rolled back. -/
@[reducible] def LedgerState.Rescans (state : LedgerState) : Prop :=
  state.every (fun _ process => !process.passesOver state.shared) = true

/-- A job of the gap is about to be loaded or queued. -/
def LedgerProcess.takes (id : Nat) : LedgerProcess → Bool
  | .indexer (.job ⟨data, .load, _⟩) => data.gapId = id
  | .indexer (.detect (.enqueue _ data _)) => data.gapId = id
  | _ => false

/-- A job of the gap can still be taken. -/
def LedgerState.awaits (state : LedgerState) (id : Nat) : Bool :=
  state.shared.indexer.jobs.any (fun data => data.gapId = id) ||
    !(state.every fun _ process => !process.takes id)

/-- The blocks are deleted only when none of them has a key and each gap that reaches them is
neither being filled nor closed with a job that can still be taken. -/
def LedgerState.cleared (state : LedgerState) : LedgerAction → Bool
  | .advance pid input =>
    (state.process? pid).all fun
      | .rollback forkBlock (.deleteBlocks _) =>
        decide (input.ending = .failed) ||
          ((state.shared.indexer.scanned.all fun block => block < forkBlock) &&
            state.shared.indexer.gaps.all fun gap =>
              decide (gap.gapEndBlock < forkBlock) ||
                (!gap.isActive && (!gap.isClosed || !LedgerState.awaits state gap.id)))
      | _ => true
  | .launch _ | .crash _ => true

@[reducible] def LedgerState.Cleared (state : LedgerState) (action : LedgerAction) : Prop :=
  LedgerState.cleared state action = true

/-! ## Old rows -/

/-- A gap that was last written before its blocks were rolled back. -/
def Ledger.Old (ledger : Ledger) (gap : Gap) : Prop :=
  gap ∈ ledger.indexer.gaps ∧ gap.id ∈ ledger.staleGaps

/-- No key is old, and an old gap is not active; a closed one is not in a job that is queued. -/
structure Ledger.Cleared (ledger : Ledger) : Prop where
  scanned : ledger.staleScanned = []
  ids : (ledger.indexer.gaps.map Gap.id).Nodup
  known : ∀ id ∈ ledger.staleGaps, id ∈ ledger.indexer.gaps.map Gap.id
  inactive : ∀ gap, ledger.Old gap → gap.isActive = false
  unqueued : ∀ gap, ledger.Old gap → gap.isClosed = true →
    ∀ data ∈ ledger.indexer.jobs, data.gapId ≠ gap.id

/-- The process takes no job of an old gap that is closed. -/
def LedgerProcess.Avoids (ledger : Ledger) (process : LedgerProcess) : Prop :=
  ∀ gap, ledger.Old gap → gap.isClosed = true → process.takes gap.id = false

variable {ledger after : Ledger} {process : LedgerProcess}

theorem LedgerProcess.Avoids.mono (avoids : process.Avoids ledger)
    (old : ∀ gap, after.Old gap → ledger.Old gap) : process.Avoids after :=
  fun gap now => avoids gap (old gap now)

theorem LedgerProcess.avoids_of_takes (never : ∀ id, process.takes id = false) :
    process.Avoids ledger :=
  fun gap _ _ => never gap.id

/-- What is about to pass over a block goes by something old. -/
theorem Ledger.Cleared.passesOver (cleared : ledger.Cleared) (avoids : process.Avoids ledger) :
    process.passesOver ledger = false := by
  rw [Bool.eq_false_iff]
  intro passes
  unfold LedgerProcess.passesOver at passes
  split at passes
  · simp [cleared.scanned] at passes
  · obtain ⟨row, member, active⟩ := any_eq_true.mp passes
    simp only [Bool.and_eq_true, decide_eq_true_eq] at active
    have inactive := cleared.inactive row ⟨member, active.2⟩
    rw [active.1.2] at inactive
    cases inactive
  · rename_i data done
    cases found : ledger.indexer.gap? data.gapId with
    | none =>
      rw [found] at passes
      cases passes
    | some row =>
      rw [found, Option.any_some, Bool.and_eq_true, decide_eq_true_eq] at passes
      rw [Shared.gap?] at found
      have member := mem_of_find?_eq_some found
      have same : row.id = data.gapId := by simpa using find?_some found
      have taken := avoids row ⟨member, passes.2⟩ passes.1
      simp [LedgerProcess.takes, same] at taken
  · cases passes

/-- A step that makes nothing old. -/
theorem Ledger.Cleared.step (cleared : ledger.Cleared)
    (scanned : ∀ block ∈ after.staleScanned, block ∈ ledger.staleScanned)
    (ids : (after.indexer.gaps.map Gap.id).Nodup)
    (known : ∀ id ∈ after.staleGaps, id ∈ ledger.staleGaps)
    (kept : ∀ id ∈ ledger.indexer.gaps.map Gap.id, id ∈ after.indexer.gaps.map Gap.id)
    (old : ∀ gap, after.Old gap → ledger.Old gap)
    (jobs : ∀ data ∈ after.indexer.jobs, data ∈ ledger.indexer.jobs ∨
      ∀ gap, after.Old gap → gap.isClosed = true → data.gapId ≠ gap.id) : after.Cleared where
  scanned := by
    refine eq_nil_iff_forall_not_mem.mpr ?_
    intro block member
    have before := scanned block member
    rw [cleared.scanned] at before
    cases before
  ids := ids
  known := fun id member => kept id (cleared.known id (known id member))
  inactive := fun gap now => cleared.inactive gap (old gap now)
  unqueued := by
    intro gap now closed data queued
    rcases jobs data queued with before | new
    · exact cleared.unqueued gap (old gap now) closed data before
    · exact new gap now closed

/-! ## Statements of the indexer -/

theorem task_gaps (chain : Nat → Block) (shared : Shared) (task : Task) (answer : BlockAnswer) :
    (task.statement chain shared answer).after.gaps = shared.gaps ∧
      (task.statement chain shared answer).after.jobs = shared.jobs := by
  obtain ⟨block, known, point⟩ := task
  cases point with
  | getMonitoredAddresses =>
    simp only [Task.statement]
    split <;> exact ⟨rfl, rfl⟩
  | getBlock =>
    simp only [Task.statement]
    split <;> exact ⟨rfl, rfl⟩
  | upsert event rest =>
    simp only [Task.statement, Shared.upsert]
    split <;> exact ⟨rfl, rfl⟩
  | getProvider | remember | getLogs | indexBlock | cacheHash | markScanned | finished =>
    exact ⟨rfl, rfl⟩

/-- What a statement of the indexer does to the gaps: nothing, one is written, or one is new. -/
inductive GapEffect (process : Backfill.Process) (before after : List Gap) : Prop where
  | same (gaps : after = before)
  | write (id : Nat) (change : Gap → Gap) (written : process.written? = some id)
      (ids : ∀ gap, (change gap).id = gap.id)
      (gaps : after = before.map fun gap => if gap.id = id then change gap else gap)
  | create (gap : Gap) (id : gap.id = nextGapId before) (gaps : after = before ++ [gap])

theorem gaps_statement (chain : Nat → Block) (shared : Shared) (process : Backfill.Process)
    (answer : Answer) :
    GapEffect process shared.gaps (process.statement chain shared answer).after.gaps := by
  cases process with
  | job job =>
    obtain ⟨data, point, done⟩ := job
    cases point with
    | load | progress => exact .same rfl
    | exceeded | fail =>
      exact .write data.gapId (fun gap => { gap with status := .failed }) rfl (fun _ => rfl) rfl
    | begin =>
      exact .write data.gapId
        (fun gap => { gap with status := .backfilling, attemptCount := gap.attemptCount + 1 })
        rfl (fun _ => rfl) rfl
    | resolve =>
      exact .write data.gapId (fun gap => { gap with status := .resolved }) rfl (fun _ => rfl)
        rfl
    | batch batchStart next tasks =>
      refine .same ?_
      simp only [Process.statement, Statement.map, Job.statement, Job.advance]
      split
      · rfl
      · exact (task_gaps _ _ _ _).1
  | detect point =>
    cases point with
    | create window gap rest => exact .create _ rfl rfl
    | cursor | earliest | indexed | scanned | existing | enqueue => exact .same rfl
  | register point =>
    refine .same ?_
    cases point with
    | ensureCursor row =>
      simp only [Process.statement, Statement.map, RegisterPoint.statement]
      split <;> rfl
    | upsert | invalidateCache => rfl

/-- Only the detector queues a job. -/
theorem jobs_statement (chain : Nat → Block) (shared : Shared) (process : Backfill.Process)
    (answer : Answer) {data : JobData}
    (queued : data ∈ (process.statement chain shared answer).after.jobs) :
    data ∈ shared.jobs ∨ (LedgerProcess.indexer process).takes data.gapId = true := by
  cases process with
  | job job =>
    obtain ⟨jobData, point, done⟩ := job
    cases point with
    | load | progress | exceeded | fail | begin | resolve => exact .inl queued
    | batch batchStart next tasks =>
      left
      simp only [Process.statement, Statement.map, Job.statement, Job.advance] at queued
      split at queued
      · exact queued
      · rwa [(task_gaps _ _ _ _).2] at queued
  | detect point =>
    cases point with
    | enqueue window job rest =>
      rcases mem_append.mp queued with old | new
      · exact .inl old
      · rw [mem_singleton.mp new]
        exact .inr (decide_eq_true rfl)
    | cursor | earliest | indexed | scanned | existing | create => exact .inl queued
  | register point =>
    left
    cases point with
    | ensureCursor row =>
      simp only [Process.statement, Statement.map, RegisterPoint.statement] at queued
      split at queued <;> exact queued
    | upsert | invalidateCache => exact queued

/-! ## Jobs that are taken -/

variable {id : Nat}

theorem nextGap_takes {window : Backfill.Window} {gaps : List (Nat × Nat)} {point : DetectPoint}
    (continues : window.nextGap gaps = some point) :
    (LedgerProcess.indexer (.detect point)).takes id = false := by
  cases gaps with
  | nil =>
    simp only [Backfill.Window.nextGap, Backfill.Window.next] at continues
    split at continues
    · cases continues
      rfl
    · cases continues
  | cons =>
    cases continues
    rfl

theorem nextBlock_takes {window : Backfill.Window} {indexed missing : List Nat} {block id : Nat}
    {point : DetectPoint} (continues : window.nextBlock indexed block missing = some point) :
    (LedgerProcess.indexer (.detect point)).takes id = false := by
  unfold Backfill.Window.nextBlock at continues
  split at continues
  · cases continues
    rfl
  · exact nextGap_takes continues

/-- A job that goes on is not loaded again. -/
theorem job_takes {chain : Nat → Block} {shared : Shared} {job later : Backfill.Job}
    {answer : Answer}
    (continues : (job.statement chain shared answer).next = some later ∨
      (job.statement chain shared answer).thrown = some later) :
    (LedgerProcess.indexer (.job later)).takes id = false := by
  have idle : ∀ {job : Backfill.Job}, job.point ≠ .load →
      (LedgerProcess.indexer (.job job)).takes id = false := by
    rintro ⟨data, point, done⟩ elsewhere
    cases point with
    | load => exact absurd rfl elsewhere
    | exceeded | begin | batch | progress | resolve | fail => rfl
  have nextBatch : ∀ (data : JobData) batchStart, data.nextBatch batchStart ≠ .load := by
    intro data batchStart
    rw [JobData.nextBatch]
    split <;> simp [JobData.subBatch]
  refine idle ?_
  obtain ⟨data, point, done⟩ := job
  cases point with
  | load =>
    rcases continues with next | thrown
    · simp only [Job.statement] at next
      split at next
      · cases next
      · split at next
        · cases next
        · split at next <;> cases next <;> simp
    · cases thrown
  | exceeded | fail => rcases continues with next | thrown <;> contradiction
  | begin =>
    rcases continues with next | thrown
    · cases next
      exact nextBatch _ _
    · cases thrown
  | progress batchStart =>
    rcases continues with next | thrown
    · cases next
      exact nextBatch _ _
    · cases thrown
      simp
  | resolve =>
    rcases continues with next | thrown
    · cases next
    · cases thrown
      simp
  | batch batchStart next tasks =>
    have joined : ∀ others, (Job.join ⟨data, .batch batchStart next tasks, done⟩ batchStart next
        others).point ≠ .load := by
      intro others
      rw [Job.join]
      split
      · dsimp only
        split <;> simp [JobData.subBatch]
      · simp
    simp only [Job.statement, Job.advance] at continues
    split at continues
    · rcases continues with next | thrown
      · cases next
        simp
      · cases thrown
        simp
    · rcases continues with next | thrown
      · cases next
        split
        · simp
        · exact joined _
      · cases thrown
        split
        · simp
        · exact joined _

/-- The only statement after which a job is taken is the one that creates its gap. -/
theorem takes_of_next {chain : Nat → Block} {shared : Shared} {process later : Backfill.Process}
    {answer : Answer}
    (continues : (process.statement chain shared answer).next = some later ∨
      (process.statement chain shared answer).thrown = some later)
    (takes : (LedgerProcess.indexer later).takes id = true) : id = nextGapId shared.gaps := by
  cases process with
  | job job =>
    have running : ∃ goes, later = .job goes ∧ ((job.statement chain shared answer).next = some goes ∨
        (job.statement chain shared answer).thrown = some goes) := by
      rcases continues with next | thrown
      · obtain ⟨goes, found, rfl⟩ := Option.map_eq_some_iff.mp next
        exact ⟨goes, rfl, .inl found⟩
      · obtain ⟨goes, found, rfl⟩ := Option.map_eq_some_iff.mp thrown
        exact ⟨goes, rfl, .inr found⟩
    obtain ⟨goes, rfl, found⟩ := running
    rw [job_takes found] at takes
    cases takes
  | register point =>
    have running : ∃ goes, later = .register goes := by
      rcases continues with next | thrown
      · obtain ⟨goes, _, rfl⟩ := Option.map_eq_some_iff.mp next
        exact ⟨goes, rfl⟩
      · obtain ⟨goes, _, rfl⟩ := Option.map_eq_some_iff.mp thrown
        exact ⟨goes, rfl⟩
    obtain ⟨goes, rfl⟩ := running
    cases takes
  | detect point =>
    rcases continues with next | thrown
    · obtain ⟨goes, found, rfl⟩ := Option.map_eq_some_iff.mp next
      cases point with
      | cursor =>
        simp only [DetectPoint.statement] at found
        split at found
        · cases found
        · cases found
          cases takes
      | earliest endBlock =>
        obtain ⟨first, _, chosen⟩ := Option.bind_eq_some_iff.mp found
        split at chosen
        · cases chosen
        · simp only [Backfill.Window.next] at chosen
          split at chosen
          · cases chosen
            cases takes
          · cases chosen
      | indexed window =>
        rw [nextBlock_takes found] at takes
        cases takes
      | scanned window indexed block missing =>
        rw [nextBlock_takes found] at takes
        cases takes
      | existing window gap rest =>
        simp only [DetectPoint.statement] at found
        split at found
        · rw [nextGap_takes found] at takes
          cases takes
        · cases found
          cases takes
      | create window gap rest =>
        cases found
        exact (of_decide_eq_true takes).symm
      | enqueue window job rest =>
        rw [nextGap_takes found] at takes
        cases takes
    · obtain ⟨goes, found, rfl⟩ := Option.map_eq_some_iff.mp thrown
      cases point <;> cases found

/-! ## Steps -/

theorem map_ids {change : Gap → Gap} (ids : ∀ gap, (change gap).id = gap.id) (gaps : List Gap)
    (id : Nat) :
    (gaps.map fun gap => if gap.id = id then change gap else gap).map Gap.id =
      gaps.map Gap.id := by
  rw [map_map]
  refine map_congr_left ?_
  intro gap _
  simp only [Function.comp]
  split
  · exact ids gap
  · rfl

/-- A gap that is written is not old any more, and the others stay as they are. -/
theorem Ledger.old_of_write {change : Gap → Gap} (ids : ∀ gap, (change gap).id = gap.id)
    (gaps : after.indexer.gaps = ledger.indexer.gaps.map fun gap =>
      if gap.id = id then change gap else gap)
    (stale : ∀ other ∈ after.staleGaps, other ∈ ledger.staleGaps ∧ other ≠ id) {gap : Gap}
    (now : after.Old gap) : ledger.Old gap := by
  obtain ⟨member, old⟩ := now
  obtain ⟨before, other⟩ := stale _ old
  refine ⟨?_, before⟩
  rw [gaps] at member
  obtain ⟨original, inside, rfl⟩ := mem_map.mp member
  by_cases here : original.id = id
  · rw [if_pos here, ids] at other
    exact absurd here other
  · rw [if_neg here]
    exact inside

theorem GapEffect.ids {process : Backfill.Process} {before gaps : List Gap}
    (effect : GapEffect process before gaps) (unique : (before.map Gap.id).Nodup) :
    (gaps.map Gap.id).Nodup ∧ ∀ id ∈ before.map Gap.id, id ∈ gaps.map Gap.id := by
  cases effect with
  | same same =>
    rw [same]
    exact ⟨unique, fun _ member => member⟩
  | write id change _ ids same =>
    rw [same, map_ids ids]
    exact ⟨unique, fun _ member => member⟩
  | create gap id same =>
    rw [same, map_append]
    refine ⟨?_, fun _ member => mem_append_left _ member⟩
    refine nodup_append.mpr ⟨unique, by simp, ?_⟩
    rintro old member new fresh rfl
    obtain ⟨stored, inside, rfl⟩ := mem_map.mp member
    have below := id_lt_nextGapId inside
    simp only [map_cons, map_nil, mem_singleton] at fresh
    omega

variable {answer : LedgerAnswer}

/-- A gap that is old after a statement of the indexer was old before. -/
theorem GapEffect.old {process : Backfill.Process}
    (effect : GapEffect process ledger.indexer.gaps
      (indexerStatement ledger answer process).after.indexer.gaps)
    (known : ∀ id ∈ ledger.staleGaps, id ∈ ledger.indexer.gaps.map Gap.id) {gap : Gap}
    (now : (indexerStatement ledger answer process).after.Old gap) : ledger.Old gap := by
  cases effect with
  | same same =>
    obtain ⟨member, stale⟩ := now
    rw [same] at member
    exact ⟨member, (mem_filter.mp stale).1⟩
  | write id change written ids same =>
    refine Ledger.old_of_write ids same ?_ now
    intro other stale
    obtain ⟨before, unwritten⟩ := mem_filter.mp stale
    refine ⟨before, ?_⟩
    rintro rfl
    simp [written] at unwritten
  | create new id same =>
    obtain ⟨member, stale⟩ := now
    have before := (mem_filter.mp stale).1
    rw [same] at member
    rcases mem_append.mp member with old | fresh
    · exact ⟨old, before⟩
    · rw [mem_singleton.mp fresh, id] at before
      obtain ⟨stored, inside, equal⟩ := mem_map.mp (known _ before)
      have below := id_lt_nextGapId inside
      omega

/-- A statement of the indexer makes nothing old and takes no job of what is. -/
theorem indexerStatement_cleared {process : Backfill.Process} (cleared : ledger.Cleared)
    (avoids : (LedgerProcess.indexer process).Avoids ledger) :
    (indexerStatement ledger answer process).after.Cleared ∧
      ∀ gap, (indexerStatement ledger answer process).after.Old gap → ledger.Old gap := by
  have effect := gaps_statement answer.chain ledger.indexer process answer.indexer
  have old : ∀ gap, (indexerStatement ledger answer process).after.Old gap → ledger.Old gap :=
    fun gap => GapEffect.old effect cleared.known
  obtain ⟨ids, kept⟩ := effect.ids cleared.ids
  refine ⟨cleared.step ?_ ids ?_ kept old ?_, old⟩
  · exact fun block member => (mem_filter.mp member).1
  · exact fun id member => (mem_filter.mp member).1
  · intro data queued
    refine (jobs_statement _ _ _ _ queued).imp_right ?_
    intro takes gap now closed same
    rw [same, avoids gap (old gap now) closed] at takes
    cases takes

theorem indexerStatement_avoids {process : Backfill.Process} {later : LedgerProcess}
    (continues : (indexerStatement ledger answer process).next = some later ∨
      (indexerStatement ledger answer process).thrown = some later) : later.Avoids ledger := by
  have running : ∃ goes, later = .indexer goes ∧
      ((process.statement answer.chain ledger.indexer answer.indexer).next = some goes ∨
        (process.statement answer.chain ledger.indexer answer.indexer).thrown = some goes) := by
    rcases continues with next | thrown
    · obtain ⟨goes, found, rfl⟩ := Option.map_eq_some_iff.mp next
      exact ⟨goes, rfl, .inl found⟩
    · obtain ⟨goes, found, rfl⟩ := Option.map_eq_some_iff.mp thrown
      exact ⟨goes, rfl, .inr found⟩
  obtain ⟨goes, rfl, found⟩ := running
  intro gap ⟨inside, _⟩ _
  rw [Bool.eq_false_iff]
  intro takes
  have fresh := takes_of_next found takes
  have below := id_lt_nextGapId inside
  omega

/-- A gap that is old after a deletion of blocks was old before or reaches them. -/
theorem Ledger.Cleared.old_of_deleteBlocks {forkBlock : Nat} (cleared : ledger.Cleared) {gap : Gap}
    (now : (ledger.deleteBlocks forkBlock).Old gap) :
    ledger.Old gap ∨ gap ∈ ledger.indexer.gaps ∧ forkBlock ≤ gap.gapEndBlock := by
  obtain ⟨member, stale⟩ := now
  rcases mem_append.mp stale with new | before
  · obtain ⟨other, inside, same⟩ := mem_map.mp new
    obtain ⟨stored, reach⟩ := mem_filter.mp inside
    have equal : other = gap := inj_on_of_nodup_map cleared.ids stored member same
    rw [← equal]
    exact .inr ⟨stored, of_decide_eq_true reach⟩
  · exact .inl ⟨member, before⟩

/-- A deletion of blocks that finds nothing to go by leaves nothing. -/
theorem Ledger.Cleared.deleteBlocks {forkBlock : Nat} (cleared : ledger.Cleared)
    (scanned : ∀ block ∈ ledger.indexer.scanned, block < forkBlock)
    (gaps : ∀ gap ∈ ledger.indexer.gaps, forkBlock ≤ gap.gapEndBlock →
      gap.isActive = false ∧
        (gap.isClosed = true → ∀ data ∈ ledger.indexer.jobs, data.gapId ≠ gap.id)) :
    (ledger.deleteBlocks forkBlock).Cleared := by
  refine ⟨?_, cleared.ids, ?_, ?_, ?_⟩
  · rw [Ledger.deleteBlocks, cleared.scanned, append_nil]
    refine filter_eq_nil_iff.mpr ?_
    intro block member
    have below := scanned block member
    simp only [decide_eq_true_eq]
    omega
  · intro id member
    rcases mem_append.mp member with new | before
    · obtain ⟨gap, inside, same⟩ := mem_map.mp new
      exact mem_map.mpr ⟨gap, (mem_filter.mp inside).1, same⟩
    · exact cleared.known id before
  · intro gap now
    rcases cleared.old_of_deleteBlocks now with before | ⟨member, reach⟩
    · exact cleared.inactive gap before
    · exact (gaps gap member reach).1
  · intro gap now closed
    rcases cleared.old_of_deleteBlocks now with before | ⟨member, reach⟩
    · exact cleared.unqueued gap before closed
    · exact (gaps gap member reach).2 closed

variable {next : Option LedgerProcess}

/-- What starts makes nothing old and takes no job of what is. -/
theorem start_cleared {begun : LedgerStart} (cleared : ledger.Cleared)
    (started : ledger.start begun = some (after, next)) :
    after.Cleared ∧ (∀ gap, after.Old gap → ledger.Old gap) ∧
      ∀ later, next = some later → later.Avoids after := by
  cases begun with
  | rollback forkBlock =>
    simp only [Ledger.start] at started
    split at started
    · cases started
    · cases started
      refine ⟨cleared, fun _ now => now, ?_⟩
      rintro later ⟨⟩
      exact LedgerProcess.avoids_of_takes fun _ => rfl
  | materialize upToBlock =>
    cases started
    refine ⟨cleared, fun _ now => now, ?_⟩
    rintro later ⟨⟩
    exact LedgerProcess.avoids_of_takes fun _ => rfl
  | process index =>
    obtain ⟨event, _, same⟩ := Option.bind_eq_some_iff.mp started
    split at same
    · cases same
    · cases same
      refine ⟨?_, fun _ now => now, by simp⟩
      exact cleared.step (fun _ member => member) cleared.ids (fun _ member => member)
        (fun _ member => member) (fun _ now => now) fun data queued => .inl queued
  | realtime block =>
    cases started
    refine ⟨?_, fun _ now => now, by simp⟩
    exact cleared.step (fun _ member => member) cleared.ids (fun _ member => member)
      (fun _ member => member) (fun _ now => now) fun data queued => .inl queued
  | dequeue data =>
    cases started
    refine ⟨?_, fun _ now => now, by simp⟩
    exact cleared.step (fun _ member => member) cleared.ids (fun _ member => member)
      (fun _ member => member) (fun _ now => now)
      fun data queued => .inl (mem_of_mem_erase queued)
  | indexer begun =>
    obtain ⟨⟨shared, process⟩, began, same⟩ := Option.map_eq_some_iff.mp started
    cases same
    cases begun with
    | detect | register =>
      cases began
      refine ⟨cleared, fun _ now => now, ?_⟩
      rintro later ⟨⟩
      exact LedgerProcess.avoids_of_takes fun _ => rfl
    | job data =>
      simp only [Backfill.start] at began
      split at began
      · rename_i queued
        cases began
        refine ⟨cleared, fun _ now => now, ?_⟩
        rintro later ⟨⟩
        intro gap old closed
        exact decide_eq_false (cleared.unqueued gap old closed data queued)
      · cases began
    | head | expireCache | deactivate =>
      cases began
      refine ⟨?_, fun _ now => now, by simp⟩
      exact cleared.step (fun _ member => member) cleared.ids (fun _ member => member)
        (fun _ member => member) (fun _ now => now) fun data queued => .inl queued
    | expireScanned block =>
      cases began
      refine ⟨?_, fun _ now => now, by simp⟩
      exact cleared.step (fun _ member => (mem_filter.mp member).1) cleared.ids
        (fun _ member => member) (fun _ member => member) (fun _ now => now)
        fun data queued => .inl queued
    | retryGap id =>
      simp only [Backfill.start] at began
      split at began
      · cases began
      · rename_i gap found
        cases began
        rw [Shared.gap?] at found
        have same : gap.id = id := by simpa using find?_some found
        have ids : ∀ row : Gap, ({ row with status := .detected, attemptCount := 0 } : Gap).id =
            row.id := fun _ => rfl
        have written : (ledger.withIndexer (.retryGap id)
            (ledger.indexer.retryGap gap)).indexer.gaps = ledger.indexer.gaps.map fun row =>
              if row.id = gap.id then { row with status := .detected, attemptCount := 0 }
              else row := rfl
        have old : ∀ row, (ledger.withIndexer (.retryGap id)
            (ledger.indexer.retryGap gap)).Old row → ledger.Old row := by
          intro row now
          refine Ledger.old_of_write ids written ?_ now
          intro other stale
          obtain ⟨before, different⟩ := mem_filter.mp stale
          rw [same]
          exact ⟨before, of_decide_eq_true different⟩
        refine ⟨?_, old, by simp⟩
        refine cleared.step (fun _ member => member) ?_
          (fun _ member => (mem_filter.mp member).1) ?_ old ?_
        · have kept := map_ids ids ledger.indexer.gaps gap.id
          exact kept.symm ▸ cleared.ids
        · intro other member
          have kept := map_ids ids ledger.indexer.gaps gap.id
          exact kept.symm ▸ member
        · intro data queued
          rcases mem_append.mp queued with before | new
          · exact .inl before
          · refine .inr ?_
            intro row now _ equal
            rw [mem_singleton.mp new] at equal
            have stale := of_decide_eq_true (mem_filter.mp now.2).2
            exact stale (equal.symm.trans same)

/-! ## Runs -/

/-- A ledger whose gaps, keys and jobs are those of another one. -/
theorem Ledger.Cleared.frame (cleared : ledger.Cleared)
    (gaps : after.indexer.gaps = ledger.indexer.gaps)
    (jobs : after.indexer.jobs = ledger.indexer.jobs)
    (scanned : after.staleScanned = ledger.staleScanned)
    (stale : after.staleGaps = ledger.staleGaps) :
    after.Cleared ∧ ∀ gap, after.Old gap → ledger.Old gap := by
  have old : ∀ gap, after.Old gap → ledger.Old gap := by
    rintro gap ⟨member, now⟩
    exact ⟨gaps ▸ member, stale ▸ now⟩
  refine ⟨cleared.step ?_ ?_ ?_ ?_ old ?_, old⟩
  · rw [scanned]
    exact fun _ member => member
  · rw [gaps]
    exact cleared.ids
  · rw [stale]
    exact fun _ member => member
  · rw [gaps]
    exact fun _ member => member
  · intro data queued
    exact .inl (jobs ▸ queued)

variable {state : LedgerState}

/-- What a deletion of blocks finds when it is allowed. -/
theorem LedgerState.clears {pid forkBlock : Nat} {addresses : List Address}
    {input : Input LedgerAnswer}
    (running : state.process? pid = some (.rollback forkBlock (.deleteBlocks addresses)))
    (cleared : LedgerState.Cleared state (.advance pid input)) (took : input.ending ≠ .failed) :
    (∀ block ∈ state.shared.indexer.scanned, block < forkBlock) ∧
      ∀ gap ∈ state.shared.indexer.gaps, forkBlock ≤ gap.gapEndBlock →
        gap.isActive = false ∧ (gap.isClosed = true → LedgerState.awaits state gap.id = false) := by
  simp only [LedgerState.Cleared, LedgerState.cleared, running, Option.all_some, Bool.or_eq_true,
    decide_eq_true_eq, took, false_or, Bool.and_eq_true, all_eq_true,
    Bool.not_eq_true'] at cleared
  refine ⟨cleared.1, ?_⟩
  intro gap member reach
  have spared := (cleared.2 gap member).resolve_left (Nat.not_lt.mpr reach)
  refine ⟨spared.1, ?_⟩
  intro closed
  rcases spared.2 with still | free
  · rw [closed] at still
    cases still
  · exact free

theorem LedgerState.not_awaits (free : LedgerState.awaits state id = false) :
    (∀ data ∈ state.shared.indexer.jobs, data.gapId ≠ id) ∧
      ∀ pid process, state.process? pid = some process → process.takes id = false := by
  simp only [LedgerState.awaits, Bool.or_eq_false_iff, any_eq_false, decide_eq_true_eq,
    Bool.not_eq_false'] at free
  refine ⟨free.1, ?_⟩
  intro pid process running
  simpa using PoolState.every_apply free.2 running

/-- Nothing that is old is gone by. -/
def rescanOutline : ProofOutline Ledger LedgerProcess where
  Global := Ledger.Cleared
  Local ledger process := process.Avoids ledger
  Apart _ _ := True
  apart_symm _ := trivial

/-- A statement that leaves the gaps, the keys and the jobs, and whose process takes none. -/
theorem rescanOutline_keeps {pid : Nat} (holds : rescanOutline.Holds state)
    (kept : after.Cleared ∧ ∀ gap, after.Old gap → state.shared.Old gap)
    (own : ∀ later, next = some later → later.Avoids after) :
    rescanOutline.Keeps state pid after next :=
  ⟨kept.1, own, fun other point _ running => (holds.locals other point running).mono kept.2,
    fun _ _ _ _ _ _ => trivial⟩

/-- A deletion of blocks that is allowed. -/
theorem rescanOutline_deleteBlocks {pid forkBlock : Nat} (holds : rescanOutline.Holds state)
    (scanned : ∀ block ∈ state.shared.indexer.scanned, block < forkBlock)
    (gaps : ∀ gap ∈ state.shared.indexer.gaps, forkBlock ≤ gap.gapEndBlock →
      gap.isActive = false ∧ (gap.isClosed = true → LedgerState.awaits state gap.id = false))
    (own : ∀ {after : Ledger} later, next = some later → later.Avoids after) :
    rescanOutline.Keeps state pid (state.shared.deleteBlocks forkBlock) next := by
  have cleared : state.shared.Cleared := holds.global
  refine ⟨?_, own, ?_, fun _ _ _ _ _ _ => trivial⟩
  · refine cleared.deleteBlocks scanned ?_
    intro gap member reach
    obtain ⟨inactive, free⟩ := gaps gap member reach
    exact ⟨inactive, fun closed => (LedgerState.not_awaits (free closed)).1⟩
  · intro other point _ running gap now closed
    rcases cleared.old_of_deleteBlocks now with before | ⟨member, reach⟩
    · exact holds.locals other point running gap before closed
    · exact (LedgerState.not_awaits ((gaps gap member reach).2 closed)).2 other point running

/-- As long as a rollback finds nothing that the detector or the worker would go by, no process
ever passes over a block for what was written before the rollback. -/
theorem rollback_blocks_rescanned {state : LedgerState}
    (reached : services.system.Reachable LedgerState.Cleared state) :
    LedgerState.Rescans state := by
  have outline : rescanOutline.Holds state := by
    refine ProofOutline.reachable reached ?_ ?_ ?_
    · intro ledger initial
      refine ⟨initial.staleScanned, ?_, ?_, ?_, ?_⟩
      · simp [initial.indexer.gaps]
      · simp [initial.staleGaps]
      · rintro gap ⟨_, stale⟩
        simp [initial.staleGaps] at stale
      · rintro gap ⟨_, stale⟩
        simp [initial.staleGaps] at stale
    · intro before begun shared process holds _ started
      obtain ⟨cleared, old, own⟩ := start_cleared holds.global started
      exact rescanOutline_keeps holds ⟨cleared, old⟩ own
    · intro before pid process input shared next holds allowed running moved
      have avoids := holds.locals pid process running
      have cleared : before.shared.Cleared := holds.global
      have unchanged : before.shared.Cleared ∧ ∀ gap, before.shared.Old gap → before.shared.Old gap :=
        ⟨cleared, fun _ now => now⟩
      have performed := Statement.perform_cases (Option.some.inj moved)
      cases process with
      | indexer process =>
        have own : ∀ {later}, (indexerStatement before.shared input.answer process).next =
            some later ∨ (indexerStatement before.shared input.answer process).thrown =
              some later → later.Avoids before.shared := indexerStatement_avoids
        have kept : (indexerStatement before.shared input.answer process).after.Cleared ∧
            ∀ gap, (indexerStatement before.shared input.answer process).after.Old gap →
              before.shared.Old gap := indexerStatement_cleared cleared avoids
        obtain ⟨rfl, ⟨_, rfl⟩ | ⟨_, rfl⟩⟩ | ⟨_, rfl, rfl⟩ := performed
        · exact rescanOutline_keeps holds kept fun later goes => (own (.inl goes)).mono kept.2
        · exact rescanOutline_keeps holds kept fun later goes => (own (.inr goes)).mono kept.2
        · exact rescanOutline_keeps holds unchanged fun later goes => own (.inr goes)
      | materialize upToBlock point =>
        have never : ∀ later, (materializeStatement before.shared input.answer upToBlock
            point).next = some later → ∀ id, later.takes id = false := by
          intro later goes id
          cases point with
          | select watermark =>
            simp only [materializeStatement] at goes
            split at goes
            · split at goes
              · cases goes
                rfl
              · cases goes
            · cases goes
              rfl
          | setWatermark written block last =>
            simp only [materializeStatement] at goes
            split at goes
            · cases goes
            · cases goes
              rfl
          | getWatermark | upsert =>
            cases goes
            rfl
        have kept : (materializeStatement before.shared input.answer upToBlock
            point).after.Cleared ∧ ∀ gap, (materializeStatement before.shared input.answer
              upToBlock point).after.Old gap → before.shared.Old gap := by
          cases point <;> exact cleared.frame rfl rfl rfl rfl
        have thrown : (materializeStatement before.shared input.answer upToBlock point).thrown =
            none := by
          cases point <;> rfl
        obtain ⟨rfl, ⟨_, rfl⟩ | ⟨_, rfl⟩⟩ | ⟨_, rfl, rfl⟩ := performed
        · exact rescanOutline_keeps holds kept fun later goes =>
            LedgerProcess.avoids_of_takes (never later goes)
        · exact rescanOutline_keeps holds kept (by simp [LedgerProcess.statement, thrown])
        · exact rescanOutline_keeps holds unchanged (by simp [LedgerProcess.statement, thrown])
      | rollback forkBlock point =>
        have never : ∀ later, (rollbackStatement before.shared forkBlock point).next =
            some later → ∀ id, later.takes id = false := by
          intro later goes id
          cases point <;> cases goes <;> rfl
        have thrown : (rollbackStatement before.shared forkBlock point).thrown = none := by
          cases point <;> rfl
        have took : input.ending ≠ .failed → (∀ later, next = some later → ∀ id,
            later.takes id = false) → rescanOutline.Keeps before pid
              (rollbackStatement before.shared forkBlock point).after next := by
          intro done free
          have own : ∀ {after : Ledger} later, next = some later → later.Avoids after :=
            fun later goes => LedgerProcess.avoids_of_takes (free later goes)
          cases point with
          | deleteBlocks addresses =>
            obtain ⟨scanned, gaps⟩ := LedgerState.clears running allowed done
            exact rescanOutline_deleteBlocks holds scanned gaps own
          | collectAddresses | deleteEvents | deleteBalances | setWatermark | setCursor =>
            exact rescanOutline_keeps holds (cleared.frame rfl rfl rfl rfl) own
        obtain ⟨rfl, ⟨done, rfl⟩ | ⟨lost, rfl⟩⟩ | ⟨_, rfl, rfl⟩ := performed
        · exact took (by simp [done]) never
        · exact took (by simp [lost]) (by simp [LedgerProcess.statement, thrown])
        · exact rescanOutline_keeps holds unchanged (by simp [LedgerProcess.statement, thrown])
  simp only [LedgerState.Rescans, PoolState.every, all_eq_true, Option.all_eq_true,
    Bool.not_eq_true']
  intro pid _ process running
  have cleared : state.shared.Cleared := outline.global
  exact cleared.passesOver (outline.locals pid process running)

/-! ## A block that was scanned -/

/-- An indexer that monitors address 7, with block 5 of the sample chain to be scanned. -/
def sampleLedger : Ledger := ⟨Backfill.sampleIndexer, [], [], none, [], []⟩

theorem sampleLedger_initial : services.system.Initial ⟨sampleLedger, []⟩ :=
  ⟨⟨⟨rfl, rfl, rfl⟩, rfl, rfl, rfl, rfl, rfl⟩, rfl⟩

def ledgerAdvances (pid task : Nat) : LedgerAction :=
  .advance pid ⟨.done, sampleChain, ⟨task, .found⟩, fun _ => 0⟩

/-- The detector finds blocks 5 and 6 missing, and the worker scans both. -/
def scansGap : List LedgerAction :=
  [.launch (.realtime 6), .launch (.indexer .detect)] ++ List.replicate 8 (ledgerAdvances 1 0) ++
    [.launch (.indexer (.job ⟨1, 5, 6⟩))] ++ List.replicate 12 (ledgerAdvances 2 0) ++
    List.replicate 6 (ledgerAdvances 2 1) ++ List.replicate 2 (ledgerAdvances 2 0)

/-- A rollback to block 5, after which the detector looks for gaps up to block 6 again. -/
def rollsBack (pid : Nat) : List LedgerAction :=
  [.launch (.rollback 5)] ++ List.replicate 6 (ledgerAdvances pid 0) ++
    [.launch (.realtime 6), .launch (.indexer .detect)] ++
    List.replicate 3 (ledgerAdvances (pid + 2) 0)

/-- The keys of both blocks have expired, and the job of their gap has left the queue. -/
theorem rollback_blocks_rescanned_sample :
    ∃ state : LedgerState, state.shared.staleGaps = [1] ∧ LedgerState.Rescans state := by
  obtain ⟨state, reached, old⟩ : ∃ state, services.system.Reachable LedgerState.Cleared state ∧
      state.shared.staleGaps = [1] :=
    exists_reachable sampleLedger_initial
      (scansGap ++ [.launch (.indexer (.expireScanned 5)), .launch (.indexer (.expireScanned 6)),
        .launch (.dequeue ⟨1, 5, 6⟩)] ++ rollsBack 6) (by decide +kernel)
  exact ⟨state, old, rollback_blocks_rescanned reached⟩

/-- The key of block 5 makes the detector pass over it after the rollback. -/
theorem rolled_back_block_passed_over :
    ¬ ∀ state : LedgerState, services.system.Reachable Unrestricted state →
      LedgerState.Rescans state := by
  intro always
  obtain ⟨state, reached, passed⟩ : ∃ state, services.system.Reachable Unrestricted state ∧
      ¬ LedgerState.Rescans state :=
    exists_reachable sampleLedger_initial (scansGap ++ rollsBack 3) (by decide +kernel)
  exact passed (always state reached)

end Reorg

end CryptoVaultHub.Indexer
