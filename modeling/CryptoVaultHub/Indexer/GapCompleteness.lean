import CryptoVaultHub.Indexer.BackfillWorker

/-!
# Which blocks the gap detector reaches

A run of `detectAndEnqueueGaps` as one function over the tables of a chain, which the statements of
the detector compute. The window of a run ends at the cursor and begins at most `maxGapLookback`
blocks before it; the batches begin below the cursor and are closed intervals. `Shared.reaches` says
which blocks that leaves, and a block that one run does not reach is reached by none while the
cursor stays where it is.
-/

namespace CryptoVaultHub.Indexer.Backfill

open List

/-! ## One run -/

/-- The blocks of a batch that are neither indexed nor scanned. -/
def Shared.missingIn (shared : Shared) (window : Window) : List Nat :=
  (List.range' window.batchStart (window.batchEnd + 1 - window.batchStart)).filter fun block =>
    block ∉ shared.indexedBlocks && block ∉ shared.scanned

/-- A gap is inserted and its backfill queued, unless it is there already and not closed. -/
def Shared.openGap (shared : Shared) (gap : Nat × Nat) : Shared :=
  if shared.gaps.any fun row => row.gapStartBlock = gap.1 ∧ row.gapEndBlock = gap.2 ∧
      (row.status = .detected ∨ row.status = .backfilling) then shared
  else
    { shared with
      gaps := shared.gaps ++ [⟨nextGapId shared.gaps, gap.1, gap.2, .detected, 0, 5⟩]
      jobs := shared.jobs ++ [⟨nextGapId shared.gaps, gap.1, gap.2⟩] }

/-- One batch. -/
def Shared.detectBatch (shared : Shared) (window : Window) : Shared :=
  (coalesceGaps (shared.missingIn window)).foldl Shared.openGap shared

def Window.advance (window : Window) : Window :=
  { window with batchStart := window.batchStart + gapBatchSize }

/-- The loop over the batches. -/
def Shared.detectFrom (shared : Shared) (window : Window) : Shared :=
  if window.batchStart < window.endBlock then
    (shared.detectBatch window).detectFrom window.advance
  else shared
termination_by window.endBlock - window.batchStart
decreasing_by
  simp only [Window.advance, gapBatchSize]
  omega

/-- The first batch of a run, if there is anything to look at. -/
def Shared.firstWindow (shared : Shared) : Option Window :=
  if shared.lastBlock = 0 then none
  else
    (earliestStart shared.monitored).bind fun start =>
      if start ≥ shared.lastBlock then none
      else some ⟨max start (shared.lastBlock - maxGapLookback), shared.lastBlock⟩

def Shared.detectAndEnqueueGaps (shared : Shared) : Shared :=
  match shared.firstWindow with
  | none => shared
  | some window => shared.detectFrom window

/-! ## The statements of a run -/

/-- The statements from a point on end, without failure, in these tables. -/
inductive DetectPoint.Ends : Shared → Option DetectPoint → Shared → Prop where
  | done (shared : Shared) : Ends shared none shared
  | step {shared final : Shared} {point : DetectPoint}
      (rest : Ends (point.statement shared).after (point.statement shared).next final) :
      Ends shared (some point) final

variable {shared after final : Shared} {window : Window}

theorem ends_nextGap {gaps : List (Nat × Nat)}
    (rest : DetectPoint.Ends (gaps.foldl Shared.openGap shared) window.advance.next final) :
    DetectPoint.Ends shared (window.nextGap gaps) final := by
  induction gaps generalizing shared with
  | nil => exact rest
  | cons gap gaps ih =>
    rw [foldl_cons] at rest
    have later := ih rest
    refine .step ?_
    simp only [DetectPoint.statement]
    unfold Shared.openGap at later
    split
    · rename_i present
      rwa [if_pos present] at later
    · rename_i absent
      rw [if_neg absent] at later
      exact .step (.step later)

variable {block : Nat}

/-- The blocks from one on are looked up in ascending order. -/
theorem ends_nextBlock {indexed missing : List Nat} (count : Nat)
    (left : window.batchEnd + 1 - block = count)
    (rest : DetectPoint.Ends shared (window.nextGap (coalesceGaps (missing ++
      (List.range' block count).filter fun number =>
        number ∉ indexed && number ∉ shared.scanned))) final) :
    DetectPoint.Ends shared (window.nextBlock indexed block missing) final := by
  induction count generalizing block missing with
  | zero =>
    rw [Window.nextBlock, left]
    simpa using rest
  | succ count ih =>
    have fewer : window.batchEnd + 1 - (block + 1) = count := by omega
    rw [range'_succ] at rest
    by_cases known : block ∈ indexed
    · have skipped : window.nextBlock indexed block missing =
          window.nextBlock indexed (block + 1) missing := by
        rw [Window.nextBlock, left, Window.nextBlock, fewer, range'_succ,
          find?_cons_of_neg (by simpa using known)]
      rw [skipped]
      refine ih fewer ?_
      simpa [known] using rest
    · have looked : window.nextBlock indexed block missing =
          some (.scanned window indexed block missing) := by
        rw [Window.nextBlock, left, range'_succ,
          find?_cons_of_pos (by simpa using known)]
      rw [looked]
      refine .step (ih fewer ?_)
      by_cases marked : block ∈ shared.scanned
      · simpa [DetectPoint.statement, known, marked] using rest
      · simpa [DetectPoint.statement, known, marked] using rest

/-- The statements of a batch do what `detectBatch` does. -/
theorem ends_indexed (rest : DetectPoint.Ends (shared.detectBatch window)
    window.advance.next final) :
    DetectPoint.Ends shared (some (.indexed window)) final := by
  have same : (List.range' window.batchStart (window.batchEnd + 1 - window.batchStart)).filter
      (fun number => number ∉ shared.indexedBlocks.filter (fun block =>
        window.batchStart ≤ block ∧ block ≤ window.batchEnd) && number ∉ shared.scanned) =
      shared.missingIn window := by
    refine filter_congr fun block member => ?_
    have range := mem_range'_1.mp member
    have inside : window.batchStart ≤ block ∧ block ≤ window.batchEnd := by omega
    simp [inside]
  refine .step ?_
  change DetectPoint.Ends shared (window.nextBlock (shared.indexedBlocks.filter fun block =>
    window.batchStart ≤ block ∧ block ≤ window.batchEnd) window.batchStart []) final
  refine ends_nextBlock _ rfl (ends_nextGap ?_)
  rwa [nil_append, same]

theorem ends_next : DetectPoint.Ends shared window.next (shared.detectFrom window) := by
  induction shared, window using Shared.detectFrom.induct with
  | case1 shared window more ih =>
    rw [Window.next, if_pos more, Shared.detectFrom, if_pos more]
    exact ends_indexed ih
  | case2 shared window done =>
    rw [Window.next, if_neg done, Shared.detectFrom, if_neg done]
    exact .done shared

/-- The statements of a run do what `detectAndEnqueueGaps` does. -/
theorem ends_detectAndEnqueueGaps :
    DetectPoint.Ends shared (some .cursor) shared.detectAndEnqueueGaps := by
  refine .step ?_
  simp only [DetectPoint.statement, Shared.detectAndEnqueueGaps, Shared.firstWindow]
  split
  · exact .done shared
  · refine .step ?_
    simp only [DetectPoint.statement]
    cases earliestStart shared.monitored with
    | none => exact .done shared
    | some start =>
      simp only [Option.bind_some, bind]
      split
      · exact .done shared
      · exact ends_next

/-! ## Covered blocks -/

def Gap.Covers (gap : Gap) (block : Nat) : Prop :=
  gap.gapStartBlock ≤ block ∧ block ≤ gap.gapEndBlock

/-- A block is indexed, marked as scanned, or in a gap that some run opened. -/
def Shared.Covered (shared : Shared) (block : Nat) : Prop :=
  block ∈ shared.indexedBlocks ∨ block ∈ shared.scanned ∨ ∃ gap ∈ shared.gaps, gap.Covers block

/-- The tables besides the gaps and jobs, which a run leaves as they are. -/
structure Shared.SameBlocks (before after : Shared) : Prop where
  monitored : after.monitored = before.monitored
  lastBlock : after.lastBlock = before.lastBlock
  indexed : after.indexedBlocks = before.indexedBlocks
  scanned : after.scanned = before.scanned

theorem Shared.SameBlocks.refl (shared : Shared) : shared.SameBlocks shared := ⟨rfl, rfl, rfl, rfl⟩

theorem Shared.SameBlocks.trans {first second third : Shared} (left : first.SameBlocks second)
    (right : second.SameBlocks third) : first.SameBlocks third :=
  ⟨right.monitored.trans left.monitored, right.lastBlock.trans left.lastBlock,
    right.indexed.trans left.indexed, right.scanned.trans left.scanned⟩

/-- Every gap of some ranges is there, with the gaps of before, and every job is for a gap. -/
structure Shared.Opens (before after : Shared) (Ranges : Nat → Nat → Prop) : Prop where
  same : before.SameBlocks after
  kept : ∀ gap ∈ before.gaps, gap ∈ after.gaps
  opened : ∀ gap ∈ after.gaps, gap ∈ before.gaps ∨ Ranges gap.gapStartBlock gap.gapEndBlock
  jobs : ∃ queued, after.jobs = before.jobs ++ queued ∧
    ∀ job ∈ queued, Ranges job.startBlock job.endBlock

theorem Shared.Opens.refl (shared : Shared) (Ranges : Nat → Nat → Prop) :
    shared.Opens shared Ranges :=
  ⟨.refl shared, fun _ old => old, fun _ old => .inl old, [], by simp, by simp⟩

variable {Ranges : Nat → Nat → Prop}

theorem Shared.Opens.trans {first second third : Shared} (left : first.Opens second Ranges)
    (right : second.Opens third Ranges) : first.Opens third Ranges := by
  obtain ⟨one, ones, own⟩ := left.jobs
  obtain ⟨two, twos, other⟩ := right.jobs
  refine ⟨left.same.trans right.same, fun gap old => right.kept gap (left.kept gap old), ?_,
    one ++ two, by rw [twos, ones, append_assoc], ?_⟩
  · intro gap stored
    obtain middle | range := right.opened gap stored
    · exact left.opened gap middle
    · exact .inr range
  · intro job queued
    rcases mem_append.mp queued with first | second
    · exact own job first
    · exact other job second

theorem Shared.Opens.mono {Ranges Wider : Nat → Nat → Prop} (opens : shared.Opens after Ranges)
    (wider : ∀ start stop, Ranges start stop → Wider start stop) : shared.Opens after Wider := by
  obtain ⟨queued, jobs, own⟩ := opens.jobs
  exact ⟨opens.same, opens.kept, fun gap stored => (opens.opened gap stored).imp_right (wider _ _),
    queued, jobs, fun job member => wider _ _ (own job member)⟩

/-- What was covered stays so. -/
theorem Shared.Opens.covered (opens : shared.Opens after Ranges) (covered : shared.Covered block) :
    after.Covered block := by
  obtain indexed | scanned | ⟨gap, stored, covers⟩ := covered
  · exact .inl (opens.same.indexed ▸ indexed)
  · exact .inr (.inl (opens.same.scanned ▸ scanned))
  · exact .inr (.inr ⟨gap, opens.kept gap stored, covers⟩)

/-- What becomes covered is in one of the ranges. -/
theorem Shared.Opens.covered_cases (opens : shared.Opens after Ranges)
    (covered : after.Covered block) :
    shared.Covered block ∨ ∃ start stop, Ranges start stop ∧ start ≤ block ∧ block ≤ stop := by
  obtain indexed | scanned | ⟨gap, stored, covers⟩ := covered
  · exact .inl (.inl (opens.same.indexed ▸ indexed))
  · exact .inl (.inr (.inl (opens.same.scanned ▸ scanned)))
  · obtain old | range := opens.opened gap stored
    · exact .inl (.inr (.inr ⟨gap, old, covers⟩))
    · exact .inr ⟨_, _, range, covers⟩

/-! ## Batches -/

theorem openGap_opens (shared : Shared) (gap : Nat × Nat) :
    shared.Opens (shared.openGap gap) fun start stop => (start, stop) = gap := by
  unfold Shared.openGap
  split
  · exact .refl shared _
  · refine ⟨⟨rfl, rfl, rfl, rfl⟩, fun row old => mem_append_left _ old, ?_, _, rfl, ?_⟩
    · intro row stored
      rcases mem_append.mp stored with old | new
      · exact .inl old
      · rw [mem_singleton.mp new]
        exact .inr rfl
    · intro job queued
      rw [mem_singleton.mp queued]

/-- The range of a gap is covered once it is open. -/
theorem openGap_covered {gap : Nat × Nat} (inside : gap.1 ≤ block ∧ block ≤ gap.2) :
    (shared.openGap gap).Covered block := by
  unfold Shared.openGap
  split
  · rename_i present
    obtain ⟨row, stored, fits⟩ := any_eq_true.mp present
    obtain ⟨first, last, _⟩ := of_decide_eq_true fits
    exact .inr (.inr ⟨row, stored, first ▸ inside.1, last ▸ inside.2⟩)
  · exact .inr (.inr ⟨_, mem_append_right _ (mem_singleton_self _), inside⟩)

theorem foldl_openGap_opens (gaps : List (Nat × Nat)) :
    shared.Opens (gaps.foldl Shared.openGap shared) fun start stop => (start, stop) ∈ gaps := by
  induction gaps generalizing shared with
  | nil => exact .refl shared _
  | cons gap rest ih =>
    refine ((openGap_opens shared gap).mono ?_).trans (ih.mono ?_)
    · rintro start stop rfl
      exact mem_cons_self
    · exact fun start stop later => mem_cons_of_mem _ later

theorem foldl_openGap_covered {gaps : List (Nat × Nat)} {gap : Nat × Nat} (member : gap ∈ gaps)
    (inside : gap.1 ≤ block ∧ block ≤ gap.2) :
    (gaps.foldl Shared.openGap shared).Covered block := by
  induction gaps generalizing shared with
  | nil => cases member
  | cons first rest ih =>
    rw [foldl_cons]
    rcases mem_cons.mp member with rfl | later
    · exact (foldl_openGap_opens rest).covered (openGap_covered inside)
    · exact ih later

/-- The ranges of `coalesceGaps` hold its blocks. -/
theorem mem_coalesceFrom {start stop block : Nat} {blocks : List Nat} (ordered : start ≤ stop)
    (member : start ≤ block ∧ block ≤ stop ∨ block ∈ blocks) :
    ∃ gap ∈ coalesceFrom start stop blocks, gap.1 ≤ block ∧ block ≤ gap.2 := by
  induction blocks generalizing start stop with
  | nil => exact ⟨(start, stop), mem_singleton_self _, by simpa using member⟩
  | cons first rest ih =>
    rw [coalesceFrom, mem_cons] at *
    split
    · refine ih (by omega) ?_
      rcases member with inside | rfl | later
      · left
        omega
      · left
        omega
      · exact .inr later
    · rcases member with inside | rfl | later
      · exact ⟨(start, stop), mem_cons_self, inside⟩
      · obtain ⟨gap, found, range⟩ :=
          @ih block block le_rfl (.inl ⟨le_rfl, le_rfl⟩)
        exact ⟨gap, mem_cons_of_mem _ found, range⟩
      · obtain ⟨gap, found, range⟩ := @ih first first le_rfl (.inr later)
        exact ⟨gap, mem_cons_of_mem _ found, range⟩

/-- They hold nothing else. -/
theorem of_mem_coalesceFrom {start stop block : Nat} {blocks : List Nat} {gap : Nat × Nat}
    (found : gap ∈ coalesceFrom start stop blocks) (range : gap.1 ≤ block ∧ block ≤ gap.2) :
    start ≤ block ∧ block ≤ stop ∨ block ∈ blocks := by
  induction blocks generalizing start stop with
  | nil =>
    rw [mem_singleton.mp found] at range
    exact .inl range
  | cons first rest ih =>
    rw [coalesceFrom] at found
    rw [mem_cons]
    split at found
    · rename_i next
      obtain inside | later := ih found
      · obtain low | same := Nat.lt_or_eq_of_le inside.2
        · left
          omega
        · exact .inr (.inl same)
      · exact .inr (.inr later)
    · rcases mem_cons.mp found with rfl | other
      · exact .inl range
      · obtain inside | later := ih other
        · right
          left
          omega
        · exact .inr (.inr later)

theorem mem_coalesceGaps {blocks : List Nat} (member : block ∈ blocks) :
    ∃ gap ∈ coalesceGaps blocks, gap.1 ≤ block ∧ block ≤ gap.2 := by
  cases blocks with
  | nil => cases member
  | cons first rest =>
    refine mem_coalesceFrom le_rfl ?_
    rcases mem_cons.mp member with rfl | later
    · exact .inl ⟨le_rfl, le_rfl⟩
    · exact .inr later

theorem of_mem_coalesceGaps {blocks : List Nat} {block : Nat} {gap : Nat × Nat}
    (found : gap ∈ coalesceGaps blocks) (range : gap.1 ≤ block ∧ block ≤ gap.2) :
    block ∈ blocks := by
  cases blocks with
  | nil => cases found
  | cons first rest =>
    rw [mem_cons]
    obtain inside | later := of_mem_coalesceFrom found range
    · left
      omega
    · exact .inr later

theorem mem_missingIn : block ∈ shared.missingIn window ↔
    (window.batchStart ≤ block ∧ block ≤ window.batchEnd) ∧ block ∉ shared.indexedBlocks ∧
      block ∉ shared.scanned := by
  simp only [Shared.missingIn, mem_filter, mem_range'_1, Bool.and_eq_true,
    decide_eq_true_eq]
  refine and_congr_left fun _ => ?_
  omega

/-- A batch covers its blocks. -/
theorem detectBatch_covered (inside : window.batchStart ≤ block ∧ block ≤ window.batchEnd) :
    (shared.detectBatch window).Covered block := by
  by_cases missing : block ∈ shared.missingIn window
  · obtain ⟨gap, found, range⟩ := mem_coalesceGaps missing
    exact foldl_openGap_covered found range
  · refine (foldl_openGap_opens _).covered ?_
    by_contra uncovered
    refine missing (mem_missingIn.mpr ⟨inside, ?_, ?_⟩)
    · exact fun indexed => uncovered (.inl indexed)
    · exact fun scanned => uncovered (.inr (.inl scanned))

/-- It opens gaps of its blocks only. -/
theorem detectBatch_opens (shared : Shared) (window : Window) :
    shared.Opens (shared.detectBatch window) fun start stop => ∀ block, start ≤ block →
      block ≤ stop → window.batchStart ≤ block ∧ block ≤ window.batchEnd := by
  refine (foldl_openGap_opens _).mono ?_
  intro start stop found block low high
  have missing := @of_mem_coalesceGaps _ block _ found ⟨low, high⟩
  exact (mem_missingIn.mp missing).1

/-- The blocks that the batches from a window on contain: the last one is left out if a batch
would begin with it. -/
def Window.Reaches (window : Window) (block : Nat) : Prop :=
  window.batchStart ≤ block ∧ block ≤ window.endBlock ∧
    (block = window.endBlock → ¬ gapBatchSize ∣ window.endBlock - window.batchStart)

/-- A block is in the first batch or in one of the others. -/
theorem reaches_iff (more : window.batchStart < window.endBlock) :
    window.Reaches block ↔ window.batchStart ≤ block ∧ block ≤ window.batchEnd ∨
      window.advance.Reaches block := by
  simp only [Window.Reaches, Window.batchEnd, Window.advance, gapBatchSize]
  omega

theorem not_reaches (done : ¬ window.batchStart < window.endBlock) : ¬ window.Reaches block := by
  simp only [Window.Reaches, gapBatchSize]
  omega

/-- The loop opens gaps of the blocks that it reaches only. -/
theorem detectFrom_opens (shared : Shared) (window : Window) :
    shared.Opens (shared.detectFrom window) fun start stop => ∀ block, start ≤ block →
      block ≤ stop → window.Reaches block := by
  induction shared, window using Shared.detectFrom.induct with
  | case1 shared window more ih =>
    rw [Shared.detectFrom, if_pos more]
    refine ((detectBatch_opens shared window).mono ?_).trans (ih.mono ?_)
    · exact fun start stop inside block low high =>
        (reaches_iff more).mpr (.inl (inside block low high))
    · exact fun start stop inside block low high =>
        (reaches_iff more).mpr (.inr (inside block low high))
  | case2 shared window done =>
    rw [Shared.detectFrom, if_neg done]
    exact .refl shared _

/-- It covers all of them. -/
theorem detectFrom_covered (reaches : window.Reaches block) :
    (shared.detectFrom window).Covered block := by
  induction shared, window using Shared.detectFrom.induct with
  | case1 shared window more ih =>
    rw [Shared.detectFrom, if_pos more]
    obtain inside | later := (reaches_iff more).mp reaches
    · exact (detectFrom_opens _ _).covered (detectBatch_covered inside)
    · exact ih later
  | case2 shared window done => exact absurd reaches (not_reaches done)

/-! ## Runs -/

/-- The blocks that have to be covered: from the earliest start of a monitored address through the
cursor. -/
def Shared.Due (shared : Shared) (block : Nat) : Prop :=
  ∃ start, earliestStart shared.monitored = some start ∧ start ≤ block ∧
    block ≤ shared.lastBlock

/-- The blocks that a run looks at: at most `maxGapLookback` before the cursor, and the cursor's own
block only if the last batch does not end just before it. -/
def Shared.Reaches (shared : Shared) (block : Nat) : Prop :=
  ∃ start, earliestStart shared.monitored = some start ∧ start < shared.lastBlock ∧
    Window.Reaches ⟨max start (shared.lastBlock - maxGapLookback), shared.lastBlock⟩ block

theorem firstWindow_some : shared.firstWindow = some window ↔
    ∃ start, earliestStart shared.monitored = some start ∧ start < shared.lastBlock ∧
      window = ⟨max start (shared.lastBlock - maxGapLookback), shared.lastBlock⟩ := by
  unfold Shared.firstWindow
  constructor
  · intro first
    split at first
    · cases first
    · obtain ⟨start, earliest, chosen⟩ := Option.bind_eq_some_iff.mp first
      split at chosen
      · cases chosen
      · rename_i below
        cases chosen
        exact ⟨start, earliest, not_le.mp below, rfl⟩
  · rintro ⟨start, earliest, below, rfl⟩
    rw [if_neg (Nat.ne_of_gt (Nat.zero_lt_of_lt below)), earliest]
    exact if_neg (not_le.mpr below)

/-- A run covers the blocks that it reaches. -/
theorem detect_covered (reaches : shared.Reaches block) :
    shared.detectAndEnqueueGaps.Covered block := by
  obtain ⟨start, earliest, below, inside⟩ := reaches
  rw [Shared.detectAndEnqueueGaps, firstWindow_some.mpr ⟨start, earliest, below, rfl⟩]
  exact detectFrom_covered inside

/-- It opens gaps of those blocks only. -/
theorem detect_opens (shared : Shared) :
    shared.Opens shared.detectAndEnqueueGaps fun start stop => ∀ block, start ≤ block →
      block ≤ stop → shared.Reaches block := by
  unfold Shared.detectAndEnqueueGaps
  split
  · exact .refl shared _
  · rename_i window first
    obtain ⟨start, earliest, below, rfl⟩ := firstWindow_some.mp first
    refine (detectFrom_opens shared _).mono ?_
    exact fun _ _ inside block low high => ⟨start, earliest, below, inside block low high⟩

/-- The jobs that a run has queued. -/
def Shared.queued (shared : Shared) : List JobData :=
  shared.detectAndEnqueueGaps.jobs.drop shared.jobs.length

theorem reaches_of_queued {job : JobData} (member : job ∈ shared.queued)
    (inside : job.startBlock ≤ block ∧ block ≤ job.endBlock) : shared.Reaches block := by
  obtain ⟨queued, jobs, own⟩ := (detect_opens shared).jobs
  rw [Shared.queued, jobs, drop_left] at member
  exact own job member block inside.1 inside.2

/-- The backfills of some jobs have ended: their gaps are closed, and some of their blocks are
indexed or marked as scanned by now. A block that cannot be processed is neither. -/
structure Completes (jobs : List JobData) (before after : Shared) : Prop where
  monitored : after.monitored = before.monitored
  lastBlock : after.lastBlock = before.lastBlock
  ranges : after.gaps.map (fun gap => (gap.gapStartBlock, gap.gapEndBlock)) =
    before.gaps.map fun gap => (gap.gapStartBlock, gap.gapEndBlock)
  closed : ∀ job ∈ jobs, ∀ gap ∈ after.gaps, gap.id = job.gapId →
    gap.status = .resolved ∨ gap.status = .failed
  kept : ∀ block, (block ∈ before.indexedBlocks → block ∈ after.indexedBlocks) ∧
    (block ∈ before.scanned → block ∈ after.scanned)
  marked : ∀ block, block ∈ after.indexedBlocks ∨ block ∈ after.scanned →
    (block ∈ before.indexedBlocks ∨ block ∈ before.scanned) ∨
      ∃ job ∈ jobs, job.startBlock ≤ block ∧ block ≤ job.endBlock

/-- Some number of runs, each followed by the end of the backfills that it queued. -/
inductive Rounds : Nat → Shared → Shared → Prop where
  | none (shared : Shared) : Rounds 0 shared shared
  | next {count : Nat} {first before after : Shared} (earlier : Rounds count first before)
      (completes : Completes before.queued before.detectAndEnqueueGaps after) :
      Rounds (count + 1) first after

/-- After sufficiently many runs every block is covered that has to be. -/
def Shared.EventuallyCovered (shared : Shared) : Prop :=
  ∃ enough, ∀ count later, enough ≤ count → Rounds count shared later →
    ∀ block, shared.Due block → later.Covered block

/-- Backfills change no range of a gap. -/
theorem gap_of_ranges {before after : Shared}
    (ranges : after.gaps.map (fun gap => (gap.gapStartBlock, gap.gapEndBlock)) =
      before.gaps.map fun gap => (gap.gapStartBlock, gap.gapEndBlock)) {gap : Gap}
    (stored : gap ∈ before.gaps) (covers : gap.Covers block) :
    ∃ other ∈ after.gaps, other.Covers block := by
  have range : (gap.gapStartBlock, gap.gapEndBlock) ∈
      after.gaps.map fun gap => (gap.gapStartBlock, gap.gapEndBlock) := by
    rw [ranges]
    exact mem_map_of_mem stored
  obtain ⟨other, found, same⟩ := mem_map.mp range
  obtain ⟨start, stop⟩ := Prod.mk.inj same
  exact ⟨other, found, start ▸ covers.1, stop ▸ covers.2⟩

theorem Completes.covered {jobs : List JobData} (completes : Completes jobs shared after)
    (covered : shared.Covered block) : after.Covered block := by
  obtain indexed | scanned | ⟨gap, stored, covers⟩ := covered
  · exact .inl ((completes.kept block).1 indexed)
  · exact .inr (.inl ((completes.kept block).2 scanned))
  · exact .inr (.inr (gap_of_ranges completes.ranges stored covers))

theorem Completes.covered_cases {jobs : List JobData} (completes : Completes jobs shared after)
    (covered : after.Covered block) :
    shared.Covered block ∨ ∃ job ∈ jobs, job.startBlock ≤ block ∧ block ≤ job.endBlock := by
  obtain marked | ⟨gap, stored, covers⟩ := or_assoc.mpr covered
  · refine (completes.marked block marked).imp_left fun old => ?_
    exact or_assoc.mp (.inl old)
  · exact .inl (.inr (.inr (gap_of_ranges completes.ranges.symm stored covers)))

variable {later : Shared}

/-- A round leaves the window where it is. -/
theorem rounds_same {count : Nat} (rounds : Rounds count shared later) :
    later.monitored = shared.monitored ∧ later.lastBlock = shared.lastBlock := by
  induction rounds with
  | none => exact ⟨rfl, rfl⟩
  | next earlier completes ih =>
    rename_i count first before after
    have same := (detect_opens before).same
    exact ⟨completes.monitored.trans (same.monitored.trans ih.1),
      completes.lastBlock.trans (same.lastBlock.trans ih.2)⟩

theorem reaches_congr (monitored : later.monitored = shared.monitored)
    (lastBlock : later.lastBlock = shared.lastBlock) (block : Nat) :
    later.Reaches block ↔ shared.Reaches block := by
  rw [Shared.Reaches, Shared.Reaches, monitored, lastBlock]

/-- Rounds keep what is covered, and one of them covers all that it reaches. -/
theorem rounds_covered {count : Nat} (rounds : Rounds count shared later)
    (covered : shared.Covered block ∨ 1 ≤ count ∧ shared.Reaches block) : later.Covered block := by
  induction rounds with
  | none shared => exact covered.resolve_right fun none => by omega
  | next earlier completes ih =>
    rename_i rounds first before after
    refine completes.covered ?_
    obtain old | ⟨_, reaches⟩ := covered
    · exact (detect_opens _).covered (ih (.inl old))
    · obtain ⟨monitored, lastBlock⟩ := rounds_same earlier
      exact detect_covered ((reaches_congr monitored lastBlock block).mpr reaches)

/-- No round covers a block that is not reached. -/
theorem covered_of_rounds {count : Nat} (rounds : Rounds count shared later)
    (unreached : ¬ shared.Reaches block) (covered : later.Covered block) :
    shared.Covered block := by
  induction rounds with
  | none => exact covered
  | next earlier completes ih =>
    obtain ⟨monitored, lastBlock⟩ := rounds_same earlier
    have never := mt (reaches_congr monitored lastBlock block).mp unreached
    refine ih unreached ?_
    obtain run | ⟨job, queued, inside⟩ := completes.covered_cases covered
    · obtain old | ⟨start, stop, reached, low, high⟩ := (detect_opens _).covered_cases run
      · exact old
      · exact absurd (reached block low high) never
    · exact absurd (reaches_of_queued queued inside) never

/-- The backfills of a run can end, without any of their blocks processed. -/
theorem exists_completes (jobs : List JobData) (shared : Shared) :
    ∃ after, Completes jobs shared after := by
  let close (gap : Gap) : Gap :=
    if jobs.any fun job => job.gapId = gap.id then { gap with status := .resolved } else gap
  have range : ∀ gap, ((close gap).gapStartBlock, (close gap).gapEndBlock) =
      (gap.gapStartBlock, gap.gapEndBlock) := by
    intro gap
    dsimp only [close]
    split <;> rfl
  refine ⟨{ shared with gaps := shared.gaps.map close }, rfl, rfl, ?_, ?_, fun _ => ⟨id, id⟩,
    fun _ old => .inl old⟩
  · rw [map_map]
    exact map_congr_left fun gap _ => range gap
  · intro job queued gap stored same
    obtain ⟨old, _, rfl⟩ := mem_map.mp stored
    have named : (close old).id = old.id := by
      dsimp only [close]
      split <;> rfl
    have ours : (jobs.any fun job => job.gapId = old.id) = true :=
      any_eq_true.mpr ⟨job, queued, decide_eq_true (same.symm.trans named)⟩
    left
    simp only [close, ours, if_true]

theorem exists_rounds (count : Nat) (shared : Shared) : ∃ later, Rounds count shared later := by
  induction count with
  | zero => exact ⟨shared, .none shared⟩
  | succ count ih =>
    obtain ⟨before, rounds⟩ := ih
    obtain ⟨after, completes⟩ := exists_completes before.queued before.detectAndEnqueueGaps
    exact ⟨after, .next rounds completes⟩

/-- Once the cursor stays unchanged, runs eventually cover every block from the earliest monitored
start through the cursor if and only if those that a run does not reach are covered already. -/
theorem gaps_eventually_covered_iff (shared : Shared) :
    shared.EventuallyCovered ↔
      ∀ block, shared.Due block → ¬ shared.Reaches block → shared.Covered block := by
  constructor
  · rintro ⟨enough, covered⟩ block isDue unreached
    obtain ⟨later, rounds⟩ := exists_rounds enough shared
    exact covered_of_rounds rounds unreached (covered enough later le_rfl rounds block isDue)
  · intro left
    refine ⟨1, fun count later some rounds block isDue => rounds_covered rounds ?_⟩
    by_cases reaches : shared.Reaches block
    · exact .inr ⟨some, reaches⟩
    · exact .inl (left block isDue reaches)

/-- Address 7 is monitored from block 1 on, and nothing is known of any block up to the cursor. -/
def unseenIndexer (lastBlock : Nat) : Shared :=
  ⟨[⟨7, ⟨1, 1, 1⟩, 1⟩], none, [], [], lastBlock, [], [], [], []⟩

/-- The cursor is far ahead and the window never moves back to block 1; and a batch ends just
before block 1001. -/
theorem gaps_left :
    ¬ (unseenIndexer 20000).EventuallyCovered ∧ ¬ (unseenIndexer 1001).EventuallyCovered := by
  have unseen : ∀ lastBlock block, (unseenIndexer lastBlock).Due block →
      ¬ (unseenIndexer lastBlock).Reaches block →
        ¬ (unseenIndexer lastBlock).EventuallyCovered := by
    rintro lastBlock block isDue unreached ⟨enough, covered⟩
    obtain ⟨later, rounds⟩ := exists_rounds enough (unseenIndexer lastBlock)
    have before := covered_of_rounds rounds unreached
      (covered enough later le_rfl rounds block isDue)
    simp [Shared.Covered, unseenIndexer] at before
  have first : ∀ lastBlock, earliestStart (unseenIndexer lastBlock).monitored = some 1 :=
    fun _ => rfl
  constructor
  · refine unseen 20000 1 ⟨1, first _, by decide, by decide⟩ ?_
    rintro ⟨start, earliest, _, low, _⟩
    simp [unseenIndexer, maxGapLookback] at low
  · refine unseen 1001 1001 ⟨1, first _, by decide, by decide⟩ ?_
    rintro ⟨start, earliest, _, _, _, last⟩
    cases (first 1001).symm.trans earliest
    exact last rfl (by decide)

end CryptoVaultHub.Indexer.Backfill
