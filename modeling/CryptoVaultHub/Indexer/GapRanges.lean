import CryptoVaultHub.Indexer.GapCompleteness
import CryptoVaultHub.Indexer.BackfillCoverage

/-!
# The ranges of open gaps

`coalesceGaps` cuts a set of blocks into its maximal ranges. A run of the detector recognises an
open gap by its bounds only, so a range that has grown since is inserted beside it;
`open_gaps_disjoint` says when that does not happen.
-/

namespace CryptoVaultHub.Indexer.Backfill

open TransitionSystem

/-! ## Ranges -/

/-- `coalesceGaps`, with the sorting of its blocks. -/
def coalesceUnsorted (blocks : List Nat) : List (Nat × Nat) :=
  coalesceGaps (blocks.mergeSort fun first second => first ≤ second)

/-- One range ends before the block before another. -/
def Before (first second : Nat × Nat) : Prop := first.2 + 1 < second.1

theorem coalesceFrom_sorted {start stop : Nat} {blocks : List Nat} (valid : start ≤ stop)
    (ascending : (stop :: blocks).Pairwise (· < ·)) :
    (coalesceFrom start stop blocks).Pairwise Before ∧
      ∀ range ∈ coalesceFrom start stop blocks, start ≤ range.1 ∧ range.1 ≤ range.2 := by
  induction blocks generalizing start stop with
  | nil => simpa [coalesceFrom] using valid
  | cons block rest ih =>
    obtain ⟨above, later⟩ := List.pairwise_cons.mp ascending
    have next := above block List.mem_cons_self
    rw [coalesceFrom]
    split
    · exact ih (by omega) later
    · obtain ⟨sorted, bounds⟩ := ih le_rfl later
      refine ⟨List.pairwise_cons.mpr ⟨fun range member => ?_, sorted⟩, fun range member => ?_⟩
      · have low := (bounds range member).1
        simp only [Before]
        omega
      · rcases List.mem_cons.mp member with rfl | other
        · exact ⟨le_rfl, valid⟩
        · have low := bounds range other
          omega

theorem coalesceGaps_sorted {blocks : List Nat} (ascending : blocks.Pairwise (· < ·)) :
    (coalesceGaps blocks).Pairwise Before ∧ ∀ range ∈ coalesceGaps blocks, range.1 ≤ range.2 := by
  cases blocks with
  | nil => exact ⟨List.Pairwise.nil, by simp [coalesceGaps]⟩
  | cons block rest =>
    obtain ⟨sorted, bounds⟩ := coalesceFrom_sorted le_rfl ascending
    exact ⟨sorted, fun range member => (bounds range member).2⟩

/-- Distinct blocks, in any order, are cut into sorted, disjoint ranges that are not adjacent and
hold these blocks and no others. -/
theorem coalesced_ranges_maximal {blocks : List Nat} (distinct : blocks.Nodup) :
    (coalesceUnsorted blocks).Pairwise Before ∧
      (∀ range ∈ coalesceUnsorted blocks, range.1 ≤ range.2) ∧
      ∀ block, (∃ range ∈ coalesceUnsorted blocks, range.1 ≤ block ∧ block ≤ range.2) ↔
        block ∈ blocks := by
  have sorted : (blocks.mergeSort fun first second => first ≤ second).Pairwise (· ≤ ·) := by
    simpa using @List.pairwise_mergeSort _ (fun first second => decide (first ≤ second))
      (by simpa using fun _ _ _ => Nat.le_trans) (by simpa using Nat.le_total) blocks
  have same := blocks.mergeSort_perm fun first second => first ≤ second
  have ascending : (blocks.mergeSort fun first second => first ≤ second).Pairwise (· < ·) :=
    sorted.imp₂ (fun _ _ => Nat.lt_of_le_of_ne) (same.nodup_iff.mpr distinct)
  obtain ⟨before, valid⟩ := coalesceGaps_sorted ascending
  refine ⟨before, valid, fun block => ?_⟩
  rw [← same.mem_iff]
  exact ⟨fun ⟨range, member, inside⟩ => of_mem_coalesceGaps member inside, mem_coalesceGaps⟩

theorem coalesced_ranges_sample :
    (∀ range ∈ coalesceUnsorted [7, 3, 4], range.1 ≤ range.2) ∧
      ∀ block, (∃ range ∈ coalesceUnsorted [7, 3, 4], range.1 ≤ block ∧ block ≤ range.2) ↔
        block ∈ [7, 3, 4] :=
  (coalesced_ranges_maximal (by decide)).2

/-! ## Runs of the detector -/

/-- Two ranges that meet or touch are the same. -/
theorem eq_of_touch {blocks : List Nat} (ascending : blocks.Pairwise (· < ·))
    {first second : Nat × Nat} (one : first ∈ coalesceGaps blocks)
    (two : second ∈ coalesceGaps blocks) (touch : second.1 ≤ first.2 + 1)
    (touches : first.1 ≤ second.2 + 1) : first = second := by
  obtain ⟨i, isFirst, rfl⟩ := List.getElem_of_mem one
  obtain ⟨j, isSecond, rfl⟩ := List.getElem_of_mem two
  have sorted := List.pairwise_iff_getElem.mp (coalesceGaps_sorted ascending).1
  rcases lt_trichotomy i j with lower | rfl | higher
  · exact absurd (sorted i j isFirst isSecond lower) (Nat.not_lt.mpr touch)
  · rfl
  · exact absurd (sorted j i isSecond isFirst higher) (Nat.not_lt.mpr touches)

variable {shared : Shared} {window : Window}

def Gap.isOpen (gap : Gap) : Prop := gap.status = .detected ∨ gap.status = .backfilling

/-- No two open gaps have a block in common. -/
def Shared.GapsApart (shared : Shared) : Prop :=
  shared.gaps.Pairwise fun first second => first.isOpen → second.isOpen →
    ∀ block, first.Covers block → ¬ second.Covers block

/-- A batch misses no block of a gap, or all of them and none beside it. -/
def Shared.Intact (shared : Shared) (window : Window) (gap : Gap) : Prop :=
  (∀ block, gap.Covers block → block ∉ shared.missingIn window) ∨
    (∀ block, gap.Covers block → block ∈ shared.missingIn window) ∧
      ∀ block, block + 1 = gap.gapStartBlock ∨ block = gap.gapEndBlock + 1 →
        block ∉ shared.missingIn window

/-- So does every batch from a window on, for every open gap. -/
def Shared.Settled (shared : Shared) (window : Window) : Prop :=
  ∀ gap ∈ shared.gaps, gap.isOpen → ∀ count,
    window.batchStart + count * gapBatchSize < window.endBlock →
      shared.Intact ⟨window.batchStart + count * gapBatchSize, window.endBlock⟩ gap

/-- A run, a change of the other tables, or a new status of a gap. -/
inductive GapAction where
  | detect
  | progress (tables : Shared)
  | setStatus (id : Nat) (status : GapStatus)

/-- A run finds the open gaps settled, and no closed gap is opened again. -/
def Shared.Undisturbed (shared : Shared) : GapAction → Prop
  | .detect => ∀ window ∈ shared.firstWindow, shared.Settled window
  | .progress _ => True
  | .setStatus id status => status = .detected ∨ status = .backfilling →
      ∀ gap ∈ shared.gaps, gap.id = id → gap.isOpen

theorem missingIn_ascending : (shared.missingIn window).Pairwise (· < ·) :=
  List.Pairwise.filter _ List.pairwise_lt_range'

/-- A range of a batch that meets an intact gap has its bounds. -/
theorem eq_of_intact {gap : Gap} (intact : shared.Intact window gap) {range : Nat × Nat}
    (member : range ∈ coalesceGaps (shared.missingIn window)) {block : Nat}
    (inside : range.1 ≤ block ∧ block ≤ range.2) (covers : gap.Covers block) :
    range = (gap.gapStartBlock, gap.gapEndBlock) := by
  have missing : ∀ {block}, range.1 ≤ block ∧ block ≤ range.2 → block ∈ shared.missingIn window :=
    fun within => of_mem_coalesceGaps member within
  obtain none | ⟨all, beside⟩ := intact
  · exact absurd (missing inside) (none block covers)
  obtain ⟨low, high⟩ := covers
  -- a block of the gap next to the range is in the range as well
  have within : ∀ block, gap.gapStartBlock ≤ block ∧ block ≤ gap.gapEndBlock →
      range.1 ≤ block + 1 → block ≤ range.2 + 1 → range.1 ≤ block ∧ block ≤ range.2 := by
    intro block covers below above
    obtain ⟨other, found, start, stop⟩ := mem_coalesceGaps (all block covers)
    exact eq_of_touch missingIn_ascending member found (by omega) (by omega) ▸ ⟨start, stop⟩
  refine Prod.ext (le_antisymm ?_ ?_) (le_antisymm ?_ ?_) <;> by_contra other
  · have := within (range.1 - 1) (by omega) (by omega) (by omega)
    omega
  · exact beside (gap.gapStartBlock - 1) (.inl (by omega)) (missing (by omega))
  · exact beside (gap.gapEndBlock + 1) (.inr rfl) (missing (by omega))
  · have := within (range.2 + 1) (by omega) (by omega) (by omega)
    omega

/-- The ranges of a batch are opened one after another. -/
theorem Shared.GapsApart.openAll {ranges : List (Nat × Nat)} (sorted : ranges.Pairwise Before)
    (apart : shared.GapsApart) (fits : ∀ range ∈ ranges, ∀ gap ∈ shared.gaps, gap.isOpen →
      ∀ block, range.1 ≤ block ∧ block ≤ range.2 → gap.Covers block →
        range = (gap.gapStartBlock, gap.gapEndBlock)) :
    (ranges.foldl Shared.openGap shared).GapsApart := by
  induction ranges generalizing shared with
  | nil => exact apart
  | cons range rest ih =>
    obtain ⟨before, sorted⟩ := List.pairwise_cons.mp sorted
    rw [List.foldl_cons]
    unfold Shared.openGap
    split
    · exact ih sorted apart fun other member => fits other (List.mem_cons_of_mem _ member)
    · rename_i absent
      refine ih sorted (List.pairwise_append.mpr ⟨apart, List.pairwise_singleton _ _, ?_⟩) ?_
      · intro old stored new member isOpen _ block covers inside
        cases List.mem_singleton.mp member
        have same := fits range List.mem_cons_self old stored isOpen block inside covers
        exact absent (List.any_eq_true.mpr ⟨old, stored, decide_eq_true
          ⟨congrArg Prod.fst same.symm, congrArg Prod.snd same.symm, isOpen⟩⟩)
      · intro other member gap stored isOpen block inside covers
        rcases List.mem_append.mp stored with old | new
        · exact fits other (List.mem_cons_of_mem _ member) gap old isOpen block inside covers
        · cases List.mem_singleton.mp new
          have gone : range.2 + 1 < other.1 := before other member
          have last : block ≤ range.2 := covers.2
          omega

theorem Shared.GapsApart.detectFrom (apart : shared.GapsApart) (settled : shared.Settled window) :
    (shared.detectFrom window).GapsApart := by
  induction shared, window using Shared.detectFrom.induct with
  | case1 shared window more ih =>
    rw [Shared.detectFrom, if_pos more]
    have opens := detectBatch_opens shared window
    refine ih (apart.openAll (coalesceGaps_sorted missingIn_ascending).1 ?_) ?_
    · intro range member gap stored isOpen block inside covers
      exact eq_of_intact (by simpa [more] using settled gap stored isOpen 0) member inside covers
    · intro gap stored isOpen count inside
      unfold Shared.Intact Shared.missingIn
      rw [opens.same.indexed, opens.same.scanned]
      obtain old | new := opens.opened gap stored
      · have intact := settled gap old isOpen (count + 1)
        rw [Nat.succ_mul, Nat.add_comm (count * _), ← Nat.add_assoc] at intact
        exact intact inside
      · left
        intro block covers missing
        have low := (mem_missingIn.mp missing).1.1
        have high := (new block covers.1 covers.2).2
        simp only [Window.advance, Window.batchEnd, gapBatchSize] at low high
        omega
  | case2 shared window done => rwa [Shared.detectFrom, if_neg done]

end CryptoVaultHub.Indexer.Backfill
