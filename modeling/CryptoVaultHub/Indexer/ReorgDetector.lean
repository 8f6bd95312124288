import Mathlib

/-!
# Looking for a reorganisation

`checkForReorg` walks down from the last block of the cursor and compares the hash that is
stored for each block with the hash that the provider returns. A hash is stored in the cache or
in `indexed_blocks`; a row that is read goes to the cache. The walk ends at the first block that
is not a mismatch, and a block that cannot be compared ends it as a deep reorganisation does.
-/

namespace CryptoVaultHub.Indexer.ReorgDetector

/-! ## Stored hashes -/

/-- The keys `block:<chain>:<block>:hash` and the hashes of `indexed_blocks`. -/
structure HashStore where
  cache : List (Nat × String)
  rows : List (Nat × String)
deriving DecidableEq

/-- The first entry of a block; an empty hash counts as none. -/
def hash? (entries : List (Nat × String)) (block : Nat) : Option String :=
  ((entries.find? fun entry => entry.1 = block).map Prod.snd).filter fun hash => hash ≠ ""

/-- `cacheBlockHash`. -/
def HashStore.cacheBlockHash (store : HashStore) (block : Nat) (hash : String) : HashStore :=
  { store with cache := (block, hash) :: store.cache }

/-- `getStoredBlockHash`, with the store that it leaves. -/
def HashStore.getStoredBlockHash (store : HashStore) (block : Nat) : Option String × HashStore :=
  match hash? store.cache block with
  | some cached => (some cached, store)
  | none =>
    match hash? store.rows block with
    | some hash => (some hash, store.cacheBlockHash block hash)
    | none => (none, store)

/-- The hash that is stored for a block. -/
def HashStore.stored (store : HashStore) (block : Nat) : Option String :=
  (hash? store.cache block).or (hash? store.rows block)

/-! ## The walk -/

/-- What `getBlock` of the provider does. -/
inductive Fetched where
  | thrown
  | null
  | found (hash : String)
deriving DecidableEq

/-- What the services answer: the cursor, the blocks for which reading or caching the stored hash
throws, the blocks of the provider, and whether it and the stream are there. -/
structure Services where
  lastBlock : Option Nat
  providerFails : Bool
  lookupFails : Nat → Bool
  getBlock : Nat → Fetched
  publishFails : Bool

structure ReorgResult where
  detected : Bool
  depth : Nat
  reorgFromBlock : Option Int
deriving DecidableEq

def notDetected : ReorgResult := { detected := false, depth := 0, reorgFromBlock := none }

/-- The result after the loop, whichever way it was left. -/
def deepReorg (startBlock maxDepth depth : Nat) : ReorgResult :=
  { detected := true
    depth := depth
    reorgFromBlock := some (startBlock - maxDepth + 1) }

/-- The loop with its counters, for the blocks that are left; `none` when it throws. -/
def walk (services : Services) (startBlock maxDepth : Nat) :
    (left i depth : Nat) → HashStore → Option ReorgResult
  | 0, _, depth, _ => some (deepReorg startBlock maxDepth depth)
  | left + 1, i, depth, store =>
    if startBlock < i then some (deepReorg startBlock maxDepth depth)
    else
      let checkBlock := startBlock - i
      if services.lookupFails checkBlock then none
      else
        let (storedBlock, cached) := store.getStoredBlockHash checkBlock
        match storedBlock with
        | none => some (deepReorg startBlock maxDepth depth)
        | some storedBlock =>
          match services.getBlock checkBlock with
          | .thrown => none
          | .null => some (deepReorg startBlock maxDepth depth)
          | .found canonical =>
            if storedBlock = canonical then
              if 0 < i then
                if services.publishFails then none
                else some {
                  detected := true
                  depth := i
                  reorgFromBlock := some (checkBlock + 1) }
              else some notDetected
            else walk services startBlock maxDepth left (i + 1) (depth + 1) cached

def checkForReorg (services : Services) (store : HashStore) (maxDepth : Nat) :
    Option ReorgResult :=
  match services.lastBlock with
  | none => some notDetected
  | some startBlock =>
    if services.providerFails then none
    else walk services startBlock maxDepth maxDepth 0 0 store

/-! ## Comparing blocks -/

inductive Comparison where
  | equal
  | differs
  | missing
  | failed
deriving DecidableEq

/-- What the stored and the canonical hash of a block say about it. -/
def compare (services : Services) (store : HashStore) (block : Nat) : Comparison :=
  if services.lookupFails block then .failed
  else
    match store.stored block with
    | none => .missing
    | some stored =>
      match services.getBlock block with
      | .thrown => .failed
      | .null => .missing
      | .found canonical => if stored = canonical then .equal else .differs

/-- The blocks within the search depth. -/
@[reducible] def InReach (startBlock maxDepth block : Nat) : Prop :=
  block ≤ startBlock ∧ startBlock < block + maxDepth

/-- A block within the search depth whose stored hash differs from the canonical one. -/
def Mismatch (services : Services) (store : HashStore) (maxDepth block : Nat) : Prop :=
  ∃ startBlock, services.lastBlock = some startBlock ∧ InReach startBlock maxDepth block ∧
    compare services store block = .differs

/-- The fork block that a result reports, if it reports one. -/
def reported? (result : Option ReorgResult) : Option Int :=
  result.bind fun result => if result.detected then result.reorgFromBlock else none

/-- A reorganisation is reported exactly if a stored hash differs, from the lowest such block. -/
def Accurate (services : Services) (store : HashStore) (maxDepth : Nat)
    (result : Option ReorgResult) : Prop :=
  match reported? result with
  | none => ∀ block, ¬Mismatch services store maxDepth block
  | some forkBlock =>
    ∃ block : Nat, forkBlock = block ∧ IsLeast {block | Mismatch services store maxDepth block} block

variable {services : Services} {store : HashStore} {startBlock maxDepth : Nat}

theorem getStoredBlockHash_fst (store : HashStore) (block : Nat) :
    (store.getStoredBlockHash block).1 = store.stored block := by
  rw [HashStore.getStoredBlockHash, HashStore.stored]
  cases hash? store.cache block with
  | some cached => rfl
  | none => cases hash? store.rows block <;> rfl

theorem hash?_cons_of_ne {block other : Nat} (apart : block ≠ other) (hash : String)
    (entries : List (Nat × String)) : hash? ((block, hash) :: entries) other = hash? entries other := by
  rw [hash?, hash?, List.find?_cons_of_neg (by simpa using apart)]

theorem hash?_cons_self {block : Nat} {hash : String} (entries : List (Nat × String))
    (present : hash ≠ "") : hash? ((block, hash) :: entries) block = some hash := by
  rw [hash?, List.find?_cons_of_pos (by simp), Option.map_some, Option.filter_some_pos]
  simpa using present

/-- Caching a hash changes no stored hash. -/
theorem stored_getStoredBlockHash (store : HashStore) (block other : Nat) :
    (store.getStoredBlockHash block).2.stored other = store.stored other := by
  rw [HashStore.getStoredBlockHash]
  cases cached : hash? store.cache block with
  | some hash => rfl
  | none =>
    cases row : hash? store.rows block with
    | none => rfl
    | some hash =>
      simp only [HashStore.stored, HashStore.cacheBlockHash]
      by_cases same : block = other
      · subst same
        obtain ⟨_, truthy⟩ := Option.filter_eq_some_iff.mp row
        rw [hash?_cons_self _ (by simpa using truthy), cached, row]
        rfl
      · rw [hash?_cons_of_ne same]

theorem compare_getStoredBlockHash (block other : Nat) :
    compare services (store.getStoredBlockHash block).2 other = compare services store other := by
  rw [compare, compare, stored_getStoredBlockHash]

/-- One round of the loop, by what the comparison of its block says. -/
theorem walk_succ {left i depth : Nat} (above : i ≤ startBlock) :
    walk services startBlock maxDepth (left + 1) i depth store =
      match compare services store (startBlock - i) with
      | .failed => none
      | .missing => some (deepReorg startBlock maxDepth depth)
      | .equal =>
        if 0 < i then
          if services.publishFails then none
          else some {
            detected := true
            depth := i
            reorgFromBlock := some ((startBlock - i : Nat) + 1) }
        else some notDetected
      | .differs => walk services startBlock maxDepth left (i + 1) (depth + 1)
          (store.getStoredBlockHash (startBlock - i)).2 := by
  rw [walk, if_neg (by omega), compare]
  simp only
  by_cases fails : services.lookupFails (startBlock - i) = true
  · rw [if_pos fails, if_pos fails]
  · rw [if_neg fails, if_neg fails, getStoredBlockHash_fst]
    cases store.stored (startBlock - i) with
    | none => rfl
    | some stored =>
      cases services.getBlock (startBlock - i) with
      | thrown => rfl
      | null => rfl
      | found canonical =>
        by_cases same : stored = canonical
        · simp only [if_pos same]
        · simp only [if_neg same]

/-! ## Where the walk ends -/

/-- All the blocks above, within the search depth, are mismatches. -/
def MismatchesAbove (services : Services) (store : HashStore) (startBlock maxDepth block : Nat) :
    Prop :=
  ∀ higher, InReach startBlock maxDepth higher → block < higher →
    compare services store higher = .differs

/-- The block at which the walk ends. -/
structure EndsAt (services : Services) (store : HashStore) (startBlock maxDepth block : Nat)
    (comparison : Comparison) : Prop where
  inReach : InReach startBlock maxDepth block
  above : MismatchesAbove services store startBlock maxDepth block
  compared : compare services store block = comparison

/-- The walk ends at one block only. -/
theorem EndsAt.unique {block other : Nat} {comparison comparison' : Comparison}
    (first : EndsAt services store startBlock maxDepth block comparison)
    (second : EndsAt services store startBlock maxDepth other comparison')
    (here : comparison ≠ .differs) (there : comparison' ≠ .differs) :
    block = other ∧ comparison = comparison' := by
  have same : block = other := by
    rcases Nat.lt_trichotomy block other with lower | same | higher
    · exact absurd (second.compared.symm.trans (first.above other second.inReach lower)) there
    · exact same
    · exact absurd (first.compared.symm.trans (second.above block first.inReach higher)) here
  exact ⟨same, first.compared.symm.trans (same ▸ second.compared)⟩

/-- What the walk returns, by the block at which it ends. -/
inductive Walked (services : Services) (store : HashStore) (startBlock maxDepth : Nat) :
    Option ReorgResult → Prop where
  | failed {block} (end_ : EndsAt services store startBlock maxDepth block .failed) :
      Walked services store startBlock maxDepth none
  | missing {block depth} (end_ : EndsAt services store startBlock maxDepth block .missing) :
      Walked services store startBlock maxDepth (some (deepReorg startBlock maxDepth depth))
  | tip (end_ : EndsAt services store startBlock maxDepth startBlock .equal) :
      Walked services store startBlock maxDepth (some notDetected)
  | ancestor {block} (end_ : EndsAt services store startBlock maxDepth block .equal)
      (below : block < startBlock) : Walked services store startBlock maxDepth
        (if services.publishFails then none
        else some {
          detected := true
          depth := startBlock - block
          reorgFromBlock := some (block + 1) })
  | deep {depth}
      (all : ∀ block, InReach startBlock maxDepth block → compare services store block = .differs) :
      Walked services store startBlock maxDepth (some (deepReorg startBlock maxDepth depth))

theorem Walked.of_compare {store' : HashStore} {result : Option ReorgResult}
    (same : ∀ block, compare services store' block = compare services store block)
    (walked : Walked services store' startBlock maxDepth result) :
    Walked services store startBlock maxDepth result := by
  have ends : ∀ {block comparison}, EndsAt services store' startBlock maxDepth block comparison →
      EndsAt services store startBlock maxDepth block comparison := by
    intro block comparison end_
    refine ⟨end_.inReach, fun higher inReach above => ?_, (same block).symm.trans end_.compared⟩
    exact (same higher).symm.trans (end_.above higher inReach above)
  cases walked with
  | failed end_ => exact .failed (ends end_)
  | missing end_ => exact .missing (ends end_)
  | tip end_ => exact .tip (ends end_)
  | ancestor end_ below => exact .ancestor (ends end_) below
  | deep all => exact .deep fun block inReach => (same block).symm.trans (all block inReach)

/-- The invariant of the loop: the blocks that were compared are mismatches. -/
theorem walked_walk {left i : Nat} (depth : Nat) (rounds : left + i = maxDepth)
    (mismatches : ∀ block, block ≤ startBlock → startBlock < block + i →
      compare services store block = .differs) :
    Walked services store startBlock maxDepth
      (walk services startBlock maxDepth left i depth store) := by
  induction left generalizing i depth store with
  | zero =>
    refine .deep fun block inReach => mismatches block inReach.1 ?_
    have reach := inReach.2
    omega
  | succ left ih =>
    by_cases short : startBlock < i
    · rw [walk, if_pos short]
      exact .deep fun block inReach => mismatches block inReach.1 (by omega)
    · rw [walk_succ (by omega)]
      have ends : ∀ {comparison}, compare services store (startBlock - i) = comparison →
          EndsAt services store startBlock maxDepth (startBlock - i) comparison := by
        intro comparison compared
        refine ⟨⟨by omega, by omega⟩, fun higher inReach above => ?_, compared⟩
        exact mismatches higher inReach.1 (by omega)
      cases compared : compare services store (startBlock - i) with
      | failed => exact .failed (ends compared)
      | missing => exact .missing (ends compared)
      | equal =>
        by_cases first : 0 < i
        · have ancestor := Walked.ancestor (ends compared) (by omega)
          have depth_ : startBlock - (startBlock - i) = i := by omega
          rw [depth_] at ancestor
          simpa only [if_pos first] using ancestor
        · obtain rfl : i = 0 := by omega
          simpa using Walked.tip (ends compared)
      | differs =>
        have same : ∀ block, compare services
            (store.getStoredBlockHash (startBlock - i)).2 block =
              compare services store block := compare_getStoredBlockHash _
        refine (ih (depth + 1) (by omega) ?_).of_compare same
        intro block low high
        rw [same]
        by_cases this : block = startBlock - i
        · rw [this, compared]
        · exact mismatches block low (by omega)

/-! ## When the report is accurate -/

/-- The walk can tell: either it ends at an equal block with no mismatch below it and can say so,
or at the first block already; or the lowest block within the search depth is a mismatch that
exists and no block above it is equal or fails before a block that is missing. -/
def CanTell (services : Services) (store : HashStore) (startBlock maxDepth : Nat) : Prop :=
  (∃ block, MismatchesAbove services store startBlock maxDepth block ∧
      InReach startBlock maxDepth block ∧
      (∀ lower, InReach startBlock maxDepth lower → lower < block →
        compare services store lower ≠ .differs) ∧
      (compare services store block = .equal ∧
          (block = startBlock ∨ services.publishFails = false) ∨
        compare services store block = .failed ∧ block = startBlock)) ∨
    (0 < maxDepth ∧ maxDepth ≤ startBlock + 1 ∧
      compare services store (startBlock + 1 - maxDepth) = .differs ∧
      ∀ block, InReach startBlock maxDepth block →
        MismatchesAbove services store startBlock maxDepth block →
          compare services store block = .differs ∨ compare services store block = .missing)

theorem mismatch_iff {block : Nat} (cursor : services.lastBlock = some startBlock) :
    Mismatch services store maxDepth block ↔
      InReach startBlock maxDepth block ∧ compare services store block = .differs := by
  constructor
  · rintro ⟨start, found, mismatch⟩
    obtain rfl := Option.some.inj (cursor.symm.trans found)
    exact mismatch
  · exact fun mismatch => ⟨startBlock, cursor, mismatch⟩

/-- A deep reorganisation is accurate if and only if the lowest block is a mismatch. -/
theorem accurate_deepReorg (cursor : services.lastBlock = some startBlock) (depth : Nat) :
    Accurate services store maxDepth (some (deepReorg startBlock maxDepth depth)) ↔
      0 < maxDepth ∧ maxDepth ≤ startBlock + 1 ∧
        compare services store (startBlock + 1 - maxDepth) = .differs := by
  simp only [Accurate, reported?, Option.bind_some, deepReorg, if_true]
  constructor
  · rintro ⟨block, forkBlock, least, _⟩
    obtain ⟨⟨low, high⟩, compared⟩ := (mismatch_iff cursor).mp least
    have same : block = startBlock + 1 - maxDepth := by omega
    exact ⟨by omega, by omega, same ▸ compared⟩
  · rintro ⟨positive, enough, compared⟩
    refine ⟨startBlock + 1 - maxDepth, by omega, ?_, ?_⟩
    · exact (mismatch_iff cursor).mpr ⟨⟨by omega, by omega⟩, compared⟩
    · intro block mismatch
      have reach := ((mismatch_iff cursor).mp mismatch).1.2
      omega

/-- Where the loop is left without a result or at the tip, no block may be a mismatch. -/
theorem accurate_silent (cursor : services.lastBlock = some startBlock)
    {result : Option ReorgResult} (silent : reported? result = none) :
    Accurate services store maxDepth result ↔
      ∀ block, InReach startBlock maxDepth block → compare services store block ≠ .differs := by
  simp only [Accurate, silent, mismatch_iff cursor, not_and]

theorem canTell_iff {block : Nat} {comparison : Comparison}
    (end_ : EndsAt services store startBlock maxDepth block comparison)
    (other : comparison ≠ .differs) :
    CanTell services store startBlock maxDepth ↔
      (∀ lower, InReach startBlock maxDepth lower → lower < block →
          compare services store lower ≠ .differs) ∧
        (comparison = .equal ∧ (block = startBlock ∨ services.publishFails = false) ∨
          comparison = .failed ∧ block = startBlock) ∨
      comparison = .missing ∧ 0 < maxDepth ∧ maxDepth ≤ startBlock + 1 ∧
        compare services store (startBlock + 1 - maxDepth) = .differs := by
  constructor
  · rintro (⟨there, above, inReach, below, told⟩ | ⟨positive, enough, lowest, others⟩)
    · have differsNot : compare services store there ≠ .differs := by
        rcases told with ⟨equal, _⟩ | ⟨failed, _⟩
        · rw [equal]
          exact Comparison.noConfusion
        · rw [failed]
          exact Comparison.noConfusion
      obtain ⟨rfl, same⟩ := end_.unique ⟨inReach, above, rfl⟩ other differsNot
      rw [← same] at told
      exact .inl ⟨below, told⟩
    · rcases others block end_.inReach end_.above with differs | missing
      · exact absurd (end_.compared.symm.trans differs) other
      · exact .inr ⟨end_.compared.symm.trans missing, positive, enough, lowest⟩
  · rintro (⟨below, told⟩ | ⟨missing, positive, enough, lowest⟩)
    · rw [← end_.compared] at told
      exact .inl ⟨block, end_.above, end_.inReach, below, told⟩
    · refine .inr ⟨positive, enough, lowest, fun there inReach above => ?_⟩
      by_cases differs : compare services store there = .differs
      · exact .inl differs
      · obtain ⟨_, same⟩ := end_.unique ⟨inReach, above, rfl⟩ other differs
        exact .inr (same.symm.trans missing)

/-- Without a mismatch above it, the walk ends at the tip. -/
theorem EndsAt.eq_startBlock {block : Nat} {comparison : Comparison}
    (end_ : EndsAt services store startBlock maxDepth block comparison)
    (none : ∀ block, InReach startBlock maxDepth block →
      compare services store block ≠ .differs) : block = startBlock := by
  obtain ⟨low, high⟩ := end_.inReach
  by_contra apart
  have below : block < startBlock := lt_of_le_of_ne low apart
  have tip : InReach startBlock maxDepth startBlock := ⟨le_refl _, by omega⟩
  exact none startBlock tip (end_.above startBlock tip below)

/-- Blocks that end the walk with a mismatch above. -/
theorem EndsAt.not_differs_iff {block : Nat} {comparison : Comparison}
    (end_ : EndsAt services store startBlock maxDepth block comparison)
    (other : comparison ≠ .differs) :
    (∀ block, InReach startBlock maxDepth block → compare services store block ≠ .differs) ↔
      (∀ lower, InReach startBlock maxDepth lower → lower < block →
        compare services store lower ≠ .differs) ∧ block = startBlock := by
  constructor
  · exact fun none => ⟨fun lower inReach _ => none lower inReach, end_.eq_startBlock none⟩
  · rintro ⟨below, rfl⟩ lower inReach
    rcases lt_or_eq_of_le inReach.1 with less | rfl
    · exact below lower inReach less
    · rw [end_.compared]
      exact other

theorem accurate_walked (cursor : services.lastBlock = some startBlock)
    {result : Option ReorgResult} (walked : Walked services store startBlock maxDepth result) :
    Accurate services store maxDepth result ↔ CanTell services store startBlock maxDepth := by
  cases walked with
  | failed end_ =>
    rw [accurate_silent cursor rfl, canTell_iff end_ Comparison.noConfusion,
      end_.not_differs_iff Comparison.noConfusion]
    simp
  | missing end_ =>
    rw [accurate_deepReorg cursor, canTell_iff end_ Comparison.noConfusion]
    simp
  | tip end_ =>
    rw [accurate_silent cursor rfl, canTell_iff end_ Comparison.noConfusion,
      end_.not_differs_iff Comparison.noConfusion]
    simp
  | @ancestor block end_ below =>
    rw [canTell_iff end_ Comparison.noConfusion]
    have apart : block ≠ startBlock := by omega
    by_cases fails : services.publishFails = true
    · rw [if_pos fails, accurate_silent cursor rfl, end_.not_differs_iff Comparison.noConfusion]
      simp [apart, fails]
    · rw [if_neg fails]
      have next : InReach startBlock maxDepth (block + 1) := by
        have reach := end_.inReach.2
        exact ⟨by omega, by omega⟩
      have mismatch := (mismatch_iff cursor).mpr ⟨next, end_.above _ next (by omega)⟩
      simp only [Accurate, reported?, Option.bind_some, if_true]
      constructor
      · rintro ⟨fork, same, _, least⟩
        have published : services.publishFails = false := by simpa using fails
        refine .inl ⟨fun lower inReach less differs => ?_, .inl ⟨by simp, .inr published⟩⟩
        have bound := least ((mismatch_iff cursor).mpr ⟨inReach, differs⟩)
        omega
      · rintro (⟨lowest, _⟩ | ⟨impossible, _⟩)
        · refine ⟨block + 1, by norm_cast, mismatch, fun lower isMismatch => ?_⟩
          obtain ⟨inReach, differs⟩ := (mismatch_iff cursor).mp isMismatch
          by_contra less
          rcases lt_or_eq_of_le (by omega : lower ≤ block) with strictly | rfl
          · exact lowest lower inReach strictly differs
          · exact absurd (end_.compared.symm.trans differs) Comparison.noConfusion
        · cases impossible
  | deep all =>
    rw [accurate_deepReorg cursor]
    constructor
    · rintro ⟨positive, enough, lowest⟩
      exact .inr ⟨positive, enough, lowest, fun block inReach _ => .inl (all block inReach)⟩
    · rintro (⟨block, _, inReach, _, ⟨equal, _⟩ | ⟨failed, _⟩⟩ | ⟨positive, enough, lowest, _⟩)
      · exact absurd ((all block inReach).symm.trans equal) Comparison.noConfusion
      · exact absurd ((all block inReach).symm.trans failed) Comparison.noConfusion
      · exact ⟨positive, enough, lowest⟩

/-- A reorganisation is reported exactly if there is a mismatch, and from the lowest one, if and
only if there is no cursor, or the walk can tell, or there is no provider and no mismatch. -/
theorem reorg_accurate_iff (services : Services) (store : HashStore) (maxDepth : Nat) :
    Accurate services store maxDepth (checkForReorg services store maxDepth) ↔
      ∀ startBlock, services.lastBlock = some startBlock →
        if services.providerFails then
          ∀ block, InReach startBlock maxDepth block → compare services store block ≠ .differs
        else CanTell services store startBlock maxDepth := by
  rw [checkForReorg]
  cases cursor : services.lastBlock with
  | none =>
    simp only [reduceCtorEq, false_implies, implies_true, iff_true]
    rintro block ⟨startBlock, found, _⟩
    cases cursor.symm.trans found
  | some startBlock =>
    simp only [Option.some.injEq, forall_eq']
    by_cases fails : services.providerFails = true
    · rw [if_pos fails, if_pos fails, accurate_silent cursor rfl]
    · rw [if_neg fails, if_neg fails]
      refine accurate_walked cursor (walked_walk 0 (by omega) ?_)
      intro block low high
      omega

/-- The cursor is at block 100, where the cache entry has expired; a block without events has no
row. -/
def sampleServices : Services where
  lastBlock := some 100
  providerFails := false
  lookupFails _ := false
  getBlock _ := .found "canonical"
  publishFails := false

theorem reorg_not_accurate :
    ¬Accurate sampleServices ⟨[], []⟩ 64 (checkForReorg sampleServices ⟨[], []⟩ 64) := by
  have result : checkForReorg sampleServices ⟨[], []⟩ 64 = some (deepReorg 100 64 0) := by decide
  rw [result, accurate_deepReorg rfl]
  decide

end CryptoVaultHub.Indexer.ReorgDetector
