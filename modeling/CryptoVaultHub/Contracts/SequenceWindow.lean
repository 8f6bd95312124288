import CryptoVaultHub.Contracts.Operation
import CryptoVaultHub.Semantics.EvictionWindow

/-!
# The window of recent sequence ids

`getNextSequenceId` and `_tryInsertSequenceId` of `CvhWalletSimple`, with their
loops over the ten slots. `tryInsertSequenceId_accepts` says that an insertion
is an acceptance of a least-eviction window, and `tryInsertSequenceId_ok_iff`
says exactly when one succeeds. The two functions look at opposite ends of the
window; `nextSequenceId_accepted_iff` decides when they agree.
-/

namespace CryptoVaultHub.Contracts

/-- The ways a call of the wallet reverts: its custom errors, those of its
libraries, the checks the compiler adds, and an error of a callee passed on. -/
inductive Revert where
  | alreadyInitialized
  | requiresThreeSigners
  | zeroAddressSigner
  | duplicateSigner
  | notASigner
  | safeModeRestriction
  | unequalLengths
  | emptyBatch
  | maxRecipientsExceeded
  | batchNotAllowedInSafeMode
  | callFailed
  | batchTransferFailed
  | expired
  | sequenceIdAlreadyUsed
  | sequenceIdTooLow
  | sequenceIdTooHigh
  | invalidSignatureLength
  | invalidVValue
  | invalidSValue
  | invalidSignature
  | signersMustBeDifferent
  | zeroAddressRecipient
  | transferFailed
  | invalidReturnData
  | bubbled
  | reentrantCall
  | arithmeticOverflow
  | nonPayable
deriving DecidableEq

/-- Checked addition. -/
def checkedAdd (left right : Uint256) : Except Revert Uint256 :=
  if left.toNat + right.toNat < 2 ^ 256 then .ok (left + right) else .error .arithmeticOverflow

def sequenceIdWindowSize : Nat := 10

def maxSequenceIdIncrease : Uint256 := 10000

/-- `recentSequenceIds`: always ten slots. -/
structure SequenceWindow where
  recentSequenceIds : List Uint256
  size : recentSequenceIds.length = sequenceIdWindowSize

namespace SequenceWindow

/-- The slots of a new wallet. -/
def initial : SequenceWindow := ⟨List.replicate sequenceIdWindowSize 0, by simp⟩

/-- The loop of `getNextSequenceId`. -/
def highestFrom : Uint256 → List Uint256 → Uint256
  | highest, [] => highest
  | highest, id :: rest => highestFrom (if highest < id then id else highest) rest

def getNextSequenceId (window : SequenceWindow) : Except Revert Uint256 :=
  checkedAdd (highestFrom 0 window.recentSequenceIds) 1

/-- The loop of `_tryInsertSequenceId`, which stops at a slot that already holds
the id and otherwise finds the lowest value and its index. -/
def lowestFrom (sequenceId : Uint256) (index : Nat) (lowestValue : Uint256) (lowestIndex : Nat) :
    List Uint256 → Except Revert (Uint256 × Nat)
  | [] => .ok (lowestValue, lowestIndex)
  | id :: rest =>
    if id = sequenceId then .error .sequenceIdAlreadyUsed
    else if id < lowestValue then lowestFrom sequenceId (index + 1) id index rest
    else lowestFrom sequenceId (index + 1) lowestValue lowestIndex rest

/-- The largest word, from which the search for the lowest slot starts. -/
def maxUint256 : Uint256 := BitVec.allOnes 256

/-- `recentSequenceIds[index] = sequenceId`. -/
def write (window : SequenceWindow) (index : Nat) (sequenceId : Uint256) : SequenceWindow :=
  ⟨window.recentSequenceIds.set index sequenceId, by simp [window.size]⟩

def tryInsertSequenceId (window : SequenceWindow) (sequenceId : Uint256) :
    Except Revert SequenceWindow :=
  match lowestFrom sequenceId 0 maxUint256 0 window.recentSequenceIds with
  | .error error => .error error
  | .ok (lowestValue, lowestIndex) =>
    if sequenceId ≤ lowestValue then .error .sequenceIdTooLow
    else
      match checkedAdd lowestValue maxSequenceIdIncrease with
      | .error error => .error error
      | .ok highestAllowed =>
        if highestAllowed < sequenceId then .error .sequenceIdTooHigh
        else .ok (window.write lowestIndex sequenceId)

/-- The slots as numbers. -/
def values (window : SequenceWindow) : List Nat := window.recentSequenceIds.map BitVec.toNat

@[simp] theorem length_values (window : SequenceWindow) : window.values.length = 10 := by
  simp [values, window.size, sequenceIdWindowSize]

theorem mem_values {window : SequenceWindow} {id : Uint256} :
    id.toNat ∈ window.values ↔ id ∈ window.recentSequenceIds := by
  simp only [values, List.mem_map]
  constructor
  · rintro ⟨other, member, same⟩
    rwa [← BitVec.eq_of_toNat_eq same]
  · exact fun member => ⟨id, member, rfl⟩

/-- The slots that hold an id, as the window of numbers sees them. -/
theorem occupied_values (window : SequenceWindow) :
    EvictionWindow.occupied window.values =
      (window.recentSequenceIds.filter (· ≠ 0)).map BitVec.toNat := by
  rw [EvictionWindow.occupied, values, List.filter_map]
  congr 2
  ext id
  simp [← BitVec.toNat_inj]

/-! ## The two loops -/

/-- The first loop returns the largest value it has seen. -/
theorem highestFrom_spec (highest : Uint256) (ids : List Uint256) :
    (highestFrom highest ids = highest ∨ highestFrom highest ids ∈ ids) ∧
      highest ≤ highestFrom highest ids ∧ ∀ id ∈ ids, id ≤ highestFrom highest ids := by
  induction ids generalizing highest with
  | nil => simp [highestFrom]
  | cons id rest ih =>
    obtain ⟨origin, above, bound⟩ := ih (if highest < id then id else highest)
    by_cases larger : highest < id
    · simp only [highestFrom, larger, if_true, List.mem_cons] at origin above bound ⊢
      refine ⟨?_, BitVec.le_trans (BitVec.le_of_lt larger) above, ?_⟩
      · obtain same | member := origin
        · exact Or.inr (Or.inl same)
        · exact Or.inr (Or.inr member)
      · rintro other (rfl | member)
        · exact above
        · exact bound other member
    · simp only [highestFrom, larger, if_false, List.mem_cons] at origin above bound ⊢
      refine ⟨?_, above, ?_⟩
      · obtain same | member := origin
        · exact Or.inl same
        · exact Or.inr (Or.inr member)
      · rintro other (rfl | member)
        · exact BitVec.le_trans (BitVec.not_lt.mp larger) above
        · exact bound other member

/-- The second loop ends at the lowest value it has seen and where that stands,
unless it meets the id. -/
theorem lowestFrom_ok {sequenceId lowestValue value : Uint256} {index lowestIndex position : Nat}
    {ids : List Uint256}
    (ended : lowestFrom sequenceId index lowestValue lowestIndex ids = .ok (value, position)) :
    sequenceId ∉ ids ∧ value ≤ lowestValue ∧ (∀ id ∈ ids, value ≤ id) ∧
      (value = lowestValue ∧ position = lowestIndex ∨
        ∃ offset, ids[offset]? = some value ∧ position = index + offset) := by
  induction ids generalizing index lowestValue lowestIndex with
  | nil =>
    simp only [lowestFrom, Except.ok.injEq, Prod.mk.injEq] at ended
    simp [ended.1, ended.2]
  | cons id rest ih =>
    simp only [lowestFrom] at ended
    split at ended
    · cases ended
    · rename_i unequal
      split at ended
      · rename_i lower
        obtain ⟨absent, bounded, below, origin⟩ := ih ended
        refine ⟨?_, BitVec.le_trans bounded (BitVec.le_of_lt lower), ?_, Or.inr ?_⟩
        · simp [absent, Ne.symm unequal]
        · simp only [List.mem_cons]
          rintro other (rfl | member)
          · exact bounded
          · exact below other member
        · obtain ⟨same, place⟩ | ⟨offset, found, place⟩ := origin
          · exact ⟨0, by simp [same], by omega⟩
          · exact ⟨offset + 1, by simpa using found, by omega⟩
      · rename_i notLower
        obtain ⟨absent, bounded, below, origin⟩ := ih ended
        refine ⟨?_, bounded, ?_, ?_⟩
        · simp [absent, Ne.symm unequal]
        · simp only [List.mem_cons]
          rintro other (rfl | member)
          · exact BitVec.le_trans bounded (BitVec.not_lt.mp notLower)
          · exact below other member
        · obtain same | ⟨offset, found, place⟩ := origin
          · exact Or.inl same
          · exact Or.inr ⟨offset + 1, by simpa using found, by omega⟩

/-- The second loop only stops early at the id itself. -/
theorem lowestFrom_isOk {sequenceId : Uint256} {ids : List Uint256} (absent : sequenceId ∉ ids)
    (index : Nat) (lowestValue : Uint256) (lowestIndex : Nat) :
    ∃ ended, lowestFrom sequenceId index lowestValue lowestIndex ids = .ok ended := by
  induction ids generalizing index lowestValue lowestIndex with
  | nil => exact ⟨_, rfl⟩
  | cons id rest ih =>
    obtain ⟨unequal, absentRest⟩ := not_or.mp (List.mem_cons.not.mp absent)
    simp only [lowestFrom, Ne.symm unequal, if_false]
    split
    · exact ih absentRest _ _ _
    · exact ih absentRest _ _ _

/-! ## Insertion -/

/-- What a successful insertion did: it replaced a lowest slot, below the id and
at most the permitted increase away from it. -/
theorem tryInsertSequenceId_ok {window next : SequenceWindow} {sequenceId : Uint256}
    (inserted : window.tryInsertSequenceId sequenceId = .ok next) :
    ∃ lowestValue lowestIndex, sequenceId ∉ window.recentSequenceIds ∧
      (∀ id ∈ window.recentSequenceIds, lowestValue ≤ id) ∧ lowestValue < sequenceId ∧
      window.recentSequenceIds[lowestIndex]? = some lowestValue ∧
      lowestValue.toNat + 10000 < 2 ^ 256 ∧ sequenceId.toNat ≤ lowestValue.toNat + 10000 ∧
      next = window.write lowestIndex sequenceId := by
  unfold tryInsertSequenceId at inserted
  split at inserted
  · cases inserted
  · rename_i lowestValue lowestIndex ended
    split at inserted
    · cases inserted
    · rename_i notLow
      split at inserted
      · cases inserted
      · rename_i highestAllowed added
        split at inserted
        · cases inserted
        · rename_i notHigh
          obtain ⟨absent, -, below, origin⟩ := lowestFrom_ok ended
          have above : lowestValue < sequenceId := BitVec.not_le.mp notLow
          have found : window.recentSequenceIds[lowestIndex]? = some lowestValue := by
            obtain ⟨untouched, -⟩ | ⟨offset, found, place⟩ := origin
            · -- A lowest value that was never replaced is the largest word.
              have bound := sequenceId.isLt
              rw [untouched, BitVec.lt_def] at above
              simp only [maxUint256, BitVec.toNat_allOnes] at above
              omega
            · rw [Nat.zero_add] at place
              rw [place, found]
          unfold checkedAdd at added
          split at added
          · rename_i room
            simp only [Except.ok.injEq] at added
            subst added
            have increase : maxSequenceIdIncrease.toNat = 10000 := by decide
            rw [increase] at room
            rw [BitVec.lt_def, BitVec.toNat_add, increase, Nat.mod_eq_of_lt room] at notHigh
            simp only [Except.ok.injEq] at inserted
            exact ⟨lowestValue, lowestIndex, absent, below, above, found, room,
              Nat.not_lt.mp notHigh, inserted.symm⟩
          · cases added

/-- An insertion is an acceptance of the least-eviction window of the slots. -/
theorem tryInsertSequenceId_accepts {window next : SequenceWindow} {sequenceId : Uint256}
    (inserted : window.tryInsertSequenceId sequenceId = .ok next) :
    EvictionWindow.Accepts window.values sequenceId.toNat next.values := by
  obtain ⟨lowestValue, lowestIndex, absent, below, above, found, -, -, rfl⟩ :=
    tryInsertSequenceId_ok inserted
  have written : (window.write lowestIndex sequenceId).values =
      window.values.set lowestIndex sequenceId.toNat := by
    simp [values, write, List.map_set]
  have read : window.values[lowestIndex]? = some lowestValue.toNat := by
    simp [values, found]
  rw [written]
  apply EvictionWindow.accepts_set read
  · intro slot member
    obtain ⟨id, inSlots, rfl⟩ := List.mem_map.mp member
    exact BitVec.le_def.mp (below id inSlots)
  · exact BitVec.lt_def.mp above
  · exact fun member => absent (mem_values.mp member)

/-- An insertion succeeds exactly for a new id above the lowest slot and within
the permitted increase of it. -/
theorem tryInsertSequenceId_ok_iff {window : SequenceWindow} {sequenceId lowest : Uint256}
    (member : lowest ∈ window.recentSequenceIds)
    (below : ∀ id ∈ window.recentSequenceIds, lowest ≤ id) :
    (∃ next, window.tryInsertSequenceId sequenceId = .ok next) ↔
      sequenceId ∉ window.recentSequenceIds ∧ lowest < sequenceId ∧
        lowest.toNat + 10000 < 2 ^ 256 ∧ sequenceId.toNat ≤ lowest.toNat + 10000 := by
  constructor
  · rintro ⟨next, inserted⟩
    obtain ⟨lowestValue, lowestIndex, absent, bounded, above, found, room, within, -⟩ :=
      tryInsertSequenceId_ok inserted
    obtain ⟨inRange, same⟩ := List.getElem?_eq_some_iff.mp found
    have least : lowestValue = lowest :=
      BitVec.le_antisymm (bounded lowest member) (same ▸ below _ (List.getElem_mem inRange))
    subst least
    exact ⟨absent, above, room, within⟩
  · rintro ⟨absent, above, room, within⟩
    obtain ⟨⟨lowestValue, lowestIndex⟩, ended⟩ :=
      lowestFrom_isOk absent 0 maxUint256 0
    obtain ⟨-, bounded, lower, origin⟩ := lowestFrom_ok ended
    have least : lowestValue = lowest := by
      refine BitVec.le_antisymm (lower lowest member) ?_
      obtain ⟨untouched, -⟩ | ⟨offset, found, -⟩ := origin
      · rw [untouched, BitVec.le_def]
        have bound := lowest.isLt
        simp only [maxUint256, BitVec.toNat_allOnes]
        omega
      · obtain ⟨inRange, same⟩ := List.getElem?_eq_some_iff.mp found
        exact same ▸ below _ (List.getElem_mem inRange)
    subst least
    have increase : maxSequenceIdIncrease.toNat = 10000 := by decide
    have notLow : ¬ sequenceId ≤ lowestValue := BitVec.not_le.mpr above
    have notHigh : ¬ lowestValue + maxSequenceIdIncrease < sequenceId := by
      rw [BitVec.lt_def, BitVec.toNat_add, increase, Nat.mod_eq_of_lt room]
      omega
    have added : checkedAdd lowestValue maxSequenceIdIncrease =
        .ok (lowestValue + maxSequenceIdIncrease) := by
      rw [checkedAdd, increase, if_pos room]
    refine ⟨window.write lowestIndex sequenceId, ?_⟩
    simp [tryInsertSequenceId, ended, notLow, added, notHigh]

/-! ## The two ends of the window -/

/-- Some slot holds the lowest value. -/
theorem exists_lowest (window : SequenceWindow) :
    ∃ lowest ∈ window.recentSequenceIds, ∀ id ∈ window.recentSequenceIds, lowest ≤ id := by
  have nonempty : window.values ≠ [] := by
    intro empty
    have size := length_values window
    simp [empty] at size
  obtain ⟨least, found⟩ := Option.isSome_iff_exists.mp (List.isSome_min?_of_ne_nil nonempty)
  obtain ⟨member, bound⟩ := List.min?_eq_some_iff.mp found
  obtain ⟨lowest, inSlots, rfl⟩ := List.mem_map.mp member
  refine ⟨lowest, inSlots, fun id inWindow => ?_⟩
  exact BitVec.le_def.mpr (bound id.toNat (mem_values.mpr inWindow))

/-- The highest value is in some slot. -/
theorem highest_mem (window : SequenceWindow) :
    highestFrom 0 window.recentSequenceIds ∈ window.recentSequenceIds := by
  obtain ⟨origin, -, bound⟩ := highestFrom_spec 0 window.recentSequenceIds
  obtain zero | member := origin
  · obtain ⟨lowest, inSlots, -⟩ := exists_lowest window
    have least := BitVec.le_def.mp (bound lowest inSlots)
    have same : lowest = highestFrom 0 window.recentSequenceIds := by
      apply BitVec.eq_of_toNat_eq
      rw [zero] at least ⊢
      exact Nat.le_zero.mp least
    exact same ▸ inSlots
  · exact member

/-- The next id is one above the highest slot, if that is a word. -/
theorem getNextSequenceId_ok_iff {window : SequenceWindow} {id : Uint256} :
    window.getNextSequenceId = .ok id ↔
      id.toNat = (highestFrom 0 window.recentSequenceIds).toNat + 1 := by
  have one : (1 : Uint256).toNat = 1 := by decide
  unfold getNextSequenceId checkedAdd
  split
  · rename_i room
    rw [Except.ok.injEq, ← BitVec.toNat_inj, BitVec.toNat_add, Nat.mod_eq_of_lt room, one, eq_comm]
  · rename_i full
    have bound := id.isLt
    rw [one] at full
    simp only [reduceCtorEq, false_iff]
    omega

/-- The next id is accepted exactly when the highest slot is strictly within the
permitted increase of the lowest. -/
theorem nextSequenceId_accepted_iff_lt {window : SequenceWindow} {lowest : Uint256}
    (member : lowest ∈ window.recentSequenceIds)
    (below : ∀ id ∈ window.recentSequenceIds, lowest ≤ id) :
    (∃ id next, window.getNextSequenceId = .ok id ∧ window.tryInsertSequenceId id = .ok next) ↔
      lowest.toNat + 10000 < 2 ^ 256 ∧
        (highestFrom 0 window.recentSequenceIds).toNat < lowest.toNat + 10000 := by
  obtain ⟨-, -, bound⟩ := highestFrom_spec 0 window.recentSequenceIds
  constructor
  · rintro ⟨id, next, computed, inserted⟩
    have value := getNextSequenceId_ok_iff.mp computed
    obtain ⟨-, -, room, within⟩ := (tryInsertSequenceId_ok_iff member below).mp ⟨next, inserted⟩
    exact ⟨room, by omega⟩
  · rintro ⟨room, within⟩
    let id : Uint256 := BitVec.ofNat 256 ((highestFrom 0 window.recentSequenceIds).toNat + 1)
    have value : id.toNat = (highestFrom 0 window.recentSequenceIds).toNat + 1 := by
      simp only [id, BitVec.toNat_ofNat]
      exact Nat.mod_eq_of_lt (by omega)
    have unused : id ∉ window.recentSequenceIds := by
      intro present
      have least := BitVec.le_def.mp (bound id present)
      omega
    have above : lowest < id := by
      have least := BitVec.le_def.mp (bound lowest member)
      exact BitVec.lt_def.mpr (by omega)
    obtain ⟨next, inserted⟩ :=
      (tryInsertSequenceId_ok_iff member below).mpr ⟨unused, above, room, by omega⟩
    exact ⟨id, next, getNextSequenceId_ok_iff.mpr value, inserted⟩

/-- The bound that insertion puts on a new id. -/
def increased (id : Nat) : Nat := id + 10000

theorem increased_strictMono : StrictMono increased :=
  fun _ _ less => Nat.add_lt_add_right less 10000

/-- A wallet with its window in the reach of its lowest slot accepts the id that
`getNextSequenceId` returns, unless id 10000 was taken while blank slots are
left, or the lowest slot is at the end of the words. -/
theorem nextSequenceId_accepted_iff {window : SequenceWindow} {accepted : List Nat}
    (guards : EvictionWindow.Guards window.values accepted)
    (spread : EvictionWindow.Spread increased window.values) :
    (∃ id next, window.getNextSequenceId = .ok id ∧ window.tryInsertSequenceId id = .ok next) ↔
      ¬ (accepted.length < 10 ∧ 10000 ∈ accepted) ∧
        ∃ id ∈ window.recentSequenceIds, id.toNat + 10000 < 2 ^ 256 := by
  obtain ⟨lowest, member, below⟩ := exists_lowest window
  have highestIn := highest_mem window
  obtain ⟨-, -, bound⟩ := highestFrom_spec 0 window.recentSequenceIds
  rw [nextSequenceId_accepted_iff_lt member below]
  generalize highestFrom 0 window.recentSequenceIds = highest at highestIn bound ⊢
  obtain ⟨reach, strict⟩ := spread highest.toNat (mem_values.mpr highestIn) lowest.toNat
    (mem_values.mpr member)
  simp only [increased, Nat.bot_eq_zero] at reach strict
  have room : (∃ id ∈ window.recentSequenceIds, id.toNat + 10000 < 2 ^ 256) ↔
      lowest.toNat + 10000 < 2 ^ 256 := by
    constructor
    · rintro ⟨id, inSlots, fits⟩
      have least := BitVec.le_def.mp (below id inSlots)
      omega
    · exact fun fits => ⟨lowest, member, fits⟩
  have blankLeft : accepted.length < 10 ↔ lowest.toNat = 0 := by
    rw [← length_values window, ← guards.blank_mem_iff]
    constructor
    · intro blank
      obtain ⟨id, inSlots, zero⟩ := List.mem_map.mp blank
      have least := BitVec.le_def.mp (below id inSlots)
      simp only [Nat.bot_eq_zero] at zero
      omega
    · intro zero
      have blank := mem_values.mpr member
      rwa [zero] at blank
  have blocked : (accepted.length < 10 ∧ 10000 ∈ accepted) ↔
      highest.toNat = lowest.toNat + 10000 := by
    constructor
    · rintro ⟨short, taken⟩
      have blank := guards.blank_mem_iff.mpr (by simpa using short)
      have present := (guards.mem_iff_of_blank blank (by decide)).mpr taken
      obtain ⟨id, inSlots, same⟩ := List.mem_map.mp present
      have highBound := BitVec.le_def.mp (bound id inSlots)
      have zero := blankLeft.mp short
      omega
    · intro same
      have zero : lowest.toNat = 0 := by
        by_contra proper
        have less := strict proper
        omega
      have short := blankLeft.mpr zero
      have blank := guards.blank_mem_iff.mpr (by simpa using short)
      refine ⟨short, (guards.mem_iff_of_blank blank (by decide)).mp ?_⟩
      have present := mem_values.mpr highestIn
      rwa [same, zero, Nat.zero_add] at present
  rw [room, blocked]
  omega

end SequenceWindow

end CryptoVaultHub.Contracts
