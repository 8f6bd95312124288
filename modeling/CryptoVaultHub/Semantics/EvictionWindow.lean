import Mathlib

/-!
# Least-eviction windows

A window keeps a fixed number of the values accepted so far. `Accepts` replaces
a least slot by a fresh larger value; the blank slots of a new window hold the
least value of the order. `Guards` is the replay protection such a window
gives over the list of everything it accepted: no value is accepted twice, and
every accepted value is still present or below the whole window.
-/

namespace CryptoVaultHub.EvictionWindow

variable {α : Type} [LinearOrder α] [OrderBot α]

/-- The slots that hold a value rather than a blank. -/
def occupied (window : List α) : List α := window.filter fun slot => slot ≠ ⊥

/-- Replace a least slot by a larger value that is not in the window. -/
inductive Accepts : List α → α → List α → Prop where
  | replace {before after : List α} {least fresh : α}
      (lower : ∀ slot ∈ before ++ least :: after, least ≤ slot)
      (above : least < fresh)
      (unseen : fresh ∉ before ++ least :: after) :
      Accepts (before ++ least :: after) fresh (before ++ fresh :: after)

/-- What a window knows about the values it has accepted. -/
structure Guards (window accepted : List α) : Prop where
  once : accepted.Nodup
  proper : ⊥ ∉ accepted
  distinct : (occupied window).Nodup
  recorded : ∀ slot ∈ window, slot ≠ ⊥ → slot ∈ accepted
  covered : ∀ value ∈ accepted, value ∈ window ∨ ∀ slot ∈ window, value < slot
  blanks : window.count ⊥ = window.length - accepted.length

/-- A window of blanks has accepted nothing. -/
theorem Guards.blank (size : Nat) : Guards (List.replicate size (⊥ : α)) [] where
  once := List.nodup_nil
  proper := by simp
  distinct := by simp [occupied]
  recorded := by
    intro slot member occupied
    exact absurd (List.eq_of_mem_replicate member) occupied
  covered := by simp
  blanks := by simp

omit [LinearOrder α] [OrderBot α] in
/-- The slots around one position, and the slot there. -/
private theorem mem_around {before after : List α} {least slot : α} :
    slot ∈ before ++ least :: after ↔ slot = least ∨ slot ∈ before ++ after := by
  rw [List.perm_middle.mem_iff, List.mem_cons]

/-- A slot that is occupied adds to the occupied slots around it. -/
private theorem occupied_around {before after : List α} {least : α} (proper : least ≠ ⊥) :
    (occupied (before ++ least :: after)).Perm (least :: occupied (before ++ after)) := by
  simp [occupied, proper]

omit [OrderBot α] in
/-- Writing over a least slot by index is an acceptance. -/
theorem accepts_set {window : List α} {index : Nat} {least fresh : α}
    (found : window[index]? = some least) (lower : ∀ slot ∈ window, least ≤ slot)
    (above : least < fresh) (unseen : fresh ∉ window) :
    Accepts window fresh (window.set index fresh) := by
  obtain ⟨within, rfl⟩ := List.getElem?_eq_some_iff.mp found
  have split : window.take index ++ window[index] :: window.drop (index + 1) = window := by simp
  have accepts : Accepts (window.take index ++ window[index] :: window.drop (index + 1)) fresh
      (window.take index ++ fresh :: window.drop (index + 1)) :=
    .replace (by rwa [split]) above (by rwa [split])
  rwa [split, ← if_pos (c := index < window.length) (t := _ ++ _) (e := window) within,
    ← List.set_eq_take_append_cons_drop] at accepts

/-- A value that a window can accept was never accepted before. -/
theorem Guards.fresh {window next accepted : List α} {value : α} (guards : Guards window accepted)
    (accepts : Accepts window value next) : value ∉ accepted := by
  intro already
  cases accepts with
  | @replace before after least _ lower above unseen =>
    obtain present | below := guards.covered value already
    · exact unseen present
    · have under := below least (mem_around.mpr (Or.inl rfl))
      exact lt_asymm above under

/-- A value evicted from the window is below every slot that stays. -/
theorem Guards.evicted_lt {before after accepted : List α} {least : α}
    (guards : Guards (before ++ least :: after) accepted)
    (lower : ∀ slot ∈ before ++ least :: after, least ≤ slot) (proper : least ≠ ⊥) :
    ∀ slot ∈ before ++ after, least < slot := by
  intro slot member
  refine lt_of_le_of_ne (lower slot (mem_around.mpr (Or.inr member))) ?_
  rintro rfl
  have distinct := (occupied_around proper).nodup_iff.mp guards.distinct
  apply (List.nodup_cons.mp distinct).1
  exact List.mem_filter.mpr ⟨member, by simpa using proper⟩

/-- While a blank is left a blank is evicted; afterwards there is none. -/
theorem Guards.blanks_after {before after accepted : List α} {least value : α}
    (guards : Guards (before ++ least :: after) accepted)
    (lower : ∀ slot ∈ before ++ least :: after, least ≤ slot) (proper : value ≠ ⊥) :
    (before ++ value :: after).count ⊥ =
      (before ++ value :: after).length - (accepted.length + 1) := by
  have counted := guards.blanks
  simp only [List.count_append, List.count_cons, List.length_append, List.length_cons,
    beq_iff_eq, proper, if_false] at counted ⊢
  by_cases blankLeast : least = ⊥
  · simp only [blankLeast, if_true] at counted
    omega
  · have noBlank : ⊥ ∉ before ++ least :: after := fun member =>
      blankLeast (le_bot_iff.mp (lower ⊥ member))
    have noneBefore : before.count ⊥ = 0 :=
      List.count_eq_zero.mpr fun member => noBlank (List.mem_append_left _ member)
    have noneAfter : after.count ⊥ = 0 :=
      List.count_eq_zero.mpr fun member =>
        noBlank (List.mem_append_right _ (List.mem_cons_of_mem _ member))
    simp only [blankLeast, if_false] at counted
    omega

/-- Acceptance records the value and keeps the protection. -/
theorem Guards.accept {window next accepted : List α} {value : α} (guards : Guards window accepted)
    (accepts : Accepts window value next) : Guards next (value :: accepted) := by
  have unaccepted := guards.fresh accepts
  cases accepts with
  | @replace before after least _ lower above unseen =>
    have proper : value ≠ ⊥ := (lt_of_le_of_lt bot_le above).ne'
    have notAround : value ∉ before ++ after := fun member =>
      unseen (mem_around.mpr (Or.inr member))
    constructor
    · exact List.nodup_cons.mpr ⟨unaccepted, guards.once⟩
    · simpa [proper.symm] using guards.proper
    · rw [(occupied_around proper).nodup_iff, List.nodup_cons]
      refine ⟨fun member => notAround (List.mem_filter.mp member).1, ?_⟩
      have shorter : (before ++ after).Sublist (before ++ least :: after) :=
        (List.sublist_cons_self least after).append_left before
      exact List.Nodup.sublist (shorter.filter _) guards.distinct
    · intro slot member properSlot
      obtain same | stays := mem_around.mp member
      · simp [same]
      · exact List.mem_cons_of_mem _
          (guards.recorded slot (mem_around.mpr (Or.inr stays)) properSlot)
    · intro old member
      obtain same | wasAccepted := List.mem_cons.mp member
      · exact Or.inl (mem_around.mpr (Or.inl same))
      · have properOld : old ≠ ⊥ := fun same => guards.proper (same ▸ wasAccepted)
        have cover : old ∈ before ++ after ∨ (old ≤ least ∧ ∀ slot ∈ before ++ after, old < slot) := by
          obtain present | below := guards.covered old wasAccepted
          · obtain evicted | stays := mem_around.mp present
            · subst evicted
              exact Or.inr ⟨le_refl _, guards.evicted_lt lower properOld⟩
            · exact Or.inl stays
          · refine Or.inr ⟨(below least (mem_around.mpr (Or.inl rfl))).le, ?_⟩
            exact fun slot stays => below slot (mem_around.mpr (Or.inr stays))
        obtain stays | ⟨bounded, below⟩ := cover
        · exact Or.inl (mem_around.mpr (Or.inr stays))
        · right
          intro slot inNext
          obtain same | stays := mem_around.mp inNext
          · exact same ▸ lt_of_le_of_lt bounded above
          · exact below slot stays
    · exact guards.blanks_after lower proper

/-- While fewer values than slots were accepted, a blank is left, and every
accepted value is still in the window. -/
theorem Guards.blank_mem_iff {window accepted : List α} (guards : Guards window accepted) :
    ⊥ ∈ window ↔ accepted.length < window.length := by
  rw [← List.count_pos_iff, guards.blanks]
  omega

theorem Guards.mem_iff_of_blank {window accepted : List α} (guards : Guards window accepted)
    (blank : ⊥ ∈ window) {value : α} (proper : value ≠ ⊥) : value ∈ window ↔ value ∈ accepted := by
  constructor
  · exact fun member => guards.recorded value member proper
  · intro wasAccepted
    obtain present | below := guards.covered value wasAccepted
    · exact present
    · exact absurd (below ⊥ blank) not_lt_bot

/-! ## Spread of a window -/

/-- No slot is further above another than `bound` allows, strictly so above a
slot that is occupied. -/
def Spread (bound : α → α) (window : List α) : Prop :=
  ∀ high ∈ window, ∀ low ∈ window, high ≤ bound low ∧ (low ≠ ⊥ → high < bound low)

/-- A window of blanks has no spread. -/
theorem Spread.blank (bound : α → α) (size : Nat) : Spread bound (List.replicate size ⊥) := by
  intro high highIn low lowIn
  rw [List.eq_of_mem_replicate highIn, List.eq_of_mem_replicate lowIn]
  exact ⟨bot_le, fun proper => absurd rfl proper⟩

/-- If values are accepted only up to `bound` of the least slot, the spread of the
window is bounded. An occupied least slot leaves the window, so the bound of what
remains is strict; a blank one may leave another blank behind. -/
theorem Spread.accept {bound : α → α} (monotone : StrictMono bound) {window next accepted : List α}
    {value : α} (guards : Guards window accepted) (accepts : Accepts window value next)
    (within : ∀ slot ∈ window, value ≤ bound slot) (spread : Spread bound window) :
    Spread bound next := by
  cases accepts with
  | @replace before after least _ lower above unseen =>
    have leastIn : least ∈ before ++ least :: after := mem_around.mpr (Or.inl rfl)
    have reached : ∀ slot ∈ before ++ value :: after, slot ≤ bound least := by
      intro slot member
      obtain same | stays := mem_around.mp member
      · exact same ▸ within least leastIn
      · exact (spread slot (mem_around.mpr (Or.inr stays)) least leastIn).1
    intro high highIn low lowIn
    obtain same | lowStays := mem_around.mp lowIn
    · have strict := lt_of_le_of_lt (reached high highIn) (monotone above)
      exact same ▸ ⟨strict.le, fun _ => strict⟩
    · have lowWas : low ∈ before ++ least :: after := mem_around.mpr (Or.inr lowStays)
      obtain same | highStays := mem_around.mp highIn
      · subst same
        refine ⟨within low lowWas, fun properLow => ?_⟩
        have lowAbove : least < low := by
          by_cases proper : least = ⊥
          · exact proper ▸ bot_lt_iff_ne_bot.mpr properLow
          · exact guards.evicted_lt lower proper low lowStays
        exact lt_of_le_of_lt (within least leastIn) (monotone lowAbove)
      · exact spread high (mem_around.mpr (Or.inr highStays)) low lowWas

end CryptoVaultHub.EvictionWindow
