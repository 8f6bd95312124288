import Mathlib

/-!
# Charging one list to another

To bound a sum over one list by a sum over another, each entry of the first is charged
to entries of the second, none of which is charged twice: entries with one key to those
with the same key, or entries with intervals that do not overlap to the positions in them.
-/

namespace CryptoVaultHub

open List

variable {Item Charge Key : Type} [DecidableEq Key]

/-- The sum of the weights of the items. -/
def total (weight : Item → Nat) (items : List Item) : Nat :=
  (items.map weight).sum

@[simp] theorem total_nil (weight : Item → Nat) : total weight [] = 0 := rfl

@[simp] theorem total_cons (weight : Item → Nat) (item : Item) (rest : List Item) :
    total weight (item :: rest) = weight item + total weight rest := rfl

theorem total_append (weight : Item → Nat) (first second : List Item) :
    total weight (first ++ second) = total weight first + total weight second := by
  simp [total]

theorem total_filter_add (weight : Item → Nat) (keep : Item → Bool) (items : List Item) :
    total weight (items.filter keep) + total weight (items.filter fun item => !keep item) =
      total weight items := by
  induction items with
  | nil => rfl
  | cons item rest ih =>
    by_cases kept : keep item = true
    · simp only [filter_cons, kept, if_true, Bool.not_true, Bool.false_eq_true, if_false,
        total_cons]
      omega
    · simp only [filter_cons, kept, Bool.not_eq_true] at *
      simp only [Bool.not_false, if_true, total_cons, Bool.false_eq_true, if_false]
      omega

/-- A weaker condition keeps at least as much. -/
theorem total_filter_mono (weight : Item → Nat) {keep widen : Item → Bool} {items : List Item}
    (inside : ∀ item ∈ items, keep item = true → widen item = true) :
    total weight (items.filter keep) ≤ total weight (items.filter widen) := by
  induction items with
  | nil => exact Nat.le_refl _
  | cons item rest ih =>
    have later := ih fun other member =>
      inside other (mem_cons_of_mem _ member)
    by_cases kept : keep item = true
    · have widened := inside item (mem_cons_self ..) kept
      simp only [filter_cons, kept, widened, if_true, total_cons]
      omega
    · by_cases widened : widen item = true
      · simp only [filter_cons, kept, widened, if_true, Bool.false_eq_true, if_false,
          total_cons]
        omega
      · simpa only [filter_cons, kept, widened, Bool.false_eq_true, if_false] using later

theorem total_sublist_le (weight : Item → Nat) {part whole : List Item}
    (sublist : part.Sublist whole) : total weight part ≤ total weight whole :=
  (sublist.map weight).sum_le_sum fun _ _ => Nat.zero_le _

/-- An item weighs no more than the list it is in. -/
theorem le_total (weight : Item → Nat) {item : Item} {items : List Item} (member : item ∈ items) :
    weight item ≤ total weight items :=
  le_sum_of_mem (mem_map_of_mem member)

/-- A sum of weights that count only where a condition holds. -/
theorem total_ite (weight : Item → Nat) (keep : Item → Bool) (items : List Item) :
    total (fun item => if keep item then weight item else 0) items =
      total weight (items.filter keep) := by
  induction items with
  | nil => rfl
  | cons item rest ih =>
    rw [total_cons, ih, filter_cons]
    by_cases kept : keep item = true
    · simp [kept]
    · simp [kept]

variable {weight : Item → Nat} {worth : Charge → Nat}

/-- The entries of another key are not among those left out. -/
theorem filter_ne_filter_eq (itemKey : Item → Key) {key other : Key} (different : other ≠ key)
    (items : List Item) :
    (items.filter fun item => !decide (itemKey item = key)).filter
        (fun item => itemKey item = other) =
      items.filter fun item => itemKey item = other := by
  rw [filter_filter]
  refine filter_congr ?_
  intro item _
  by_cases hit : itemKey item = other
  · simp [hit, different]
  · simp [hit]

/-- If the entries of each key are covered, all are. -/
theorem total_le_of_fibers (itemKey : Item → Key) (chargeKey : Charge → Key)
    {items : List Item} {charges : List Charge}
    (covered : ∀ key, total weight (items.filter fun item => itemKey item = key) ≤
      total worth (charges.filter fun charge => chargeKey charge = key)) :
    total weight items ≤ total worth charges := by
  induction length : items.length using Nat.strong_induction_on generalizing items charges with
  | _ bound ih =>
    cases items with
    | nil => exact Nat.zero_le _
    | cons item rest =>
      let key := itemKey item
      have fewer : ((item :: rest).filter fun other =>
          !decide (itemKey other = key)).length < bound := by
        rw [← length]
        refine length_filter_lt_length_iff_exists.mpr ⟨item, mem_cons_self .., ?_⟩
        simp [key]
      have others := ih _ fewer
        (by
          intro other
          by_cases same : other = key
          · subst same
            simp
          · rw [filter_ne_filter_eq itemKey same, filter_ne_filter_eq chargeKey same]
            exact covered other) rfl
      have own := covered key
      have items := total_filter_add weight (fun other => decide (itemKey other = key))
        (item :: rest)
      have all := total_filter_add worth (fun charge => decide (chargeKey charge = key)) charges
      omega

/-- Items with different keys, each covered by the charges with its key. -/
theorem total_le_of_groups (itemKey : Item → Key) (chargeKey : Charge → Key)
    {items : List Item} {charges : List Charge} (distinct : (items.map itemKey).Nodup)
    (covered : ∀ item ∈ items, weight item ≤
      total worth (charges.filter fun charge => chargeKey charge = itemKey item)) :
    total weight items ≤ total worth charges := by
  refine total_le_of_fibers itemKey chargeKey ?_
  intro key
  induction items with
  | nil => exact Nat.zero_le _
  | cons item rest ih =>
    simp only [map_cons, nodup_cons] at distinct
    obtain ⟨fresh, others⟩ := distinct
    by_cases same : itemKey item = key
    · have none : rest.filter (fun other => itemKey other = key) = [] := by
        refine filter_eq_nil_iff.mpr ?_
        intro other member hit
        exact fresh (same.trans (of_decide_eq_true hit).symm ▸ mem_map_of_mem member)
      have own := covered item (mem_cons_self ..)
      simp only [filter_cons, same, decide_true, if_true, none, total_cons, total_nil]
      rw [same] at own
      omega
    · simp only [filter_cons, same, decide_false, Bool.false_eq_true, if_false]
      exact ih others fun other member =>
        covered other (mem_cons_of_mem _ member)

/-- Items with intervals, each of which begins where the ones before it have ended. -/
theorem total_le_of_intervals (base time : Item → Nat) {items : List Item}
    {charges : List Charge} (apart : items.Pairwise fun first second => time first ≤ base second)
    (ordered : ∀ item ∈ items, base item ≤ time item)
    (covered : ∀ item ∈ items, weight item ≤
      total worth ((charges.take (time item)).drop (base item))) :
    total weight items ≤ total worth charges := by
  have bounded : ∀ last, (∀ item ∈ items, time item ≤ last) →
      total weight items ≤ total worth (charges.take last) := by
    induction items using List.reverseRecOn with
    | nil => exact fun _ _ => Nat.zero_le _
    | append_singleton rest item ih =>
      intro last ends
      obtain ⟨restApart, _, before⟩ := pairwise_append.mp apart
      have own := covered item (by simp)
      have inside := ordered item (by simp)
      have stop := ends item (by simp)
      have earlier := ih restApart
        (fun other member => ordered other (mem_append_left _ member))
        (fun other member => covered other (mem_append_left _ member))
        (base item) fun other member => before other member item (mem_singleton_self _)
      have parts : total worth (charges.take (time item)) =
          total worth (charges.take (base item)) +
            total worth ((charges.take (time item)).drop (base item)) := by
        rw [← total_append]
        congr 1
        have smaller : (charges.take (time item)).take (base item) =
            charges.take (base item) := by
          rw [take_take, Nat.min_eq_left inside]
        rw [← smaller, take_append_drop]
      have longer : total worth (charges.take (time item)) ≤ total worth (charges.take last) := by
        have split : charges.take last = charges.take (time item) ++
            (charges.take last).drop (time item) := by
          have smaller : (charges.take last).take (time item) = charges.take (time item) := by
            rw [take_take, Nat.min_eq_left stop]
          rw [← smaller, take_append_drop]
        rw [split, total_append]
        omega
      rw [total_append, total_cons, total_nil]
      omega
  have within : ∃ last, ∀ item ∈ items, time item ≤ last :=
    ⟨total time items, fun item member => le_total time member⟩
  obtain ⟨last, ends⟩ := within
  refine (bounded last ends).trans ?_
  have split := congrArg (total worth) (take_append_drop last charges)
  rw [total_append] at split
  omega

end CryptoVaultHub
