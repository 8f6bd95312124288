import Mathlib

/-!
# Searching by hops

`withinHops` is what a relation leads to in at most a number of steps. A search keeps what
it has seen and what it saw last; `Explores.advance_covering` says that expanding only the latter
is enough, and `Explores.closed` that a search which finds nothing new has found everything.
`collectUpTo` gathers candidates up to a limit, and all of them when there are no more than
that.
-/

namespace CryptoVaultHub.Semantics

open List

variable {α : Type} {relation : α → α → Prop} {source : α} {hops : Nat}

/-- What is reached in at most so many steps. -/
def withinHops (relation : α → α → Prop) (source : α) : Nat → Set α
  | 0 => {source}
  | hops + 1 => withinHops relation source hops ∪
      {target | ∃ middle ∈ withinHops relation source hops, relation middle target}

theorem withinHops_mono {fewer : Nat} (le : fewer ≤ hops) :
    withinHops relation source fewer ⊆ withinHops relation source hops := by
  induction le with
  | refl => exact subset_rfl
  | step _ ih => exact ih.trans Set.subset_union_left

/-- What is reached in so many steps and in no fewer. -/
def AtDistance (relation : α → α → Prop) (source : α) (hops : Nat) (target : α) : Prop :=
  target ∈ withinHops relation source hops ∧
    ∀ fewer < hops, target ∉ withinHops relation source fewer

/-- What is reached in some steps is at some distance. -/
theorem exists_atDistance {target : α} (within : target ∈ withinHops relation source hops) :
    ∃ distance ≤ hops, AtDistance relation source distance target := by
  induction hops with
  | zero => exact ⟨0, le_rfl, within, by simp⟩
  | succ hops ih =>
    by_cases sooner : target ∈ withinHops relation source hops
    · obtain ⟨distance, le, reached⟩ := ih sooner
      exact ⟨distance, le.trans hops.le_succ, reached⟩
    · refine ⟨hops + 1, le_rfl, within, ?_⟩
      intro fewer less reached
      exact sooner (withinHops_mono (Nat.le_of_lt_succ less) reached)

/-- What a search has seen, and what of it was new in the last round. -/
structure Search (α : Type) where
  scanned : List α
  current : List α

/-- The search has seen what is within so many hops, and has expanded all but the last round. -/
structure Explores (relation : α → α → Prop) (source : α) (hops : Nat) (search : Search α) :
    Prop where
  scanned_iff : ∀ target, target ∈ search.scanned ↔ target ∈ withinHops relation source hops
  current_scanned : ∀ target ∈ search.current, target ∈ search.scanned
  expanded : ∀ middle ∈ search.scanned, middle ∉ search.current →
    ∀ target, relation middle target → target ∈ search.scanned

namespace Explores

theorem start : Explores relation source 0 ⟨[source], [source]⟩ where
  scanned_iff target := by simp [withinHops]
  current_scanned target member := member
  expanded middle member fresh := absurd member fresh

/-- What the last round leads to completes the next round, whether or not some of it was seen. -/
theorem advance_covering {search : Search α} (explores : Explores relation source hops search)
    {found : List α} (sound : ∀ target ∈ found, ∃ middle ∈ search.current, relation middle target)
    (covers : ∀ target ∉ search.scanned, ∀ middle ∈ search.current, relation middle target →
      target ∈ found) :
    Explores relation source (hops + 1) ⟨search.scanned ++ found, found⟩ where
  scanned_iff target := by
    simp only [mem_append, withinHops, Set.mem_union, Set.mem_ofPred_eq,
      explores.scanned_iff target]
    constructor
    · rintro (seen | member)
      · exact .inl seen
      · obtain ⟨middle, last, related⟩ := sound target member
        have scanned := explores.current_scanned middle last
        exact .inr ⟨middle, (explores.scanned_iff middle).mp scanned, related⟩
    · rintro (seen | ⟨middle, within, related⟩)
      · exact .inl seen
      · by_cases seen : target ∈ search.scanned
        · exact .inl ((explores.scanned_iff target).mp seen)
        · have scanned := (explores.scanned_iff middle).mpr within
          refine .inr (covers target seen middle ?_ related)
          by_contra expanded
          exact seen (explores.expanded middle scanned expanded target related)
  current_scanned target member := mem_append_right _ member
  expanded middle member fresh target related := by
    rw [mem_append] at member
    have scanned := member.resolve_right fresh
    rw [mem_append]
    by_cases seen : target ∈ search.scanned
    · exact .inl seen
    · refine .inr (covers target seen middle ?_ related)
      by_contra expanded
      exact seen (explores.expanded middle scanned expanded target related)

/-- When the last round leads to nothing new, no further hop does. -/
theorem closed {search : Search α} (explores : Explores relation source hops search)
    (nothing : ∀ middle ∈ search.current, ∀ target, relation middle target →
      target ∈ search.scanned) (more : Nat) {target : α}
    (within : target ∈ withinHops relation source (hops + more)) : target ∈ search.scanned := by
  induction more generalizing target with
  | zero => exact (explores.scanned_iff target).mpr within
  | succ more ih =>
    rcases within with sooner | ⟨middle, reached, related⟩
    · exact ih sooner
    · have scanned := ih reached
      by_cases last : middle ∈ search.current
      · exact nothing middle last target related
      · exact explores.expanded middle scanned last target related

end Explores

section Collect

variable [DecidableEq α]

/-- Add the fresh candidates one after another, until there are enough. -/
def collectUpTo (limit : Nat) (fresh : α → Bool) : List α → List α → List α
  | found, [] => found
  | found, candidate :: rest =>
    if limit ≤ found.length then found
    else if fresh candidate ∧ candidate ∉ found then
      collectUpTo limit fresh (found ++ [candidate]) rest
    else collectUpTo limit fresh found rest

variable {limit : Nat} {fresh : α → Bool} {found candidates : List α}

/-- What has been collected is fresh, distinct, and among the candidates. -/
theorem mem_of_mem_collectUpTo {target : α}
    (member : target ∈ collectUpTo limit fresh found candidates) :
    target ∈ found ∨ target ∈ candidates ∧ fresh target = true := by
  induction candidates generalizing found with
  | nil => exact .inl member
  | cons candidate rest ih =>
    rw [collectUpTo] at member
    split at member
    · exact .inl member
    · split at member
      · rename_i taken
        rcases ih member with earlier | ⟨later, isFresh⟩
        · rcases mem_append.mp earlier with earlier | last
          · exact .inl earlier
          · obtain rfl := mem_singleton.mp last
            exact .inr ⟨mem_cons_self, taken.1⟩
        · exact .inr ⟨mem_cons_of_mem _ later, isFresh⟩
      · rcases ih member with earlier | ⟨later, isFresh⟩
        · exact .inl earlier
        · exact .inr ⟨mem_cons_of_mem _ later, isFresh⟩

theorem nodup_collectUpTo (distinct : found.Nodup) :
    (collectUpTo limit fresh found candidates).Nodup := by
  induction candidates generalizing found with
  | nil => exact distinct
  | cons candidate rest ih =>
    rw [collectUpTo]
    split
    · exact distinct
    · split
      · rename_i taken
        refine ih ?_
        rw [nodup_append]
        refine ⟨distinct, nodup_singleton candidate, ?_⟩
        intro left inFound right last
        rw [mem_singleton.mp last]
        exact fun equal => taken.2 (equal ▸ inFound)
      · exact ih distinct

theorem subset_collectUpTo {found : List α} (candidates : List α) :
    found ⊆ collectUpTo limit fresh found candidates := by
  induction candidates generalizing found with
  | nil => exact List.Subset.refl found
  | cons candidate rest ih =>
    rw [collectUpTo]
    split
    · exact List.Subset.refl found
    · split
      · exact List.Subset.trans (subset_append_left found [candidate]) ih
      · exact ih

/-- When no more candidates are fresh than there is room for, all of them are collected. -/
theorem mem_collectUpTo (distinct : found.Nodup)
    (room : (found ++ candidates.filter fresh).toFinset.card ≤ limit) {target : α}
    (member : target ∈ candidates) (isFresh : fresh target = true) :
    target ∈ collectUpTo limit fresh found candidates := by
  induction candidates generalizing found with
  | nil => cases member
  | cons candidate rest ih =>
    rw [collectUpTo]
    split
    · rename_i full
      have card : found.toFinset.card = found.length := toFinset_card_of_nodup distinct
      have subset : found.toFinset ⊆
          (found ++ (candidate :: rest).filter fresh).toFinset := by
        intro seen
        simp only [mem_toFinset]
        exact fun earlier => mem_append_left _ earlier
      have all := Finset.eq_of_subset_of_card_le subset (by omega)
      rw [← mem_toFinset, all, mem_toFinset]
      exact mem_append_right _ (mem_filter.mpr ⟨member, isFresh⟩)
    · split
      · rename_i taken
        have same : (found ++ [candidate] ++ rest.filter fresh).toFinset =
            (found ++ (candidate :: rest).filter fresh).toFinset := by
          rw [filter_cons_of_pos taken.1]
          simp
        have distinct' : (found ++ [candidate]).Nodup := by
          rw [nodup_append]
          refine ⟨distinct, nodup_singleton candidate, ?_⟩
          intro left inFound right last
          rw [mem_singleton.mp last]
          exact fun equal => taken.2 (equal ▸ inFound)
        rcases mem_cons.mp member with rfl | later
        · exact subset_collectUpTo rest (mem_append_right _ (mem_singleton_self _))
        · exact ih distinct' (same ▸ room) later
      · rename_i known
        have smaller : (found ++ rest.filter fresh).toFinset ⊆
            (found ++ (candidate :: rest).filter fresh).toFinset := by
          intro seen
          simp only [toFinset_append, Finset.mem_union, mem_toFinset,
            mem_filter, mem_cons]
          tauto
        rcases mem_cons.mp member with rfl | later
        · have old : target ∈ found := by
            by_contra new
            exact known ⟨isFresh, new⟩
          exact subset_collectUpTo rest old
        · exact ih distinct ((Finset.card_le_card smaller).trans room) later

end Collect

end CryptoVaultHub.Semantics
