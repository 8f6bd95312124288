import Mathlib.Data.List.Count
import Mathlib.Tactic.Common

/-!
# Sliding windows on a sorted set

A sorted set holds members with scores. A request is checked by dropping the scores that are a
window length old, counting the rest, and adding the request when the count is below the limit.
`SlidingWindow.Sound` relates what is stored to the requests that were ever admitted: the ones that
are not yet a window length old are stored, and no window holds more than the limit.
-/

namespace CryptoVaultHub

variable {Member : Type}

/-- The members of a sorted set, each once, with their scores. -/
abbrev SortedSet (Member : Type) := List (Member × Nat)

namespace SortedSet

/-- Keep the members whose scores are above `now - window`. -/
def evict (window now : Nat) (set : SortedSet Member) : SortedSet Member :=
  set.filter fun entry => now < entry.2 + window

/-- Set the score of a member. -/
def add [DecidableEq Member] (member : Member) (score : Nat) (set : SortedSet Member) :
    SortedSet Member :=
  (member, score) :: set.filter fun entry => entry.1 ≠ member

/-- Drop, count, and add below the limit; whether the request is admitted, and what is stored. -/
def checkAndIncrement [DecidableEq Member] (limit window now : Nat) (member : Member)
    (set : SortedSet Member) : Bool × SortedSet Member :=
  let live := set.evict window now
  if limit ≤ live.length then (false, live) else (true, live.add member now)

theorem add_of_new [DecidableEq Member] {member : Member} {set : SortedSet Member} (score : Nat)
    (new : ∀ entry ∈ set, entry.1 ≠ member) : set.add member score = (member, score) :: set := by
  rw [add, List.filter_eq_self.mpr]
  exact fun entry inside => decide_eq_true (new entry inside)

/-- An entry that is live later is live now. -/
theorem countP_evict {window now bound : Nat} (later : now ≤ bound) (set : SortedSet Member) :
    (set.evict window now).countP (fun entry => bound < entry.2 + window) =
      set.countP fun entry => bound < entry.2 + window := by
  rw [evict, List.countP_filter]
  refine List.countP_congr fun entry _ => ?_
  simp only [Bool.and_eq_true, decide_eq_true_eq, and_iff_left_iff_imp]
  exact fun live => Nat.lt_of_le_of_lt later live

theorem checkAndIncrement_cases [DecidableEq Member] (limit window now : Nat) (member : Member)
    (set : SortedSet Member) :
    limit ≤ (set.evict window now).length ∧
        set.checkAndIncrement limit window now member = (false, set.evict window now) ∨
      (set.evict window now).length < limit ∧
        set.checkAndIncrement limit window now member =
          (true, (set.evict window now).add member now) := by
  unfold checkAndIncrement
  by_cases full : limit ≤ (set.evict window now).length
  · exact .inl ⟨full, if_pos full⟩
  · exact .inr ⟨Nat.lt_of_not_le full, if_neg full⟩

theorem length_evict (window now : Nat) (set : SortedSet Member) :
    (set.evict window now).length = set.countP fun entry => now < entry.2 + window :=
  List.countP_eq_length_filter.symm

end SortedSet

/-- A window's sorted set, with the time of the last request that was checked and the times of all
that were admitted, which are not stored. -/
structure SlidingWindow (Member : Type) where
  set : SortedSet Member
  latest : Nat
  admitted : List Nat
deriving DecidableEq

namespace SlidingWindow

variable {limit length now : Nat} {member : Member} {window : SlidingWindow Member}

def fresh : SlidingWindow Member := ⟨[], 0, []⟩

/-- The window after its set was dropped at a time. -/
def expire (now : Nat) (window : SlidingWindow Member) : SlidingWindow Member :=
  { window with set := [], latest := now }

/-- A set is not dropped before its last entry is a window length old. -/
@[reducible] def Expired (length now : Nat) (window : SlidingWindow Member) : Prop :=
  window.latest ≤ now ∧ ∀ entry ∈ window.set, entry.2 + length ≤ now

/-- The times of an interval of a window length. -/
def during (start length stamp : Nat) : Bool := start ≤ stamp ∧ stamp < start + length

structure Sound (limit length : Nat) (window : SlidingWindow Member) : Prop where
  stored : ∀ bound, window.latest ≤ bound →
    window.set.countP (fun entry => bound < entry.2 + length) =
      window.admitted.countP fun stamp => bound < stamp + length
  bounded : ∀ start, window.admitted.countP (during start length) ≤ limit

theorem Sound.expire (sound : window.Sound limit length) (expired : window.Expired length now) :
    (window.expire now).Sound limit length := by
  refine ⟨fun bound after => ?_, sound.bounded⟩
  have gone : window.set.countP (fun entry => bound < entry.2 + length) = 0 := by
    rw [List.countP_eq_zero]
    intro entry inside live
    exact absurd (of_decide_eq_true live) (Nat.not_lt.mpr (Nat.le_trans (expired.2 entry inside) after))
  exact gone.symm.trans (sound.stored bound (Nat.le_trans expired.1 after))

/-- What a window has admitted during an interval was admitted less than a window length before
any time of the interval. -/
theorem countP_during_le {start : Nat} (inside : during start length now = true)
    (stamps : List Nat) :
    stamps.countP (during start length) ≤ stamps.countP fun stamp => now < stamp + length := by
  refine List.countP_mono_left fun stamp _ within => ?_
  simp only [during, Bool.decide_and, Bool.and_eq_true, decide_eq_true_eq] at inside within ⊢
  omega

section Check

variable [DecidableEq Member]

/-- Whether a request at a time is admitted. -/
def allows (limit length now : Nat) (member : Member) (window : SlidingWindow Member) : Bool :=
  (window.set.checkAndIncrement limit length now member).1

/-- The window after a request. -/
def check (limit length now : Nat) (member : Member) (window : SlidingWindow Member) :
    SlidingWindow Member :=
  { set := (window.set.checkAndIncrement limit length now member).2
    latest := now
    admitted :=
      if window.allows limit length now member then now :: window.admitted else window.admitted }

/-- Requests come in the order of their times, each with a new member. -/
@[reducible] def InOrder (now : Nat) (member : Member) (window : SlidingWindow Member) : Prop :=
  window.latest ≤ now ∧ ∀ entry ∈ window.set, entry.1 ≠ member

/-- What a request does: it is refused at the limit, and below it is stored and admitted. -/
theorem check_cases (limit length now : Nat) (order : window.InOrder now member) :
    limit ≤ (window.set.evict length now).length ∧
        window.allows limit length now member = false ∧
        window.check limit length now member =
          ⟨window.set.evict length now, now, window.admitted⟩ ∨
      (window.set.evict length now).length < limit ∧
        window.allows limit length now member = true ∧
        window.check limit length now member =
          ⟨(member, now) :: window.set.evict length now, now, now :: window.admitted⟩ := by
  have new : ∀ entry ∈ window.set.evict length now, entry.1 ≠ member :=
    fun entry inside => order.2 entry (List.mem_filter.mp inside).1
  obtain ⟨full, result⟩ | ⟨free, result⟩ :=
    window.set.checkAndIncrement_cases limit length now member
  · have refused : window.allows limit length now member = false := congrArg Prod.fst result
    refine .inl ⟨full, refused, ?_⟩
    simp [check, refused, result]
  · have admits : window.allows limit length now member = true := congrArg Prod.fst result
    refine .inr ⟨free, admits, ?_⟩
    simp [check, admits, result, SortedSet.add_of_new now new]

theorem Sound.check (sound : window.Sound limit length) (order : window.InOrder now member) :
    (window.check limit length now member).Sound limit length := by
  have evicted : ∀ bound, now ≤ bound →
      (window.set.evict length now).countP (fun entry => bound < entry.2 + length) =
        window.admitted.countP fun stamp => bound < stamp + length := by
    intro bound after
    rw [SortedSet.countP_evict after, sound.stored bound (Nat.le_trans order.1 after)]
  obtain ⟨-, -, same⟩ | ⟨free, -, adds⟩ := check_cases limit length now order
  · rw [same]
    exact ⟨evicted, sound.bounded⟩
  · rw [adds]
    refine ⟨fun bound after => ?_, fun start => ?_⟩
    · rw [List.countP_cons, List.countP_cons, evicted bound after]
    · rw [List.countP_cons]
      split
      · -- what is left of the interval began less than a window length ago
        rename_i inside
        rw [SortedSet.length_evict, sound.stored now order.1] at free
        exact Nat.lt_of_le_of_lt (countP_during_le inside _) free
      · exact sound.bounded start

end Check

end SlidingWindow

end CryptoVaultHub
