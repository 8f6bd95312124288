import CryptoVaultHub.Semantics.ExpiringStore

/-!
# Counters as windows

A counter that gets its deadline with its first count is a window of fixed length: it opens with a
hit while none is open, and counts the hits until it ends. `Implements` relates the live entry of
such a counter to the window. It survives that the deadline of a counter is never set; the counter
then outlives its window and counts too much.
-/

namespace CryptoVaultHub

/-- A window, from its first hit on. -/
structure Window where
  since : Nat
  hits : Nat
deriving DecidableEq

namespace Window

/-- The window that is open, if one is. -/
def current (length now : Nat) (window : Option Window) : Option Window :=
  window.filter fun window => now < window.since + length

/-- The window after a hit. -/
def hit (length now : Nat) (window : Option Window) : Window :=
  match current length now window with
  | some window => { window with hits := window.hits + 1 }
  | none => ⟨now, 1⟩

variable {length now : Nat} {window : Option Window} {one : Window}

theorem current_eq_some :
    current length now window = some one ↔ window = some one ∧ now < one.since + length := by
  simp [current, Option.filter_eq_some_iff]

theorem hit_of_current (opened : current length now window = some one) :
    hit length now window = { one with hits := one.hits + 1 } := by
  simp only [hit, opened]

theorem hit_of_none (closed : current length now window = none) :
    hit length now window = ⟨now, 1⟩ := by
  simp only [hit, closed]

/-- A window is open after a hit. -/
theorem now_lt_hit (positive : 0 < length) : now < (hit length now window).since + length := by
  cases opened : current length now window with
  | none =>
    rw [hit_of_none opened]
    exact Nat.lt_add_of_pos_right positive
  | some one =>
    rw [hit_of_current opened]
    exact (current_eq_some.mp opened).2

end Window

open Window ExpiringStore

/-- What a hit makes of a counter. It sets the deadline of a new one, unless it is interrupted. -/
inductive Bumped (length now : Nat) :
    Option (Expiring Nat) → Option (Expiring Nat) → Prop where
  | first : Bumped length now none (some ⟨1, some (now + length)⟩)
  | interrupted : Bumped length now none (some ⟨1, none⟩)
  | next (entry : Expiring Nat) :
      Bumped length now (some entry) (some { entry with value := entry.value + 1 })

/-- A counter counts the hits of the window, and ends with it unless it has no deadline. -/
structure Implements (length now : Nat) (entry : Option (Expiring Nat))
    (window : Option Window) : Prop where
  counts : ∀ one, current length now window = some one →
    ∃ counter, entry = some counter ∧ one.hits ≤ counter.value
  ends : ∀ counter deadline, entry = some counter → counter.deadline = some deadline →
    ∃ one, current length now window = some one ∧ one.since + length = deadline

namespace Implements

variable {length now : Nat} {entry after : Option (Expiring Nat)} {window : Option Window}

/-- Without a counter, no window is open. -/
theorem closed (implements : Implements length now none window) :
    current length now window = none := by
  cases opened : current length now window with
  | none => rfl
  | some one =>
    obtain ⟨counter, impossible, -⟩ := implements.counts one opened
    cases impossible

theorem of_closed (closed : current length now window = none) :
    Implements length now none window := by
  refine ⟨?_, ?_⟩
  · intro one opened
    rw [closed] at opened
    cases opened
  · rintro counter deadline ⟨⟩

/-- A hit counts for both. -/
theorem bumped (implements : Implements length now entry window) (positive : 0 < length)
    (bumped : Bumped length now entry after) :
    Implements length now after (some (hit length now window)) := by
  have opened : current length now (some (hit length now window)) =
      some (hit length now window) :=
    current_eq_some.mpr ⟨rfl, now_lt_hit positive⟩
  -- the hits are at most the new count, and the window is the one whose deadline the counter has
  have ends : ∀ counter, after = some counter → (hit length now window).hits ≤ counter.value ∧
      ∀ deadline, counter.deadline = some deadline →
        (hit length now window).since + length = deadline := by
    rintro _ ⟨⟩
    cases bumped with
    | first =>
      rw [hit_of_none implements.closed]
      exact ⟨Nat.le_refl 1, fun deadline same => Option.some.inj same⟩
    | interrupted =>
      rw [hit_of_none implements.closed]
      refine ⟨Nat.le_refl 1, ?_⟩
      rintro deadline ⟨⟩
    | next counter =>
      cases before : current length now window with
      | none =>
        rw [hit_of_none before]
        refine ⟨Nat.succ_pos _, ?_⟩
        intro deadline limited
        obtain ⟨one, impossible, -⟩ := implements.ends counter deadline rfl limited
        rw [before] at impossible
        cases impossible
      | some one =>
        obtain ⟨_, ⟨⟩, counted⟩ := implements.counts one before
        rw [hit_of_current before]
        refine ⟨Nat.succ_le_succ counted, ?_⟩
        intro deadline limited
        obtain ⟨_, same, ended⟩ := implements.ends counter deadline rfl limited
        rw [before] at same
        cases same
        exact ended
  obtain ⟨counter, rfl⟩ : ∃ counter, after = some counter := by
    cases bumped <;> exact ⟨_, rfl⟩
  obtain ⟨counted, limited⟩ := ends counter rfl
  refine ⟨?_, ?_⟩
  · intro one same
    rw [opened] at same
    cases same
    exact ⟨counter, rfl, counted⟩
  · rintro _ deadline ⟨⟩ same
    exact ⟨_, opened, limited deadline same⟩

/-- Time ends both. -/
theorem advance (implements : Implements length now entry window) (seconds : Nat) :
    Implements length (now + seconds)
      (entry.filter fun counter => Expiring.lives counter (now + seconds)) window := by
  have earlier : ∀ one, current length (now + seconds) window = some one →
      current length now window = some one := by
    intro one later
    obtain ⟨same, ends⟩ := current_eq_some.mp later
    exact current_eq_some.mpr ⟨same, by omega⟩
  refine ⟨?_, ?_⟩
  · intro one later
    obtain ⟨counter, rfl, counted⟩ := implements.counts one (earlier one later)
    refine ⟨counter, Option.filter_eq_some_iff.mpr ⟨rfl, ?_⟩, counted⟩
    rcases limited : counter.deadline with _ | deadline
    · simp [Expiring.lives, limited]
    · obtain ⟨_, same, rfl⟩ := implements.ends counter deadline rfl limited
      rw [earlier one later] at same
      cases same
      simpa [Expiring.lives, limited] using (current_eq_some.mp later).2
  · intro counter deadline lives limited
    obtain ⟨rfl, later⟩ := Option.filter_eq_some_iff.mp lives
    obtain ⟨one, opened, rfl⟩ := implements.ends counter deadline rfl limited
    refine ⟨one, current_eq_some.mpr ⟨(current_eq_some.mp opened).1, ?_⟩, rfl⟩
    simpa [Expiring.lives, limited] using later

end Implements

end CryptoVaultHub
