import Mathlib

/-!
# Stores whose keys expire

A store maps keys to values, some of them with a deadline; a value past its deadline is as
good as absent. Overwriting a value drops its deadline, while counting one up keeps it. The
lemmas say what each operation does to the live entry of its own key and of every other.
-/

namespace CryptoVaultHub

/-- A value with its deadline, if it has one. -/
structure Expiring (Value : Type) where
  value : Value
  deadline : Option Nat
deriving DecidableEq

structure ExpiringStore (Key Value : Type) where
  now : Nat
  entries : Key → Option (Expiring Value)

namespace ExpiringStore

variable {Key Value : Type}

/-- A store without keys. -/
def empty (now : Nat) : ExpiringStore Key Value := ⟨now, fun _ => none⟩

/-- The deadline of an entry is still to come. -/
def Expiring.lives (entry : Expiring Value) (now : Nat) : Bool :=
  entry.deadline.all fun deadline => now < deadline

/-- The entry of a key, unless it has expired. -/
def live (store : ExpiringStore Key Value) (key : Key) : Option (Expiring Value) :=
  (store.entries key).filter fun entry => Expiring.lives entry store.now

def get (store : ExpiringStore Key Value) (key : Key) : Option Value :=
  (store.live key).map Expiring.value

/-- The seconds a key has left: `none` without the key, `some none` without a deadline. -/
def ttl (store : ExpiringStore Key Value) (key : Key) : Option (Option Nat) :=
  (store.live key).map fun entry => entry.deadline.map fun deadline => deadline - store.now

/-- Time passes. -/
def advance (store : ExpiringStore Key Value) (seconds : Nat) : ExpiringStore Key Value :=
  { store with now := store.now + seconds }

variable [DecidableEq Key]

def put (store : ExpiringStore Key Value) (key : Key) (entry : Option (Expiring Value)) :
    ExpiringStore Key Value :=
  { store with entries := Function.update store.entries key entry }

/-- `SET` with `EX`. -/
def setEx (store : ExpiringStore Key Value) (key : Key) (value : Value) (seconds : Nat) :
    ExpiringStore Key Value :=
  store.put key (some ⟨value, some (store.now + seconds)⟩)

/-- `SET` with `EX` and `NX`, and whether it has set the key. -/
def setNx (store : ExpiringStore Key Value) (key : Key) (value : Value) (seconds : Nat) :
    ExpiringStore Key Value × Bool :=
  if (store.live key).isSome then (store, false) else (store.setEx key value seconds, true)

def del (store : ExpiringStore Key Value) (key : Key) : ExpiringStore Key Value :=
  store.put key none

/-- `EXPIRE`, which does nothing without the key. -/
def expire (store : ExpiringStore Key Value) (key : Key) (seconds : Nat) :
    ExpiringStore Key Value :=
  match store.live key with
  | none => store
  | some entry => store.put key (some { entry with deadline := some (store.now + seconds) })

/-- `INCR`: the new count. A new counter has no deadline. -/
def incr (store : ExpiringStore Key Nat) (key : Key) : ExpiringStore Key Nat × Nat :=
  match store.live key with
  | none => (store.put key (some ⟨1, none⟩), 1)
  | some entry => (store.put key (some { entry with value := entry.value + 1 }), entry.value + 1)

/-! ## Live entries -/

section Live

variable {store : ExpiringStore Key Value} {key other : Key}

@[simp] theorem put_now (entry : Option (Expiring Value)) :
    (store.put key entry).now = store.now := rfl

@[simp] theorem live_put_self (entry : Option (Expiring Value)) :
    (store.put key entry).live key = entry.filter fun entry => Expiring.lives entry store.now := by
  simp [live, put]

@[simp] theorem live_put_of_ne (different : other ≠ key) (entry : Option (Expiring Value)) :
    (store.put key entry).live other = store.live other := by
  simp [live, put, Function.update_of_ne different]

@[simp] theorem get_put_of_ne (different : other ≠ key) (entry : Option (Expiring Value)) :
    (store.put key entry).get other = store.get other := by
  rw [get, live_put_of_ne different, get]

@[simp] theorem live_del_self : (store.del key).live key = none := by
  simp [del]

theorem live_setEx_self (value : Value) {seconds : Nat} (positive : 0 < seconds) :
    (store.setEx key value seconds).live key = some ⟨value, some (store.now + seconds)⟩ := by
  simp [setEx, Expiring.lives, positive]

omit [DecidableEq Key] in
@[simp] theorem live_empty (now : Nat) : (empty now : ExpiringStore Key Value).live key = none :=
  rfl

omit [DecidableEq Key] in
/-- What time leaves of an entry. -/
theorem live_advance (store : ExpiringStore Key Value) (key : Key) (seconds : Nat) :
    (store.advance seconds).live key =
      (store.live key).filter fun entry => Expiring.lives entry (store.now + seconds) := by
  simp only [live, advance, Option.filter_filter]
  congr 1
  funext entry
  obtain ⟨value, _ | moment⟩ := entry
  · rfl
  · simp only [Expiring.lives, Option.all_some, Bool.eq_and_self, decide_eq_true_eq]
    omega

omit [DecidableEq Key] in
/-- What lives on later lives now. -/
theorem live_of_advance {seconds : Nat} {entry : Expiring Value}
    (lives : (store.advance seconds).live key = some entry) : store.live key = some entry := by
  rw [live_advance, Option.filter_eq_some_iff] at lives
  exact lives.1

omit [DecidableEq Key] in
/-- Time adds no keys. -/
theorem get_advance {seconds : Nat} (absent : store.get key = none) :
    (store.advance seconds).get key = none := by
  rw [get, Option.map_eq_none_iff] at absent ⊢
  cases lives : (store.advance seconds).live key with
  | none => rfl
  | some entry =>
    rw [live_of_advance lives] at absent
    cases absent

omit [DecidableEq Key] in
theorem lives_of_live {entry : Expiring Value} (lives : store.live key = some entry) :
    Expiring.lives entry store.now = true :=
  (Option.filter_eq_some_iff.mp lives).2

theorem expire_of_live {entry : Expiring Value} (lives : store.live key = some entry)
    (seconds : Nat) : store.expire key seconds =
      store.put key (some { entry with deadline := some (store.now + seconds) }) := by
  simp only [expire, lives]

end Live

section Counters

variable {store : ExpiringStore Key Nat} {key : Key}

theorem incr_of_none (absent : store.live key = none) :
    store.incr key = (store.put key (some ⟨1, none⟩), 1) := by
  simp only [incr, absent]

theorem incr_of_live {entry : Expiring Nat} (lives : store.live key = some entry) :
    store.incr key =
      (store.put key (some { entry with value := entry.value + 1 }), entry.value + 1) := by
  simp only [incr, lives]

end Counters

end ExpiringStore

end CryptoVaultHub
