import CryptoVaultHub.Semantics.Execution
import CryptoVaultHub.Semantics.ExpiringStore

/-!
# Flush locks

`FlushGuardService` locks an address; `FlushOrchestratorService` asks whether an address is
locked on a chain. Each builds its own key. The guard's key has no chain in it, so the
orchestrator asks for a key that the guard never writes.
-/

namespace CryptoVaultHub.CoreWallet.Flush

open TransitionSystem

abbrev Text := List Char

/-- Redis, as far as flushes use it. -/
abbrev LockStore := ExpiringStore Text Text

/-- `toLowerCase` of a text of ASCII characters, as addresses are. -/
def toLowerCase (text : Text) : Text := text.map Char.toLower

/-! ## The guard -/

def lockPrefix : Text := "flush:lock:".toList

/-- `LOCK_TTL_SECONDS`. -/
def lockTtlSeconds : Nat := 300

/-- The key of `FlushGuardService`. -/
def guardKey (address : Text) : Text := lockPrefix ++ toLowerCase address

def acquireLock (store : LockStore) (address operationUid : Text) : LockStore × Bool :=
  store.setNx (guardKey address) operationUid lockTtlSeconds

def releaseLock (store : LockStore) (address operationUid : Text) : LockStore :=
  if store.get (guardKey address) = some operationUid then store.del (guardKey address) else store

def isLocked (store : LockStore) (address : Text) : Bool :=
  (store.get (guardKey address)).isSome

/-! ## The orchestrator -/

/-- A chain id in a template text. -/
def chainText (chainId : Nat) : Text := Nat.toDigits 10 chainId

/-- The key of `FlushOrchestratorService`. -/
def orchestratorKey (chainId : Nat) (address : Text) : Text :=
  lockPrefix ++ chainText chainId ++ ":".toList ++ toLowerCase address

def isForwarderLocked (store : LockStore) (chainId : Nat) (address : Text) : Bool :=
  (store.get (orchestratorKey chainId address)).isSome

/-! ## Runs -/

inductive LockAction where
  | acquire (address operationUid : Text)
  | release (address operationUid : Text)
  | wait (seconds : Nat)

/-- The guard with the time that passes. -/
def guardSystem : TransitionSystem LockStore LockAction where
  Initial store := ∃ now, store = .empty now
  step store
    | .acquire address operationUid => some (acquireLock store address operationUid).1
    | .release address operationUid => some (releaseLock store address operationUid)
    | .wait seconds => some (store.advance seconds)

/-- The locks of the guard for an address are those the orchestrator sees for a chain. -/
structure LocksAgree (chainId : Nat) (address : Text) : Prop where
  seen : ∀ store, guardSystem.Reachable Unrestricted store → isLocked store address = true →
    isForwarderLocked store chainId address = true
  noOther : ∀ store, guardSystem.Reachable Unrestricted store →
    isForwarderLocked store chainId address = true → isLocked store address = true

/-! ## Keys -/

/-- The two keys of an address differ in length. -/
theorem guardKey_ne (chainId : Nat) (address : Text) :
    orchestratorKey chainId address ≠ guardKey address := by
  intro same
  have lengths := congrArg List.length same
  simp only [orchestratorKey, guardKey, List.length_append] at lengths
  have colon : ":".toList.length = 1 := rfl
  omega

/-- An address without a colon. -/
def Plain (address : Text) : Prop := ':' ∉ address

/-- The guard is only asked for plain addresses. -/
def PlainAddresses : LockStore → LockAction → Prop
  | _, .acquire address _ => Plain address
  | _, .release _ _ | _, .wait _ => True

/-- No letter has a colon as its lower case. -/
theorem toLowerCase_plain {address : Text} (plain : Plain address) :
    Plain (toLowerCase address) := by
  intro member
  obtain ⟨letter, letterIn, lower⟩ := List.mem_map.mp member
  have alpha := Char.isLower_toLower_eq_isAlpha letter
  rw [lower] at alpha
  have notUpper : ¬ letter.isUpper = true := by
    intro upper
    simp [Char.isAlpha, upper] at alpha
  rw [Char.toLower_eq_of_not_isUpper notUpper] at lower
  rw [lower] at letterIn
  exact plain letterIn

/-- The orchestrator's keys have a colon where those of plain addresses have none. -/
theorem guardKey_ne_of_plain {address : Text} (plain : Plain address) (chainId : Nat)
    (other : Text) : orchestratorKey chainId other ≠ guardKey address := by
  intro same
  rw [orchestratorKey, guardKey, List.append_assoc, List.append_assoc] at same
  have rest := List.append_cancel_left same
  have colon : ':' ∈ toLowerCase address := by
    rw [← rest]
    simp
  exact toLowerCase_plain plain colon

/-! ## What the orchestrator sees -/

/-- Only its own address's key changes when a lock is acquired. -/
theorem get_acquireLock {store : LockStore} {address operationUid key : Text}
    (different : key ≠ guardKey address) :
    (acquireLock store address operationUid).1.get key = store.get key := by
  unfold acquireLock ExpiringStore.setNx
  split
  · rfl
  · exact ExpiringStore.get_put_of_ne different _

/-- A lock that was just acquired is held. -/
theorem isLocked_acquireLock (now : Nat) (address operationUid : Text) :
    isLocked (acquireLock (.empty now) address operationUid).1 address = true := by
  simp [isLocked, acquireLock, ExpiringStore.setNx, ExpiringStore.get,
    ExpiringStore.live_setEx_self, lockTtlSeconds]

/-- A lock that was just acquired is not seen. -/
theorem not_locksAgree (chainId : Nat) (address : Text) : ¬ LocksAgree chainId address := by
  intro agree
  have first : guardSystem.step (.empty 0) (.acquire address []) =
      some (acquireLock (.empty 0) address []).1 := rfl
  have reached : guardSystem.Reachable Unrestricted (acquireLock (.empty 0) address []).1 :=
    ⟨_, ⟨0, rfl⟩, .step .refl trivial first⟩
  have seen := agree.seen _ reached (isLocked_acquireLock 0 address [])
  rw [isForwarderLocked, get_acquireLock (guardKey_ne chainId address)] at seen
  cases seen

/-- The orchestrator finds no key at all. -/
def Unseen (store : LockStore) : Prop :=
  ∀ chainId address, store.get (orchestratorKey chainId address) = none

/-- Nothing the guard does for plain addresses adds a key the orchestrator asks for. -/
theorem unseen_step {store next : LockStore} {action : LockAction} (unseen : Unseen store)
    (plain : PlainAddresses store action) (transition : guardSystem.step store action = some next) :
    Unseen next := by
  intro chainId other
  have absent := unseen chainId other
  cases action with
  | acquire address operationUid =>
    cases transition
    rw [get_acquireLock (guardKey_ne_of_plain plain chainId other)]
    exact absent
  | release address operationUid =>
    cases transition
    unfold releaseLock
    split
    · by_cases same : orchestratorKey chainId other = guardKey address
      · rw [ExpiringStore.get, same, ExpiringStore.live_del_self]
        rfl
      · rw [ExpiringStore.del, ExpiringStore.get_put_of_ne same]
        exact absent
    · exact absent
  | wait seconds =>
    cases transition
    exact ExpiringStore.get_advance absent

/-- The guard's locks are never those the orchestrator sees, for no chain and no address; in
runs with proper addresses the orchestrator sees none at all. -/
theorem flush_locks_never_agree (chainId : Nat) (address : Text) :
    ¬ LocksAgree chainId address ∧
      ∀ store, guardSystem.Reachable PlainAddresses store →
        isForwarderLocked store chainId address = false := by
  refine ⟨not_locksAgree chainId address, ?_⟩
  intro store reached
  have unseen : Unseen store := by
    refine reached.invariant ?_ ?_
    · rintro start ⟨now, rfl⟩ chainId address
      rfl
    · exact fun _ _ _ holds plain transition => unseen_step holds plain transition
  rw [isForwarderLocked, unseen chainId address]
  rfl

/-- The lock of an address on the chain 137. -/
theorem flush_lock_not_seen :
    ¬ LocksAgree 137 "0xAbCdEf0123456789AbCdEf0123456789AbCdEf01".toList :=
  not_locksAgree 137 _

end CryptoVaultHub.CoreWallet.Flush
