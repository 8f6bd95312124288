import Mathlib

/-!
# API keys and their address lists

`validateApiKey` finds a key by its hash and checks that it is active, has not expired, and may be
used from the address of the request. An entry of an address list is an IPv4 address or a CIDR
block, in text; one that cannot be read matches nothing. `mask_eq_iff` says that a block is compared
by its leading bits. `Number` of a prefix length is a parameter.
-/

namespace CryptoVaultHub.Auth

abbrev Text := List Char

/-! ## Matching addresses -/

namespace Cidr

def mappedPrefix : Text := "::ffff:".toList

def normalizeIp (ip : Text) : Text :=
  if (ip.take 7).map Char.toLower = mappedPrefix then ip.drop 7 else ip

/-- An octet: decimal digits with a value of at most 255. -/
def octet (part : Text) : Option (BitVec 32) :=
  if part ≠ [] ∧ part.all Char.isDigit ∧ Nat.ofDigitChars 10 part 0 ≤ 255 then
    some (BitVec.ofNat 32 (Nat.ofDigitChars 10 part 0))
  else none

def appendOctet (value octet : BitVec 32) : BitVec 32 := (value <<< 8) + octet

def ipToInt (ip : Text) : Option (BitVec 32) := do
  let parts := ip.splitOn '.'
  if parts.length ≠ 4 then none
  else
    let octets ← parts.mapM octet
    return octets.foldl appendOctet 0

/-- The integer that a text denotes as a number, if it does. -/
abbrev NumberOf := Text → Option Int

def entryMatches (number : NumberOf) (ip entry : Text) : Bool :=
  let parts := entry.splitOn '/'
  if 2 < parts.length then false
  else
    let address := if parts.length = 2 then parts.getD 0 [] else entry
    let prefixText := if parts.length = 2 then parts.getD 1 [] else "32".toList
    match number prefixText with
    | none => false
    | some length =>
      if length < 0 ∨ 32 < length then false
      else
        match ipToInt ip, ipToInt address with
        | some requested, some listed =>
          if length = 0 then true
          else
            let mask := BitVec.allOnes 32 <<< (32 - length.toNat)
            requested &&& mask = listed &&& mask
        | _, _ => false

def matchesAllowlist (number : NumberOf) (requestIp : Option Text)
    (allowlist : Option (List Text)) : Bool :=
  match allowlist with
  | none | some [] => true
  | some entries =>
    match requestIp with
    | none | some [] => false
    | some ip => entries.any (entryMatches number (normalizeIp ip))

end Cidr

/-! ## Keys -/

/-- A row of `api_keys`. -/
structure ApiKey where
  keyHash : Text
  clientId : Nat
  projectId : Nat
  scopes : List String
  ipAllowlist : Option (List Text)
  allowedChains : Option (List Nat)
  isActive : Bool
  expiresAt : Option Nat
deriving DecidableEq

/-- What is said of a valid key. -/
structure ApiKeyValidation where
  clientId : Nat
  projectId : Option Nat
  scopes : List String
  allowedChains : Option (List Nat)
deriving DecidableEq

/-- `sha256`, and the reading of numbers. -/
structure KeySettings where
  sha256 : Text → Text
  number : Cidr.NumberOf

def findApiKey (settings : KeySettings) (keys : List ApiKey) (apiKey : Text) : Option ApiKey :=
  keys.find? fun key => key.keyHash = settings.sha256 apiKey

/-- A key that is active and has not expired. -/
def ApiKey.current (key : ApiKey) (now : Nat) : Bool :=
  key.isActive && key.expiresAt.all fun expiresAt => now ≤ expiresAt

def ApiKey.validation (key : ApiKey) : ApiKeyValidation where
  clientId := key.clientId
  projectId := if key.projectId = 0 then none else some key.projectId
  scopes := key.scopes
  allowedChains := key.allowedChains

/-- `ApiKeyService.validateApiKey`; `none` is an answer that is not valid. -/
def validateApiKey (settings : KeySettings) (keys : List ApiKey) (now : Nat) (apiKey : Text)
    (requestIp : Option Text) : Option ApiKeyValidation := do
  let key ← findApiKey settings keys apiKey
  if key.current now && Cidr.matchesAllowlist settings.number requestIp key.ipAllowlist then
    return key.validation
  else none

/-- `ValidateApiKeyDto`. -/
structure ValidateApiKeyDto where
  apiKey : Text
  ip : Option Text

/-- `POST /auth/api-keys/validate`, for a request that comes from an address. -/
def AuthController.validateApiKey (settings : KeySettings) (keys : List ApiKey) (now : Nat)
    (dto : ValidateApiKeyDto) (ip : Option Text) : Option ApiKeyValidation :=
  Auth.validateApiKey settings keys now dto.apiKey ip

/-! ## What an entry matches -/

namespace Cidr

/-- The leading bits of two addresses agree. -/
def SameBlock (length : Nat) (first second : BitVec 32) : Prop :=
  ∀ index, 32 - length ≤ index → index < 32 → first.getLsbD index = second.getLsbD index

/-- Two addresses agree under a mask exactly if their leading bits do. -/
theorem mask_eq_iff {first second : BitVec 32} {length : Nat} :
    first &&& BitVec.allOnes 32 <<< (32 - length) = second &&& BitVec.allOnes 32 <<< (32 - length) ↔
      SameBlock length first second := by
  have masked : ∀ (address : BitVec 32) (index : Nat), index < 32 →
      (address &&& BitVec.allOnes 32 <<< (32 - length)).getLsbD index =
        (address.getLsbD index && decide (32 - length ≤ index)) := by
    intro address index high
    have shifted : index - (32 - length) < 32 := by omega
    rw [BitVec.getLsbD_and, BitVec.getLsbD_shiftLeft, BitVec.getLsbD_allOnes]
    by_cases low : index < 32 - length
    · simp [low, Nat.not_le_of_lt low]
    · simp [low, high, shifted, Nat.le_of_not_lt low]
  constructor
  · intro equal index low high
    have bits := congrArg (fun bits => bits.getLsbD index) equal
    simp only [masked _ index high, low, decide_true, Bool.and_true] at bits
    exact bits
  · intro same
    apply BitVec.eq_of_getLsbD_eq
    intro index high
    rw [masked _ index high, masked _ index high]
    by_cases low : 32 - length ≤ index
    · rw [same index low high]
    · simp [low]

end Cidr

end CryptoVaultHub.Auth
