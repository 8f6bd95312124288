import CryptoVaultHub.Auth.ApiKeys

/-!
# The guard of the client API

`ApiKeyAuthGuard` sends the key and the address of a request to the auth service, and checks the
scopes of the key that comes back. The address list of a key is compared there with the address
that the auth service sees, which is the client API's own: what the guard sends is not read.
-/

namespace CryptoVaultHub.ClientApi

open Auth

/-! ## Scopes -/

def granularScopes : List String :=
  ["wallets:read", "wallets:create", "forwarders:read", "forwarders:create", "forwarders:flush",
    "address-book:read", "address-book:write", "address-groups:read", "address-groups:write",
    "withdrawals:read", "withdrawals:hot", "withdrawals:gas-tank", "webhooks:read",
    "webhooks:write", "deposits:read", "tokens:read", "chains:read", "gas-tanks:read",
    "gas-tanks:write", "co-sign:read", "co-sign:write", "projects:read", "project-setup:read",
    "project-setup:write", "notifications:read", "notifications:write", "security:read",
    "security:write", "deploy-trace:read", "kb:read", "export:read"]

def allReadScopes : List String :=
  granularScopes.filter fun scope => ":read".toList.isSuffixOf scope.toList

def legacyWriteScopes : List String :=
  ["wallets:create", "forwarders:create", "forwarders:flush", "address-book:write",
    "address-groups:write", "webhooks:write", "gas-tanks:write", "co-sign:write",
    "project-setup:write", "notifications:write", "security:write", "export:read"]

def legacyWithdrawScopes : List String := ["withdrawals:hot", "withdrawals:gas-tank"]

/-- `LEGACY_ALIASES`. -/
def legacyAliases (scope : String) : Option (List String) :=
  if scope = "read" then some allReadScopes
  else if scope = "write" then some legacyWriteScopes
  else if scope = "withdraw" then some legacyWithdrawScopes
  else none

def expandLegacyScopes (scopes : List String) : List String :=
  scopes.flatMap fun scope => (legacyAliases scope).getD [scope]

/-! ## The guard -/

/-- A request with an API key, and the scopes of its handler, of which one is enough. -/
structure GuardRequest where
  apiKey : Text
  ip : Option Text
  requiredScopes : List String

/-- The address that the auth service sees, whether its answer arrives, and the time. -/
structure Validation where
  ip : Option Text
  delivered : Bool
  now : Nat

inductive GuardFailure where
  | unauthorized
  | forbidden (requiredScopes : List String)
deriving DecidableEq

/-- What the guard attaches to a request. -/
structure RequestContext where
  clientId : Nat
  scopes : List String
  allowedChains : Option (List Nat)
  projectId : Option Nat
deriving DecidableEq

/-- `validateApiKey` of the guard. -/
def ApiKeyAuthGuard.validateApiKey (settings : KeySettings) (keys : List ApiKey)
    (validation : Validation) (apiKey : Text) (requestIp : Option Text) :
    Option ApiKeyValidation :=
  if validation.delivered then
    AuthController.validateApiKey settings keys validation.now ⟨apiKey, requestIp⟩ validation.ip
  else none

def checkScopes (requiredScopes userScopes : List String) : Except GuardFailure Unit :=
  if requiredScopes = [] ∨
      requiredScopes.any fun scope => (expandLegacyScopes userScopes).contains scope then
    .ok ()
  else .error (.forbidden requiredScopes)

def authenticateWithApiKey (settings : KeySettings) (keys : List ApiKey)
    (validation : Validation) (request : GuardRequest) : Except GuardFailure RequestContext :=
  match ApiKeyAuthGuard.validateApiKey settings keys validation request.apiKey request.ip with
  | none => .error .unauthorized
  | some answer => do
    checkScopes request.requiredScopes answer.scopes
    .ok ⟨answer.clientId, answer.scopes, answer.allowedChains, answer.projectId⟩

/-- The guard lets the request through. -/
def Passes (settings : KeySettings) (keys : List ApiKey) (validation : Validation)
    (request : GuardRequest) : Prop :=
  ∃ context, authenticateWithApiKey settings keys validation request = .ok context

/-! ## The address list -/

/-- The keys, with the address list of one taken away. -/
def withoutAllowlist (settings : KeySettings) (apiKey : Text) (keys : List ApiKey) :
    List ApiKey :=
  keys.map fun key =>
    if key.keyHash = settings.sha256 apiKey then { key with ipAllowlist := none } else key

/-- Whether the address of the request is on a list. -/
def Listed (settings : KeySettings) (ip : Option Text) (entries : List Text) : Prop :=
  Cidr.matchesAllowlist settings.number ip (some entries) = true

/-- A request passes only from a listed address, and one from a listed address is not refused
where it would pass without the list. -/
structure AddressEnforced (settings : KeySettings) (keys : List ApiKey) (validation : Validation)
    (request : GuardRequest) (entries : List Text) : Prop where
  only : Passes settings keys validation request → Listed settings request.ip entries
  admits : Listed settings request.ip entries →
    Passes settings (withoutAllowlist settings request.apiKey keys) validation request →
      Passes settings keys validation request

section Lists

variable {settings : KeySettings} {keys : List ApiKey} {validation : Validation}
  {request : GuardRequest} {key : ApiKey}

theorem findApiKey_withoutAllowlist (found : findApiKey settings keys request.apiKey = some key) :
    findApiKey settings (withoutAllowlist settings request.apiKey keys) request.apiKey =
      some { key with ipAllowlist := none } := by
  have hash : key.keyHash = settings.sha256 request.apiKey := by
    simpa using List.find?_some found
  have same : (fun other : ApiKey => decide (other.keyHash = settings.sha256 request.apiKey)) ∘
      (fun other => if other.keyHash = settings.sha256 request.apiKey then
        { other with ipAllowlist := none } else other) =
      fun other => decide (other.keyHash = settings.sha256 request.apiKey) := by
    funext other
    by_cases own : other.keyHash = settings.sha256 request.apiKey <;> simp [own]
  rw [findApiKey, withoutAllowlist, List.find?_map, same]
  rw [findApiKey] at found
  rw [found, Option.map_some, if_pos hash]

/-- When a request with a known key passes. -/
theorem passes_iff (found : findApiKey settings keys request.apiKey = some key) :
    Passes settings keys validation request ↔
      (validation.delivered = true ∧ key.current validation.now = true ∧
        ∃ checked, checkScopes request.requiredScopes key.scopes = .ok checked) ∧
      Cidr.matchesAllowlist settings.number validation.ip key.ipAllowlist = true := by
  simp only [Passes, authenticateWithApiKey, ApiKeyAuthGuard.validateApiKey,
    AuthController.validateApiKey, Auth.validateApiKey, found, Option.bind_eq_bind,
    Option.bind_some]
  by_cases delivered : validation.delivered = true
  · by_cases valid : (key.current validation.now &&
        Cidr.matchesAllowlist settings.number validation.ip key.ipAllowlist) = true
    · obtain ⟨current, listed⟩ := (Bool.and_eq_true _ _).mp valid
      simp only [delivered, current, listed, if_true, Option.pure_def, true_and, and_true,
        ApiKey.validation, Bool.and_self]
      cases outcome : checkScopes request.requiredScopes key.scopes with
      | error failure => simp [bind, Except.bind]
      | ok checked => simp [bind, Except.bind]
    · have refused : ¬ (key.current validation.now = true ∧
          Cidr.matchesAllowlist settings.number validation.ip key.ipAllowlist = true) :=
        fun both => valid ((Bool.and_eq_true _ _).mpr both)
      simp only [delivered, valid, if_true]
      constructor
      · rintro ⟨context, passed⟩
        cases passed
      · rintro ⟨⟨_, current, _⟩, listed⟩
        exact absurd ⟨current, listed⟩ refused
  · simp [delivered]

end Lists

/-- The address list of a key is enforced on the caller exactly if the request would be refused
without it too, or the address of the client API is listed if and only if the caller's is. -/
theorem allowlist_enforced_iff {settings : KeySettings} {keys : List ApiKey}
    {validation : Validation} {request : GuardRequest} {key : ApiKey} {entries : List Text}
    (found : findApiKey settings keys request.apiKey = some key)
    (listed : key.ipAllowlist = some entries) :
    AddressEnforced settings keys validation request entries ↔
      ¬ Passes settings (withoutAllowlist settings request.apiKey keys) validation request ∨
        (Listed settings validation.ip entries ↔ Listed settings request.ip entries) := by
  have passes := @passes_iff settings keys validation request key found
  have unlisted := @passes_iff settings _ validation request _ (findApiKey_withoutAllowlist found)
  have free : Cidr.matchesAllowlist settings.number validation.ip none = true := rfl
  rw [listed] at passes
  simp only [free, and_true] at unlisted
  have split : Passes settings keys validation request ↔
      Passes settings (withoutAllowlist settings request.apiKey keys) validation request ∧
        Listed settings validation.ip entries := by
    rw [passes, unlisted]
    rfl
  constructor
  · rintro ⟨only, admits⟩
    by_cases otherwise : Passes settings (withoutAllowlist settings request.apiKey keys)
        validation request
    · refine .inr ⟨fun seen => only (split.mpr ⟨otherwise, seen⟩), fun called => ?_⟩
      exact (split.mp (admits called otherwise)).2
    · exact .inl otherwise
  · rintro (refused | same)
    · exact ⟨fun passed => absurd (split.mp passed).1 refused,
        fun _ otherwise => absurd otherwise refused⟩
    · exact ⟨fun passed => same.mp (split.mp passed).2,
        fun called otherwise => split.mpr ⟨otherwise, same.mpr called⟩⟩

/-- Numbers in digits. -/
def sampleKeySettings : KeySettings :=
  ⟨id, fun text => if text.all Char.isDigit then some (Nat.ofDigitChars 10 text 0) else none⟩

/-- A key for one network. -/
def sampleKey : ApiKey :=
  ⟨"k".toList, 1, 5, ["withdraw"], some ["203.0.113.0/24".toList], none, true, none⟩

def sampleRequest (ip : String) : GuardRequest := ⟨"k".toList, some ip.toList, ["withdrawals:hot"]⟩

/-- The client API runs within the network of the key. -/
theorem allowlist_enforced_iff_sample :
    AddressEnforced sampleKeySettings [sampleKey] ⟨some "203.0.113.9".toList, true, 0⟩
      (sampleRequest "203.0.113.7") ["203.0.113.0/24".toList] := by
  refine (@allowlist_enforced_iff sampleKeySettings [sampleKey] _ _ sampleKey _
    (by decide) rfl).mpr (.inr ?_)
  have seen : Listed sampleKeySettings (some "203.0.113.9".toList) ["203.0.113.0/24".toList] := by
    unfold Listed
    decide +kernel
  have called : Listed sampleKeySettings (some "203.0.113.7".toList)
      ["203.0.113.0/24".toList] := by
    unfold Listed
    decide +kernel
  exact ⟨fun _ => called, fun _ => seen⟩

/-- A caller of the network is refused, and through a client API of the network any caller
passes. -/
theorem allowlist_not_enforced :
    ¬ AddressEnforced sampleKeySettings [sampleKey] ⟨some "172.18.0.5".toList, true, 0⟩
      (sampleRequest "203.0.113.7") ["203.0.113.0/24".toList] ∧
    ¬ AddressEnforced sampleKeySettings [sampleKey] ⟨some "203.0.113.9".toList, true, 0⟩
      (sampleRequest "198.51.100.1") ["203.0.113.0/24".toList] := by
  constructor
  · intro enforced
    have called : Listed sampleKeySettings (some "203.0.113.7".toList)
        ["203.0.113.0/24".toList] := by
      unfold Listed
      decide +kernel
    have otherwise : Passes sampleKeySettings (withoutAllowlist sampleKeySettings
        (sampleRequest "203.0.113.7").apiKey [sampleKey]) ⟨some "172.18.0.5".toList, true, 0⟩
        (sampleRequest "203.0.113.7") := ⟨⟨1, ["withdraw"], none, some 5⟩, by decide +kernel⟩
    obtain ⟨context, passed⟩ := enforced.admits called otherwise
    have refused : authenticateWithApiKey sampleKeySettings [sampleKey]
        ⟨some "172.18.0.5".toList, true, 0⟩ (sampleRequest "203.0.113.7") =
        .error .unauthorized := by decide +kernel
    rw [refused] at passed
    cases passed
  · intro enforced
    have passed : Passes sampleKeySettings [sampleKey] ⟨some "203.0.113.9".toList, true, 0⟩
        (sampleRequest "198.51.100.1") := ⟨⟨1, ["withdraw"], none, some 5⟩, by decide +kernel⟩
    have called := enforced.only passed
    unfold Listed at called
    have other : Cidr.matchesAllowlist sampleKeySettings.number (some "198.51.100.1".toList)
        (some ["203.0.113.0/24".toList]) = false := by decide +kernel
    exact absurd (other.symm.trans called) (by decide)

end CryptoVaultHub.ClientApi
