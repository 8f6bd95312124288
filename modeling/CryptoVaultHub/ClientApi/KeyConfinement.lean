import CryptoVaultHub.ClientApi.ApiKeyGuard
import CryptoVaultHub.CoreWallet.WithdrawalCreation

/-!
# The withdrawals of an API key

`POST /client/v1/withdrawals` passes the guards with the project of the key, and is handed to the
core wallet service with the client, the chain and the kind of wallet only, of which `wallets` has
one row. Neither the project nor the allowed chains of the key reach that row.
-/

namespace CryptoVaultHub.ClientApi

open Auth CoreWallet Withdrawal TransitionSystem List

/-! ## Requests -/

/-- A row of `wallets`; `(clientId, chainId, walletType)` is unique. -/
structure FundingWallet where
  clientId : Nat
  chainId : Nat
  walletType : SourceWallet
  record : SourceWalletRecord

/-- The keys, the wallets, and the withdrawals, each with the hash of the key that created it. -/
structure KeyState where
  keys : List ApiKey
  wallets : List FundingWallet
  withdrawals : List (Text × CreatedWithdrawal)

def KeyState.wallet? (state : KeyState) (clientId chainId : Nat) (walletType : SourceWallet) :
    Option FundingWallet :=
  state.wallets.find? fun wallet =>
    wallet.clientId = clientId ∧ wallet.chainId = chainId ∧ wallet.walletType = walletType

/-- `CreateWithdrawalDto`, as far as it is read. -/
structure CreateWithdrawalDto where
  chainId : Nat
  tokenSymbol : String
  toAddress : Text
  amount : String
  idempotencyKey : Option String
  sourceWallet : Option SourceWallet

/-- A request, and what the services answer on its way: the validation of its key, the limiter, the
project that `ProjectScopeGuard` resolves for a key without one, the deployment status of a project
on a chain, the identifiers of the token and of the address, and what the core wallet reads. -/
structure WithdrawalRequest where
  apiKey : Text
  ip : Option Text
  dto : CreateWithdrawalDto
  validation : Validation
  withinLimits : Bool
  resolvedProject : Option Nat
  ready : Nat → Nat → Bool
  tokenId : Nat → String → Option Nat
  toAddressId : Nat → Nat → Text → Option Nat
  generatedKey : String
  environment : CreationEnvironment

def WithdrawalRequest.source (request : WithdrawalRequest) : SourceWallet :=
  request.dto.sourceWallet.getD .hot

/-- The scope that the source of a withdrawal requires. -/
def requiredScope : SourceWallet → String
  | .hot => "withdrawals:hot"
  | .gasTank => "withdrawals:gas-tank"

/-- The guards of the handler, which leave the context of the request. -/
def WithdrawalRequest.guards (settings : KeySettings) (keys : List ApiKey)
    (request : WithdrawalRequest) : Option RequestContext := do
  let context ← (authenticateWithApiKey settings keys request.validation
    ⟨request.apiKey, request.ip, ["withdrawals:hot", "withdrawals:gas-tank"]⟩).toOption
  let projectId ← context.projectId.or request.resolvedProject
  if request.withinLimits && projectId ≠ 0 && request.dto.chainId ≠ 0 &&
      request.ready projectId request.dto.chainId then
    return { context with projectId := some projectId }
  else none

/-- What `WithdrawalService.createWithdrawal` posts. -/
def WithdrawalRequest.params (request : WithdrawalRequest) (clientId : Nat) :
    Option WithdrawalParams := do
  let tokenId ← request.tokenId request.dto.chainId request.dto.tokenSymbol
  let toAddressId ← request.toAddressId clientId request.dto.chainId request.dto.toAddress
  return {
    clientId := clientId
    chainId := request.dto.chainId
    tokenId := tokenId
    toAddressId := toAddressId
    amount := request.dto.amount
    idempotencyKey := request.dto.idempotencyKey.getD request.generatedKey
    sourceWallet := request.source }

/-- The withdrawals that a request creates. -/
def KeyState.createWithdrawal (settings : KeySettings) (state : KeyState)
    (request : WithdrawalRequest) : List CreatedWithdrawal :=
  match request.guards settings state.keys with
  | none => []
  | some context =>
    if (expandLegacyScopes context.scopes).contains (requiredScope request.source) then
      match request.params context.clientId with
      | none => []
      | some params =>
        let wallet := state.wallet? params.clientId params.chainId params.sourceWallet
        let environment :=
          { request.environment with wallet := wallet.map FundingWallet.record }
        (recordsAfter (CoreWallet.createWithdrawal environment params) ⟨[], [], []⟩).withdrawals
    else []

/-! ## Runs -/

inductive KeyAction where
  | createKey (key : ApiKey)
  | revokeKey (keyHash : Text)
  | insertWallet (wallet : FundingWallet)
  | request (request : WithdrawalRequest)

def KeyState.step (settings : KeySettings) (state : KeyState) : KeyAction → Option KeyState
  | .createKey key =>
    if state.keys.any fun other => other.keyHash = key.keyHash then none
    else some { state with keys := key :: state.keys }
  | .revokeKey keyHash =>
    some { state with
      keys := state.keys.map fun key =>
        if key.keyHash = keyHash then { key with isActive := false } else key }
  | .insertWallet wallet =>
    match state.wallet? wallet.clientId wallet.chainId wallet.walletType with
    | some _ => none
    | none => some { state with wallets := wallet :: state.wallets }
  | .request request =>
    some { state with
      withdrawals :=
        ((state.createWithdrawal settings request).map fun row =>
          (settings.sha256 request.apiKey, row)) ++ state.withdrawals }

/-- The keys of the clients, from none. -/
def keyService (settings : KeySettings) : TransitionSystem KeyState KeyAction where
  Initial state := state.keys = [] ∧ state.withdrawals = []
  step := KeyState.step settings

/-! ## Confinement -/

/-- The chains that a key may operate on; without a list, or with an empty one, all of them. -/
def Permits (key : ApiKey) (chainId : Nat) : Prop :=
  ∀ allowed ∈ key.allowedChains, allowed ≠ [] → chainId ∈ allowed

/-- The wallet that a withdrawal is debited from. -/
structure FundingWallet.Funds (wallet : FundingWallet) (row : CreatedWithdrawal) : Prop where
  clientId : wallet.clientId = row.clientId
  chainId : wallet.chainId = row.chainId
  walletType : wallet.walletType = row.sourceWallet
  address : wallet.record.address = row.fromWallet

/-- Every withdrawal that was not rejected is debited from a wallet of the project of the key that
created it, on a chain of that key. -/
def KeyState.Confined (state : KeyState) : Prop :=
  ∀ keyHash row, (keyHash, row) ∈ state.withdrawals → row.status ≠ .rejected →
    ∀ key ∈ state.keys, key.keyHash = keyHash →
      ∃ wallet ∈ state.wallets, wallet.Funds row ∧ wallet.record.projectId = key.projectId ∧
        Permits key wallet.chainId

/-- The condition on a request: its chain is one of its key, and the wallet that the client of the
key has on it belongs to the project of the key. -/
def KeyState.InBounds (settings : KeySettings) (state : KeyState) : KeyAction → Prop
  | .request request => ∀ key ∈ findApiKey settings state.keys request.apiKey,
      Permits key request.dto.chainId ∧
        ∀ wallet ∈ state.wallet? key.clientId request.dto.chainId request.source,
          wallet.record.projectId = key.projectId
  | .createKey _ | .revokeKey _ | .insertWallet _ => True

/-! ## What a request creates -/

variable {settings : KeySettings} {state after : KeyState}

theorem findApiKey_of_passes {keys : List ApiKey} {validation : Validation}
    {request : GuardRequest} {context : RequestContext}
    (passed : authenticateWithApiKey settings keys validation request = .ok context) :
    ∃ key ∈ findApiKey settings keys request.apiKey, context.clientId = key.clientId := by
  rw [authenticateWithApiKey] at passed
  split at passed
  · cases passed
  next answer validated =>
    rw [ApiKeyAuthGuard.validateApiKey] at validated
    split at validated
    · obtain ⟨key, found, rest⟩ := Option.bind_eq_some_iff.mp validated
      split at rest
      · obtain rfl : key.validation = answer := Option.some.inj rest
        refine ⟨key, found, ?_⟩
        cases checked : checkScopes request.requiredScopes key.validation.scopes with
        | error failure =>
          rw [checked] at passed
          cases passed
        | ok done =>
          rw [checked] at passed
          cases passed
          rfl
      · cases rest
    · cases validated

/-- What a request creates is rejected, or it is debited from the one wallet that the client of
the key has on the chain. -/
theorem createWithdrawal_funds {request : WithdrawalRequest} {row : CreatedWithdrawal}
    (member : row ∈ state.createWithdrawal settings request) :
    ∃ key ∈ findApiKey settings state.keys request.apiKey, row.status = .rejected ∨
      ∃ wallet ∈ state.wallet? key.clientId request.dto.chainId request.source,
        wallet.Funds row := by
  rw [KeyState.createWithdrawal] at member
  split at member
  · cases member
  next context guarded =>
    obtain ⟨authenticated, passed, rest⟩ := Option.bind_eq_some_iff.mp guarded
    have same : context.clientId = authenticated.clientId := by
      obtain ⟨projectId, _, rest⟩ := Option.bind_eq_some_iff.mp rest
      split at rest
      · cases rest
        rfl
      · cases rest
    have ran : authenticateWithApiKey settings state.keys request.validation
        ⟨request.apiKey, request.ip, ["withdrawals:hot", "withdrawals:gas-tank"]⟩ =
        .ok authenticated := by
      cases outcome : authenticateWithApiKey settings state.keys request.validation
        ⟨request.apiKey, request.ip, ["withdrawals:hot", "withdrawals:gas-tank"]⟩ with
      | error failure =>
        rw [outcome] at passed
        cases passed
      | ok found =>
        rw [outcome] at passed
        cases passed
        rfl
    obtain ⟨key, found, owner⟩ := findApiKey_of_passes ran
    refine ⟨key, found, ?_⟩
    split at member
    · split at member
      · cases member
      next params posted =>
        obtain ⟨tokenId, _, rest⟩ := Option.bind_eq_some_iff.mp posted
        obtain ⟨toAddressId, _, rest⟩ := Option.bind_eq_some_iff.mp rest
        cases rest
        rcases createWithdrawal_leaves row member with before | rejected | ⟨_, _, debits⟩
        · cases before
        · exact .inl rejected
        · obtain ⟨⟨record, found, address, _⟩, clientId, chainId, sourceWallet⟩ := debits
          obtain ⟨wallet, source, rfl⟩ := Option.map_eq_some_iff.mp found
          have selected := find?_some source
          simp only [Bool.decide_and, Bool.and_eq_true, decide_eq_true_eq] at selected
          obtain ⟨walletClient, walletChain, walletType⟩ := selected
          rw [same, owner] at source
          exact .inr ⟨wallet, source, ⟨walletClient.trans clientId.symm,
            walletChain.trans chainId.symm, walletType.trans sourceWallet.symm, address.symm⟩⟩
    · cases member

/-! ## Runs that stay in bounds -/

/-- The keys have different hashes, and the withdrawals have keys and are confined to them. -/
structure KeyState.Sound (state : KeyState) : Prop where
  unique : (state.keys.map ApiKey.keyHash).Nodup
  known : ∀ keyHash row, (keyHash, row) ∈ state.withdrawals →
    ∃ key ∈ state.keys, key.keyHash = keyHash
  confined : state.Confined

theorem KeyState.Sound.eq_of_hash (sound : state.Sound) {first second : ApiKey}
    (inside : first ∈ state.keys) (member : second ∈ state.keys)
    (same : first.keyHash = second.keyHash) : first = second :=
  inj_on_of_nodup_map sound.unique inside member same

theorem sound_createKey {key : ApiKey} (sound : state.Sound)
    (fresh : (state.keys.any fun other => other.keyHash = key.keyHash) = false) :
    KeyState.Sound { state with keys := key :: state.keys } := by
  have apart : ∀ other ∈ state.keys, other.keyHash ≠ key.keyHash := by
    intro other member
    simpa using any_eq_false.mp fresh other member
  refine ⟨nodup_cons.mpr ⟨?_, sound.unique⟩, ?_, ?_⟩
  · intro taken
    obtain ⟨other, member, same⟩ := mem_map.mp taken
    exact apart other member same
  · intro keyHash row member
    obtain ⟨other, inside, same⟩ := sound.known keyHash row member
    exact ⟨other, mem_cons_of_mem _ inside, same⟩
  · intro keyHash row member accepted other inside same
    rcases mem_cons.mp inside with rfl | earlier
    · obtain ⟨creator, created, hash⟩ := sound.known keyHash row member
      exact absurd (hash.trans same.symm) (apart creator created)
    · exact sound.confined keyHash row member accepted other earlier same

theorem sound_revokeKey {revoked : Text} (sound : state.Sound) :
    KeyState.Sound { state with
      keys := state.keys.map fun key =>
        if key.keyHash = revoked then { key with isActive := false } else key } := by
  have kept : ∀ key : ApiKey,
      (if key.keyHash = revoked then { key with isActive := false } else key).keyHash =
        key.keyHash := by
    intro key
    split <;> rfl
  refine ⟨?_, ?_, ?_⟩
  · have hashes : (ApiKey.keyHash ∘ fun key : ApiKey =>
        if key.keyHash = revoked then { key with isActive := false } else key) =
        ApiKey.keyHash := funext kept
    rw [map_map, hashes]
    exact sound.unique
  · intro keyHash row member
    obtain ⟨key, inside, same⟩ := sound.known keyHash row member
    exact ⟨_, mem_map_of_mem inside, (kept key).trans same⟩
  · intro keyHash row member accepted key inside same
    obtain ⟨original, earlier, rfl⟩ := mem_map.mp inside
    have confined := sound.confined keyHash row member accepted original earlier
      ((kept original).symm.trans same)
    split
    · exact confined
    · exact confined

theorem sound_insertWallet {wallet : FundingWallet} (sound : state.Sound) :
    KeyState.Sound { state with wallets := wallet :: state.wallets } := by
  refine ⟨sound.unique, sound.known, ?_⟩
  intro keyHash row member accepted key inside same
  obtain ⟨source, listed, funds⟩ := sound.confined keyHash row member accepted key inside same
  exact ⟨source, mem_cons_of_mem _ listed, funds⟩

theorem sound_request {request : WithdrawalRequest} (sound : state.Sound)
    (allowed : state.InBounds settings (.request request)) :
    KeyState.Sound { state with
      withdrawals :=
        ((state.createWithdrawal settings request).map fun row =>
          (settings.sha256 request.apiKey, row)) ++ state.withdrawals } := by
  have created : ∀ keyHash row,
      (keyHash, row) ∈ (state.createWithdrawal settings request).map (fun row =>
        (settings.sha256 request.apiKey, row)) → ∃ key ∈ state.keys, key.keyHash = keyHash ∧
          (row.status ≠ .rejected → ∃ wallet ∈ state.wallets, wallet.Funds row ∧
            wallet.record.projectId = key.projectId ∧ Permits key wallet.chainId) := by
    intro keyHash row member
    obtain ⟨other, inside, same⟩ := mem_map.mp member
    cases same
    obtain ⟨key, found, funded⟩ := createWithdrawal_funds inside
    have hash : key.keyHash = settings.sha256 request.apiKey := by
      simpa using find?_some found
    refine ⟨key, mem_of_find?_eq_some found, hash, fun accepted => ?_⟩
    obtain rejected | ⟨wallet, source, funds⟩ := funded
    · exact absurd rejected accepted
    · obtain ⟨permits, projects⟩ := allowed key found
      have selected := find?_some source
      simp only [Bool.decide_and, Bool.and_eq_true, decide_eq_true_eq] at selected
      refine ⟨wallet, mem_of_find?_eq_some source, funds, projects wallet source, ?_⟩
      rw [selected.2.1]
      exact permits
  refine ⟨sound.unique, ?_, ?_⟩
  · intro keyHash row member
    rcases mem_append.mp member with new | old
    · obtain ⟨key, inside, same, _⟩ := created keyHash row new
      exact ⟨key, inside, same⟩
    · exact sound.known keyHash row old
  · intro keyHash row member accepted key inside same
    rcases mem_append.mp member with new | old
    · obtain ⟨creator, listed, hash, funds⟩ := created keyHash row new
      obtain rfl := sound.eq_of_hash inside listed (same.trans hash.symm)
      exact funds accepted
    · exact sound.confined keyHash row old accepted key inside same

/-- In a run whose requests stay on the chains of their keys, where the wallet of the client
belongs to the project of the key, every withdrawal is confined to its key. -/
theorem keys_confined (settings : KeySettings)
    (reached : (keyService settings).Reachable (KeyState.InBounds settings) state) :
    state.Confined := by
  have sound : state.Sound := by
    refine reached.invariant ?_ ?_
    · rintro start ⟨noKeys, none⟩
      refine ⟨?_, ?_, ?_⟩
      · rw [noKeys]
        exact nodup_nil
      · simp [none]
      · intro keyHash row member
        rw [none] at member
        cases member
    · intro before action next holds allowed stepped
      cases action with
      | createKey key =>
        simp only [keyService, KeyState.step] at stepped
        split at stepped
        · cases stepped
        next fresh =>
          cases stepped
          exact sound_createKey holds (by simpa using fresh)
      | revokeKey keyHash =>
        cases stepped
        exact sound_revokeKey holds
      | insertWallet wallet =>
        simp only [keyService, KeyState.step] at stepped
        split at stepped
        · cases stepped
        · cases stepped
          exact sound_insertWallet holds
      | request request =>
        cases stepped
        exact sound_request holds allowed
  exact sound.confined

/-- A key of project 5 for the chain 1. -/
def confinedKey : ApiKey := ⟨"k".toList, 1, 5, ["withdraw"], none, some [1], true, none⟩

def sampleWithdrawal (chainId : Nat) : WithdrawalRequest where
  apiKey := "k".toList
  ip := none
  dto := ⟨chainId, "ETH", "D".toList, "5", some "key", none⟩
  validation := ⟨none, true, 0⟩
  withinLimits := true
  resolvedProject := none
  ready _ _ := true
  tokenId _ _ := some 1
  toAddressId _ _ _ := some 1
  generatedKey := "generated"
  environment :=
    { sampleCreation true with token := some ⟨true, chainId, true, 18⟩ }

/-- The hot wallet of the client on a chain, which a project has registered. -/
def sampleWallet (chainId projectId : Nat) : FundingWallet := ⟨1, chainId, .hot, ⟨['a'], projectId⟩⟩

/-- What a run with one key, one wallet and one request reaches. -/
def sampleKeyState (chainId projectId : Nat) : KeyState where
  keys := [confinedKey]
  wallets := [sampleWallet chainId projectId]
  withdrawals := (KeyState.createWithdrawal sampleKeySettings
    ⟨[confinedKey], [sampleWallet chainId projectId], []⟩ (sampleWithdrawal chainId)).map fun row =>
      ("k".toList, row)

theorem sampleKeyState_reached {Allowed : KeyState → KeyAction → Prop} (chainId projectId : Nat)
    (keys : Allowed ⟨[], [], []⟩ (.createKey confinedKey))
    (wallets : Allowed ⟨[confinedKey], [], []⟩ (.insertWallet (sampleWallet chainId projectId)))
    (requests : Allowed ⟨[confinedKey], [sampleWallet chainId projectId], []⟩
      (.request (sampleWithdrawal chainId))) :
    (keyService sampleKeySettings).Reachable Allowed (sampleKeyState chainId projectId) := by
  refine ⟨⟨[], [], []⟩, ⟨rfl, rfl⟩, ?_⟩
  refine .step (.step (.step .refl keys rfl) wallets rfl) requests ?_
  change some _ = some _
  rw [sampleKeyState, append_nil]
  rfl

/-- A request for the wallet of the key's project. -/
theorem keys_confined_sample :
    (sampleKeyState 1 5).withdrawals.length = 1 ∧ (sampleKeyState 1 5).Confined := by
  refine ⟨by decide +kernel, keys_confined sampleKeySettings ?_⟩
  refine sampleKeyState_reached 1 5 trivial trivial ?_
  intro key found
  obtain rfl : confinedKey = key := by
    have known : findApiKey sampleKeySettings [confinedKey] "k".toList = some confinedKey := by
      decide
    exact Option.some.inj (known.symm.trans found)
  constructor
  · rintro allowed ⟨⟩ _
    exact mem_singleton_self _
  · intro wallet source
    exact Option.some.inj source ▸ rfl

/-- A withdrawal from the wallet of project 7 on the chain 56, with a key of project 5 for
the chain 1. -/
theorem unconfined_withdrawal :
    ¬ ∀ (settings : KeySettings) (state : KeyState),
      (keyService settings).Reachable Unrestricted state → state.Confined := by
  intro always
  have confined := always sampleKeySettings (sampleKeyState 56 7)
    (sampleKeyState_reached 56 7 trivial trivial trivial)
  have created : (sampleKeyState 56 7).withdrawals =
      [("k".toList, ⟨1, 7, .hot, 56, 1, ['a'], 1, ['D'], "exchange", "5", 5, .pendingApproval, none,
        "key"⟩)] := by decide +kernel
  obtain ⟨wallet, listed, _, project, _⟩ := confined "k".toList _
    (by rw [created]; exact mem_singleton_self _) (by decide) confinedKey
    (mem_singleton_self _) rfl
  obtain rfl : wallet = sampleWallet 56 7 := mem_singleton.mp listed
  cases project

end CryptoVaultHub.ClientApi
