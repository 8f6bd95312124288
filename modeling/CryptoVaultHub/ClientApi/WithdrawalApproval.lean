import CryptoVaultHub.ClientApi.ApiKeyGuard
import CryptoVaultHub.EventBus.Delivery

/-!
# The approval of withdrawals by keys

The handler of `POST /client/v1/withdrawals/:id/approve` fetches the withdrawal to find out which
scope its source requires. The core wallet service answers with an object that has the withdrawal
as a property, and the handler looks for the source in the object itself.
-/

namespace CryptoVaultHub.ClientApi.WithdrawalApproval

open Auth EventBus

/-! ## The core wallet service -/

/-- A row of `withdrawals`. -/
structure WithdrawalRow where
  id : Nat
  clientId : Nat
  projectId : Nat
  sourceWallet : String
  chainId : Nat
  tokenId : Nat
  fromWallet : String
  toAddressId : Nat
  toAddress : String
  toLabel : String
  amount : String
  amountRaw : String
  txHash : Option String
  status : String
  sequenceId : Option Nat
  gasCost : Option String
  kytResult : Option String
  idempotencyKey : String
  createdAt : String
  submittedAt : Option String
  confirmedAt : Option String
deriving DecidableEq

def orNull {Value : Type} (json : Value → Json) (value : Option Value) : Json :=
  (value.map json).getD .null

def ofNat (value : Nat) : Json := .number value

/-- Without the token, as `getWithdrawal` and `approveWithdrawal` call it. -/
def formatWithdrawal (row : WithdrawalRow) : Json :=
  .object
    [("id", ofNat row.id), ("clientId", ofNat row.clientId), ("chainId", ofNat row.chainId),
      ("tokenId", ofNat row.tokenId), ("tokenSymbol", .null), ("tokenDecimals", .null),
      ("tokenAddress", .null), ("sourceWallet", .string row.sourceWallet),
      ("fromWallet", .string row.fromWallet), ("toAddressId", ofNat row.toAddressId),
      ("toAddress", .string row.toAddress), ("toLabel", .string row.toLabel),
      ("amount", .string row.amount), ("amountRaw", .string row.amountRaw),
      ("txHash", orNull .string row.txHash), ("status", .string row.status),
      ("sequenceId", orNull ofNat row.sequenceId), ("gasCost", orNull .string row.gasCost),
      ("kytResult", orNull .string row.kytResult),
      ("idempotencyKey", .string row.idempotencyKey), ("createdAt", .string row.createdAt),
      ("submittedAt", orNull .string row.submittedAt),
      ("confirmedAt", orNull .string row.confirmedAt)]

structure HttpFailure where
  status : Nat
  message : String
deriving DecidableEq

/-- What both controllers answer. -/
def withdrawalAnswer (row : WithdrawalRow) : Json :=
  .object [("success", .boolean true), ("withdrawal", formatWithdrawal row)]

def findWithdrawal (rows : List WithdrawalRow) (withdrawalId clientId : Nat) :
    Option WithdrawalRow :=
  rows.find? fun row => row.id = withdrawalId ∧ row.clientId = clientId

def Core.getWithdrawal (rows : List WithdrawalRow) (withdrawalId clientId : Nat) :
    Except HttpFailure Json :=
  match findWithdrawal rows withdrawalId clientId with
  | none => .error ⟨404, s!"Withdrawal {withdrawalId} not found"⟩
  | some withdrawal => .ok (withdrawalAnswer withdrawal)

/-- The custody of the project that is found, and how the creation of its co-sign operation ends. -/
structure CoSign where
  custodyMode : Option String
  createCoSignOperation : Except HttpFailure Unit

def Core.approveWithdrawal (rows : List WithdrawalRow) (coSign : CoSign)
    (withdrawalId clientId : Nat) : List WithdrawalRow × Except HttpFailure Json :=
  match findWithdrawal rows withdrawalId clientId with
  | none => (rows, .error ⟨404, s!"Withdrawal {withdrawalId} not found"⟩)
  | some withdrawal =>
    if withdrawal.status ≠ "pending_approval" then
      (rows, .error ⟨400,
        s!"Withdrawal {withdrawalId} cannot be approved (current status: {withdrawal.status})"⟩)
    else
      let approve (row : WithdrawalRow) : WithdrawalRow := { row with status := "approved" }
      (rows.map fun row => if row.id = withdrawalId then approve row else row,
        if coSign.custodyMode = some "co_sign" then
          coSign.createCoSignOperation.map fun _ => withdrawalAnswer (approve withdrawal)
        else .ok (withdrawalAnswer (approve withdrawal)))

/-! ## The client API -/

inductive ApprovalFailure where
  | guard (failure : GuardFailure)
  | tooManyRequests
  | forbidden (message : String)
  | http (failure : HttpFailure)
  | unavailable
deriving DecidableEq

/-- What `WithdrawalService` makes of an answer that arrives or does not. -/
def relay (delivered : Bool) (answer : Except HttpFailure Json) : Except ApprovalFailure Json :=
  if delivered then answer.mapError .http else .error .unavailable

/-- A property of an object. -/
def property? (key : String) : Json → Option Json
  | .object fields => Fields.get fields key
  | _ => none

/-- `withdrawal?.sourceWallet ?? 'hot'`, which is a text wherever there is one. -/
def sourceWallet (withdrawal : Json) : String :=
  match property? "sourceWallet" withdrawal with
  | some (.string value) => value
  | _ => "hot"

/-- The scope that a source requires. -/
def requiredScope (sourceWallet : String) : String :=
  if sourceWallet = "gas_tank" then "withdrawals:gas-tank" else "withdrawals:hot"

/-- A request with a key and an id, and what happens on its way: the validation of the key, the
rate limit, the rows that the two statements of the core wallet service find, whether its answers
arrive, and the custody of the project. -/
structure ApprovalCall where
  apiKey : Text
  ip : Option Text
  id : Nat
  validation : Validation
  withinLimits : Bool
  fetched : List WithdrawalRow
  fetchDelivered : Bool
  stored : List WithdrawalRow
  approveDelivered : Bool
  coSign : CoSign

def approvalScopes : List String := ["withdrawals:hot", "withdrawals:gas-tank"]

def ApprovalCall.guardRequest (call : ApprovalCall) : GuardRequest :=
  ⟨call.apiKey, call.ip, approvalScopes⟩

/-- The two guards. -/
def ApprovalCall.guards (settings : KeySettings) (keys : List ApiKey) (call : ApprovalCall) :
    Except ApprovalFailure RequestContext := do
  let context ← (authenticateWithApiKey settings keys call.validation
    call.guardRequest).mapError .guard
  if call.withinLimits then return context else throw .tooManyRequests

/-- The check of the handler, on the withdrawal that it has fetched. -/
def checkSource (context : RequestContext) (withdrawal : Json) : Except ApprovalFailure Unit :=
  let source := sourceWallet withdrawal
  let required := requiredScope source
  if (expandLegacyScopes context.scopes).contains required then .ok ()
  else .error (.forbidden
    s!"This key cannot approve a withdrawal from {source} (missing scope {required})")

/-- `{ success: true, ...result }`. -/
def success : Json → Json
  | .object fields =>
    .object (fields.foldl (fun all field => Fields.assign all field.1 field.2)
      [("success", .boolean true)])
  | _ => .object [("success", .boolean true)]

/-- `POST /client/v1/withdrawals/:id/approve`. -/
def approveWithdrawal (settings : KeySettings) (keys : List ApiKey) (call : ApprovalCall) :
    Except ApprovalFailure Json := do
  let context ← call.guards settings keys
  let withdrawal ← relay call.fetchDelivered
    (Core.getWithdrawal call.fetched call.id context.clientId)
  checkSource context withdrawal
  let result ← relay call.approveDelivered
    (Core.approveWithdrawal call.stored call.coSign call.id context.clientId).2
  return success result

/-! ## The claim on a call -/

/-- A refusal of the guard or of the handler for a missing scope. -/
def RefusedForScope (result : Except ApprovalFailure Json) : Prop :=
  (∃ scopes, result = .error (.guard (.forbidden scopes))) ∨
    ∃ message, result = .error (.forbidden message)

/-- A call succeeds only with the scope of the source of its withdrawal, and is not refused for its
scopes when the key has it. -/
structure ScopeExact (settings : KeySettings) (keys : List ApiKey) (call : ApprovalCall)
    (key : ApiKey) (row : WithdrawalRow) : Prop where
  only : ∀ result, approveWithdrawal settings keys call = .ok result →
    requiredScope row.sourceWallet ∈ expandLegacyScopes key.scopes
  admits : requiredScope row.sourceWallet ∈ expandLegacyScopes key.scopes →
    ¬ RefusedForScope (approveWithdrawal settings keys call)

/-- The key is valid, within its limits, and the withdrawal is fetched. -/
structure ApprovalCall.Reaches (settings : KeySettings) (call : ApprovalCall) (key : ApiKey) :
    Prop where
  delivered : call.validation.delivered = true
  current : key.current call.validation.now = true
  listed : Cidr.matchesAllowlist settings.number call.validation.ip key.ipAllowlist = true
  withinLimits : call.withinLimits = true
  fetchDelivered : call.fetchDelivered = true

/-- The core wallet service approves the withdrawal. -/
def ApprovalCall.Approves (call : ApprovalCall) (key : ApiKey) : Prop :=
  call.approveDelivered = true ∧
    ∃ answer, (Core.approveWithdrawal call.stored call.coSign call.id key.clientId).2 = .ok answer

section Calls

variable {settings : KeySettings} {keys : List ApiKey} {call : ApprovalCall} {key : ApiKey}
  {row : WithdrawalRow}

@[reducible] def hasScope (key : ApiKey) (scope : String) : Prop := scope ∈ expandLegacyScopes key.scopes

/-- The answer of the core wallet service has no source of its own. -/
theorem sourceWallet_answer (row : WithdrawalRow) : sourceWallet (withdrawalAnswer row) = "hot" :=
  rfl

/-- Every key with one of the scopes passes the first guard. -/
theorem checkScopes_approval (key : ApiKey) :
    checkScopes approvalScopes key.scopes =
      if hasScope key "withdrawals:hot" ∨ hasScope key "withdrawals:gas-tank" then .ok ()
      else .error (.forbidden approvalScopes) := by
  have any : (approvalScopes = [] ∨ approvalScopes.any fun scope =>
      (expandLegacyScopes key.scopes).contains scope) ↔
      hasScope key "withdrawals:hot" ∨ hasScope key "withdrawals:gas-tank" := by
    simp [approvalScopes, hasScope]
  by_cases either : hasScope key "withdrawals:hot" ∨ hasScope key "withdrawals:gas-tank"
  · rw [checkScopes, if_pos (any.mpr either), if_pos either]
  · rw [checkScopes, if_neg fun has => either (any.mp has), if_neg either]

theorem guards_of_valid (found : findApiKey settings keys call.apiKey = some key)
    (delivered : call.validation.delivered = true)
    (current : key.current call.validation.now = true)
    (listed : Cidr.matchesAllowlist settings.number call.validation.ip key.ipAllowlist = true) :
    call.guards settings keys =
      if hasScope key "withdrawals:hot" ∨ hasScope key "withdrawals:gas-tank" then
        if call.withinLimits then
          .ok ⟨key.clientId, key.scopes, key.allowedChains, key.validation.projectId⟩
        else .error .tooManyRequests
      else .error (.guard (.forbidden approvalScopes)) := by
  have validated : ApiKeyAuthGuard.validateApiKey settings keys call.validation call.apiKey
      call.ip = some key.validation := by
    simp [ApiKeyAuthGuard.validateApiKey, AuthController.validateApiKey, Auth.validateApiKey,
      delivered, found, current, listed]
  have scopes : key.validation.scopes = key.scopes := rfl
  simp only [ApprovalCall.guards, authenticateWithApiKey, ApprovalCall.guardRequest, validated]
  rw [scopes, checkScopes_approval]
  split <;> rfl

theorem guards_of_invalid (found : findApiKey settings keys call.apiKey = some key)
    (invalid : ¬ (call.validation.delivered = true ∧ key.current call.validation.now = true ∧
      Cidr.matchesAllowlist settings.number call.validation.ip key.ipAllowlist = true)) :
    call.guards settings keys = .error (.guard .unauthorized) := by
  have unvalidated : ApiKeyAuthGuard.validateApiKey settings keys call.validation call.apiKey
      call.ip = none := by
    simp only [ApiKeyAuthGuard.validateApiKey, AuthController.validateApiKey, Auth.validateApiKey,
      found, Option.bind_eq_bind, Option.bind_some]
    split
    · rename_i delivered
      split
      · rename_i both
        obtain ⟨current, listed⟩ := (Bool.and_eq_true _ _).mp both
        exact absurd ⟨delivered, current, listed⟩ invalid
      · rfl
    · rfl
  simp only [ApprovalCall.guards, authenticateWithApiKey, ApprovalCall.guardRequest, unvalidated]
  rfl

/-- What comes of a call that fetches a withdrawal. -/
theorem approveWithdrawal_of_reaches (found : findApiKey settings keys call.apiKey = some key)
    (fetched : findWithdrawal call.fetched call.id key.clientId = some row)
    (reaches : call.Reaches settings key) :
    approveWithdrawal settings keys call =
      if hasScope key "withdrawals:hot" then
        (relay call.approveDelivered
          (Core.approveWithdrawal call.stored call.coSign call.id key.clientId).2).map success
      else if hasScope key "withdrawals:gas-tank" then
        .error (.forbidden
          "This key cannot approve a withdrawal from hot (missing scope withdrawals:hot)")
      else .error (.guard (.forbidden approvalScopes)) := by
  have guarded := guards_of_valid found reaches.delivered reaches.current reaches.listed
  rw [if_pos reaches.withinLimits] at guarded
  have answered : relay call.fetchDelivered (Core.getWithdrawal call.fetched call.id key.clientId) =
      .ok (withdrawalAnswer row) := by
    simp [relay, reaches.fetchDelivered, Core.getWithdrawal, fetched, Except.mapError]
  by_cases hot : hasScope key "withdrawals:hot"
  · rw [if_pos (.inl hot)] at guarded
    have checked : checkSource ⟨key.clientId, key.scopes, key.allowedChains,
        key.validation.projectId⟩ (withdrawalAnswer row) = .ok () := by
      have scope : "withdrawals:hot" ∈ expandLegacyScopes key.scopes := hot
      simp [checkSource, sourceWallet_answer, requiredScope, scope]
    simp only [approveWithdrawal, guarded, bind, Except.bind, answered, checked, if_pos hot]
    cases relay call.approveDelivered
      (Core.approveWithdrawal call.stored call.coSign call.id key.clientId).2 <;> rfl
  · rw [if_neg hot]
    by_cases gasTank : hasScope key "withdrawals:gas-tank"
    · rw [if_pos (.inr gasTank)] at guarded
      have checked : checkSource ⟨key.clientId, key.scopes, key.allowedChains,
          key.validation.projectId⟩ (withdrawalAnswer row) = .error (.forbidden
            "This key cannot approve a withdrawal from hot (missing scope withdrawals:hot)") := by
        have scope : "withdrawals:hot" ∉ expandLegacyScopes key.scopes := hot
        simp only [checkSource, sourceWallet_answer, requiredScope, String.reduceEq, if_false,
          List.contains_eq_mem, scope, decide_false, Bool.false_eq_true]
        rfl
      simp only [approveWithdrawal, guarded, bind, Except.bind, answered, checked, if_pos gasTank]
    · rw [if_neg fun either => either.elim hot gasTank] at guarded
      simp only [approveWithdrawal, guarded, bind, Except.bind, if_neg gasTank]

/-- A call that does not fetch a withdrawal fails, and not for its scopes if the key has one. -/
theorem approveWithdrawal_of_not_reaches
    (found : findApiKey settings keys call.apiKey = some key)
    (stops : ¬ call.Reaches settings key) :
    ∃ failure, approveWithdrawal settings keys call = .error failure ∧
      ((hasScope key "withdrawals:hot" ∨ hasScope key "withdrawals:gas-tank") →
        ¬ RefusedForScope (.error failure)) := by
  have failed : ∀ failure : ApprovalFailure, call.guards settings keys = .error failure →
      approveWithdrawal settings keys call = .error failure := by
    intro failure guarded
    simp only [approveWithdrawal, guarded, bind, Except.bind]
  by_cases valid : call.validation.delivered = true ∧ key.current call.validation.now = true ∧
      Cidr.matchesAllowlist settings.number call.validation.ip key.ipAllowlist = true
  · obtain ⟨delivered, current, listed⟩ := valid
    have guarded := guards_of_valid found delivered current listed
    by_cases either : hasScope key "withdrawals:hot" ∨ hasScope key "withdrawals:gas-tank"
    · rw [if_pos either] at guarded
      by_cases limits : call.withinLimits = true
      · rw [if_pos limits] at guarded
        have lost : call.fetchDelivered = false := by
          rw [Bool.eq_false_iff]
          exact fun arrives => stops ⟨delivered, current, listed, limits, arrives⟩
        refine ⟨.unavailable, ?_, by simp [RefusedForScope]⟩
        simp only [approveWithdrawal, guarded, bind, Except.bind, relay, lost]
        rfl
      · rw [if_neg limits] at guarded
        exact ⟨_, failed _ guarded, by simp [RefusedForScope]⟩
    · rw [if_neg either] at guarded
      exact ⟨_, failed _ guarded, fun again => absurd again either⟩
  · exact ⟨_, failed _ (guards_of_invalid found valid), by simp [RefusedForScope]⟩

theorem relay_ok_iff {delivered : Bool} {answer : Except HttpFailure Json} :
    (∃ result, (relay delivered answer).map success = .ok result) ↔
      delivered = true ∧ ∃ value, answer = .ok value := by
  cases delivered with
  | false => simp [relay, Except.map]
  | true => cases answer <;> simp [relay, Except.map, Except.mapError]

/-- A call that fetches a withdrawal succeeds with the scope of the hot wallet. -/
theorem approveWithdrawal_ok_iff (found : findApiKey settings keys call.apiKey = some key)
    (fetched : findWithdrawal call.fetched call.id key.clientId = some row)
    (reaches : call.Reaches settings key) :
    (∃ result, approveWithdrawal settings keys call = .ok result) ↔
      hasScope key "withdrawals:hot" ∧ call.Approves key := by
  rw [approveWithdrawal_of_reaches found fetched reaches]
  by_cases hot : hasScope key "withdrawals:hot"
  · rw [if_pos hot, relay_ok_iff]
    exact (and_iff_right hot).symm
  · rw [if_neg hot]
    split <;> simp [hot]

/-- A call that fetches a withdrawal is refused without the scope of the hot wallet. -/
theorem approveWithdrawal_refused_iff (found : findApiKey settings keys call.apiKey = some key)
    (fetched : findWithdrawal call.fetched call.id key.clientId = some row)
    (reaches : call.Reaches settings key) :
    RefusedForScope (approveWithdrawal settings keys call) ↔ ¬ hasScope key "withdrawals:hot" := by
  rw [approveWithdrawal_of_reaches found fetched reaches]
  by_cases hot : hasScope key "withdrawals:hot"
  · rw [if_pos hot, iff_false_right (not_not.mpr hot)]
    cases call.approveDelivered with
    | false => simp [RefusedForScope, relay, Except.map]
    | true =>
      cases (Core.approveWithdrawal call.stored call.coSign call.id key.clientId).2 <;>
        simp [RefusedForScope, relay, Except.map, Except.mapError]
  · rw [if_neg hot]
    split <;> simp [RefusedForScope, hot]

end Calls

/-- The scopes of a key decide over its approvals as the source of the withdrawal requires exactly
if the withdrawal is not one of a gas tank, the key has both scopes or none, or the call does not
come to a decision: it is stopped before the withdrawal is fetched, or the core wallet service does
not approve it. -/
theorem scope_exact_iff {settings : KeySettings} {keys : List ApiKey} {call : ApprovalCall}
    {key : ApiKey} {row : WithdrawalRow}
    (found : findApiKey settings keys call.apiKey = some key)
    (fetched : findWithdrawal call.fetched call.id key.clientId = some row) :
    ScopeExact settings keys call key row ↔
      row.sourceWallet ≠ "gas_tank" ∨
        ("withdrawals:hot" ∈ expandLegacyScopes key.scopes ↔
          "withdrawals:gas-tank" ∈ expandLegacyScopes key.scopes) ∨
        ¬ call.Reaches settings key ∨
        ("withdrawals:hot" ∈ expandLegacyScopes key.scopes ∧ ¬ call.Approves key) := by
  by_cases reaches : call.Reaches settings key
  · have exact : ScopeExact settings keys call key row ↔
        ((hasScope key "withdrawals:hot" ∧ call.Approves key) →
            hasScope key (requiredScope row.sourceWallet)) ∧
          (hasScope key (requiredScope row.sourceWallet) → hasScope key "withdrawals:hot") := by
      rw [← approveWithdrawal_ok_iff found fetched reaches]
      constructor
      · rintro ⟨only, admits⟩
        refine ⟨fun ⟨result, ok⟩ => only result ok, fun has => ?_⟩
        by_contra lacks
        exact admits has ((approveWithdrawal_refused_iff found fetched reaches).mpr lacks)
      · rintro ⟨only, admits⟩
        refine ⟨fun result ok => only ⟨result, ok⟩, fun has refused => ?_⟩
        exact (approveWithdrawal_refused_iff found fetched reaches).mp refused (admits has)
    rw [exact, requiredScope]
    unfold hasScope
    by_cases gasTank : row.sourceWallet = "gas_tank"
    · rw [if_pos gasTank]
      tauto
    · rw [if_neg gasTank]
      tauto
  · obtain ⟨failure, failed, other⟩ := approveWithdrawal_of_not_reaches found reaches
    refine ⟨fun _ => .inr (.inr (.inl reaches)), fun _ => ⟨?_, ?_⟩⟩
    · intro result ok
      rw [failed] at ok
      cases ok
    · intro has
      rw [failed]
      apply other
      rw [requiredScope] at has
      split at has
      · exact .inr has
      · exact .inl has

/-- A withdrawal from the gas tank of the client 1. -/
def sampleRow : WithdrawalRow where
  id := 7
  clientId := 1
  projectId := 5
  sourceWallet := "gas_tank"
  chainId := 137
  tokenId := 3
  fromWallet := "0x01"
  toAddressId := 2
  toAddress := "0x02"
  toLabel := "treasury"
  amount := "1"
  amountRaw := "1000000000000000000"
  txHash := none
  status := "pending_approval"
  sequenceId := none
  gasCost := none
  kytResult := none
  idempotencyKey := "k1"
  createdAt := "2026-04-14T12:00:00.000Z"
  submittedAt := none
  confirmedAt := none

def keyWith (scopes : List String) : ApiKey :=
  { sampleKey with scopes := scopes, ipAllowlist := none }

/-- Every answer arrives. -/
def sampleCall : ApprovalCall :=
  ⟨"k".toList, none, 7, ⟨none, true, 0⟩, true, [sampleRow], true, [sampleRow], true,
    ⟨none, .ok ()⟩⟩

theorem sampleCall_reaches (scopes : List String) :
    sampleCall.Reaches sampleKeySettings (keyWith scopes) :=
  ⟨rfl, rfl, rfl, rfl, rfl⟩

theorem findApiKey_keyWith (scopes : List String) :
    findApiKey sampleKeySettings [keyWith scopes] sampleCall.apiKey = some (keyWith scopes) := rfl

theorem findWithdrawal_keyWith (scopes : List String) :
    findWithdrawal sampleCall.fetched sampleCall.id (keyWith scopes).clientId = some sampleRow := by
  simp [findWithdrawal, sampleCall, sampleRow, keyWith, sampleKey]

/-- The macro stands for both scopes. -/
theorem scope_exact_iff_sample :
    ScopeExact sampleKeySettings [keyWith ["withdraw"]] sampleCall (keyWith ["withdraw"])
      sampleRow := by
  refine (@scope_exact_iff sampleKeySettings [keyWith ["withdraw"]] sampleCall
    (keyWith ["withdraw"]) sampleRow (findApiKey_keyWith _) (findWithdrawal_keyWith _)).mpr
      (.inr (.inl ?_))
  decide +kernel

/-- With the scope of the hot wallet alone, a key approves a withdrawal from the gas tank; with the
scope of the gas tank alone, it is refused for the other one. -/
theorem scope_not_exact :
    ¬ ScopeExact sampleKeySettings [keyWith ["withdrawals:hot"]] sampleCall
        (keyWith ["withdrawals:hot"]) sampleRow ∧
      ¬ ScopeExact sampleKeySettings [keyWith ["withdrawals:gas-tank"]] sampleCall
        (keyWith ["withdrawals:gas-tank"]) sampleRow := by
  constructor
  · intro exact
    obtain ⟨result, approved⟩ : ∃ result, approveWithdrawal sampleKeySettings
        [keyWith ["withdrawals:hot"]] sampleCall = .ok result :=
      (approveWithdrawal_ok_iff (findApiKey_keyWith _) (findWithdrawal_keyWith _)
        (sampleCall_reaches _)).mpr
        ⟨by decide +kernel, rfl, withdrawalAnswer { sampleRow with status := "approved" }, rfl⟩
    have has := exact.only result approved
    revert has
    decide +kernel
  · intro exact
    refine exact.admits (by decide +kernel) ?_
    refine (approveWithdrawal_refused_iff (findApiKey_keyWith _)
      (findWithdrawal_keyWith _) (sampleCall_reaches _)).mpr ?_
    decide +kernel

end CryptoVaultHub.ClientApi.WithdrawalApproval
