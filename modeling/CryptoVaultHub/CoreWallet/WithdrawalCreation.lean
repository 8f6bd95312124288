import CryptoVaultHub.CoreWallet.TraceCoverage

/-!
# The creation of withdrawals

`createWithdrawal`, with its checks in source order. Whatever its database and its chain answer,
a row it inserts is rejected or its destination has been screened (`createWithdrawal_leaves`);
`screenWithdrawal_ok` says what a completed screening has established.
-/

namespace CryptoVaultHub.CoreWallet

open Semantics Withdrawal

/-! ## Model -/

structure WhitelistedAddress where
  address : AddressText
  label : String
  isActive : Bool
  cooldownEndsAt : Option Nat

structure Token where
  isActive : Bool
  chainId : Nat
  isNative : Bool
  decimals : Nat

structure SourceWalletRecord where
  address : AddressText
  projectId : Nat

inductive CreationStatement where
  | existing
  | whitelisted
  | defaultProject
  | insertRejected
  | token
  | wallet
  | balance
  | chain
  | insert
deriving DecidableEq

/-- What `createWithdrawal` reads, and how its statements end. -/
structure CreationEnvironment where
  compliance : ComplianceEnvironment
  ending : CreationStatement → Ending
  existing : Option CreatedWithdrawal
  whitelisted : Option WhitelistedAddress
  now : Nat
  defaultProject : Option Nat
  token : Option Token
  wallet : Option SourceWalletRecord
  parseUnits : String → Nat → Option Int
  nativeBalance : Nat
  tokenBalance : Nat
  platformTopupAmountWei : Option Nat

structure WithdrawalParams where
  clientId : Nat
  chainId : Nat
  tokenId : Nat
  toAddressId : Nat
  amount : String
  idempotencyKey : String
  sourceWallet : SourceWallet

structure CreationResult where
  withdrawal : CreatedWithdrawal
  isIdempotent : Bool

def check (condition : Prop) [Decidable condition] (failure : Failure) : Service Unit :=
  if condition then pure () else throw failure

def insertWithdrawal (ending : Ending) (row : CreatedWithdrawal) : Service CreationResult := do
  write ending fun records => { records with withdrawals := row :: records.withdrawals }
  return ⟨row, false⟩

/-- The rejected row for a destination that is listed. -/
def rejectWithdrawal (environment : CreationEnvironment) (params : WithdrawalParams)
    (whitelisted : WhitelistedAddress) : Service CreationResult := do
  let project ← read (environment.ending .defaultProject) environment.defaultProject
  insertWithdrawal (environment.ending .insertRejected)
    { clientId := params.clientId
      projectId := project.getD 0
      sourceWallet := .hot
      chainId := params.chainId
      tokenId := params.tokenId
      fromWallet := []
      toAddressId := params.toAddressId
      toAddress := whitelisted.address
      toLabel := whitelisted.label
      amount := params.amount
      amountRaw := 0
      status := .rejected
      kytResult := some .hit
      idempotencyKey := params.idempotencyKey }

/-- The check of the balance; a gas tank keeps a reserve of two top-ups. -/
def checkBalance (environment : CreationEnvironment) (params : WithdrawalParams) (token : Token)
    (amountRaw : Nat) : Service Unit := do
  let onChainBalance :=
    if params.sourceWallet = .gasTank ∨ token.isNative then environment.nativeBalance
    else environment.tokenBalance
  check (environment.ending .balance = .done) .serviceUnavailable
  if params.sourceWallet = .gasTank then
    let topup ← read (environment.ending .chain) environment.platformTopupAmountWei
    let reserved := topup.getD 10000000000000000 * 2
    check (amountRaw ≤ onChainBalance - reserved) .unprocessable
  else check (amountRaw ≤ onChainBalance) .badRequest

/-- What follows the screening of a destination that is not listed. -/
def acceptWithdrawal (environment : CreationEnvironment) (params : WithdrawalParams)
    (whitelisted : WhitelistedAddress) : Service CreationResult := do
  match ← read (environment.ending .token) environment.token with
  | none => throw .notFound
  | some token =>
    check token.isActive .notFound
    check (token.chainId = params.chainId) .badRequest
    check (params.sourceWallet = .hot ∨ token.isNative) .unprocessable
    match ← read (environment.ending .wallet) environment.wallet with
    | none => throw .notFound
    | some wallet =>
      match environment.parseUnits params.amount token.decimals with
      | none => throw .badRequest
      | some amountParsed =>
        check (0 < amountParsed) .badRequest
        checkBalance environment params token amountParsed.toNat
        insertWithdrawal (environment.ending .insert)
          { clientId := params.clientId
            projectId := wallet.projectId
            sourceWallet := params.sourceWallet
            chainId := params.chainId
            tokenId := params.tokenId
            fromWallet := wallet.address
            toAddressId := params.toAddressId
            toAddress := whitelisted.address
            toLabel := whitelisted.label
            amount := params.amount
            amountRaw := amountParsed.toNat
            status := .pendingApproval
            kytResult := none
            idempotencyKey := params.idempotencyKey }

def createWithdrawal (environment : CreationEnvironment) (params : WithdrawalParams) :
    Service CreationResult := do
  match ← read (environment.ending .existing) environment.existing with
  | some existing => return ⟨existing, true⟩
  | none =>
    match ← read (environment.ending .whitelisted) environment.whitelisted with
    | none => throw .notFound
    | some whitelisted =>
      check whitelisted.isActive .badRequest
      check (∀ cooldownEndsAt ∈ whitelisted.cooldownEndsAt,
        cooldownEndsAt ≤ environment.now) .badRequest
      let screeningResult ← screenWithdrawal environment.compliance params.clientId
        whitelisted.address none
      if screeningResult.result = .hit then rejectWithdrawal environment params whitelisted
      else acceptWithdrawal environment params whitelisted

/-! ## Services -/

theorem bind_ok {α β : Type} {first : Service α} {rest : α → Service β} {before after : Records}
    {result : β} : (first >>= rest) before = .ok result after ↔
      ∃ value middle, first before = .ok value middle ∧ rest value middle = .ok result after := by
  change EStateM.bind first rest before = _ ↔ _
  rw [EStateM.bind]
  cases first before <;> simp

theorem pure_ok {α : Type} {value result : α} {before after : Records} :
    (pure value : Service α) before = .ok result after ↔ value = result ∧ before = after := by
  change EStateM.Result.ok value before = _ ↔ _
  rw [EStateM.Result.ok.injEq]

theorem throw_ok {α : Type} {failure : Failure} {result : α} {before after : Records} :
    ¬ (throw failure : Service α) before = .ok result after := (nomatch ·)

theorem read_ok {α : Type} {ending : Ending} {answer result : α} {before after : Records} :
    read ending answer before = .ok result after ↔
      ending = .done ∧ answer = result ∧ before = after := by
  rw [read]
  split
  · rename_i done
    simp [pure_ok, done]
  · rename_i failed
    simp [throw_ok, failed]

/-- The records that a service leaves, also when it throws. -/
def recordsAfter {α : Type} (service : Service α) (before : Records) : Records :=
  match service before with
  | .ok _ after => after
  | .error _ after => after

/-- Every withdrawal that a service inserts has a property. -/
def Leaves {α : Type} (property : CreatedWithdrawal → Prop) (service : Service α)
    (before : Records) : Prop :=
  ∀ row ∈ (recordsAfter service before).withdrawals, row ∈ before.withdrawals ∨ property row

namespace Leaves

variable {α β : Type} {property : CreatedWithdrawal → Prop} {before : Records}

/-- A service that changes no withdrawals. -/
theorem of_eq {service : Service α}
    (same : (recordsAfter service before).withdrawals = before.withdrawals) :
    Leaves property service before := by
  intro row member
  rw [same] at member
  exact .inl member

theorem bind {first : Service α} {rest : α → Service β} (left : Leaves property first before)
    (right : ∀ value middle, first before = .ok value middle →
      Leaves property (rest value) middle) : Leaves property (first >>= rest) before := by
  intro row member
  change row ∈ (recordsAfter (EStateM.bind first rest) before).withdrawals at member
  rw [recordsAfter, EStateM.bind] at member
  cases ran : first before with
  | ok value middle =>
    rw [ran] at member
    rcases right value middle ran row member with earlier | holds
    · refine left row ?_
      rw [recordsAfter, ran]
      exact earlier
    · exact .inr holds
  | error failure middle =>
    rw [ran] at member
    refine left row ?_
    rw [recordsAfter, ran]
    exact member

theorem pure {value : α} : Leaves property (Pure.pure value : Service α) before := of_eq rfl

theorem throw {failure : Failure} :
    Leaves property (MonadExcept.throw failure : Service α) before := of_eq rfl

theorem read {ending : Ending} {answer : α} :
    Leaves property (CoreWallet.read ending answer) before := by
  rw [CoreWallet.read]
  split
  · exact pure
  · exact throw

theorem check {condition : Prop} [Decidable condition] {failure : Failure} :
    Leaves property (CoreWallet.check condition failure) before := by
  rw [CoreWallet.check]
  split
  · exact pure
  · exact throw

theorem write {ending : Ending} {change : Records → Records}
    (new : ∀ row ∈ (change before).withdrawals, row ∈ before.withdrawals ∨ property row) :
    Leaves property (CoreWallet.write ending change) before := by
  intro row member
  cases ending with
  | done | lost => exact new row member
  | failed => exact .inl member

theorem tryCatch {service : Service α} {handler : Failure → Service α}
    (left : Leaves property service before)
    (right : ∀ failure middle, service before = .error failure middle →
      Leaves property (handler failure) middle) :
    Leaves property (MonadExcept.tryCatch service handler) before := by
  intro row member
  change row ∈ (recordsAfter (EStateM.tryCatch service handler) before).withdrawals at member
  rw [recordsAfter, EStateM.tryCatch] at member
  cases ran : service before with
  | ok value middle =>
    rw [ran] at member
    refine left row ?_
    rw [recordsAfter, ran]
    exact member
  | error failure middle =>
    rw [ran] at member
    rcases right failure middle ran row member with earlier | holds
    · refine left row ?_
      rw [recordsAfter, ran]
      exact earlier
    · exact .inr holds

end Leaves

/-! ## What a screening establishes -/

variable {compliance : ComplianceEnvironment} {before after : Records}

variable {property : CreatedWithdrawal → Prop}

theorem saveScreeningResult_leaves {record : Nat → ScreeningRecord} :
    Leaves property (saveScreeningResult compliance record) before :=
  Leaves.write fun _ member => .inl member

theorem createAlert_leaves {ending : Ending} {alert : ComplianceAlert} :
    Leaves property (createAlert ending alert) before :=
  Leaves.write fun _ member => .inl member

variable {input : ScreeningInput}

theorem screenAddress_leaves : Leaves property (screenAddress compliance input) before := by
  refine Leaves.bind Leaves.read ?_
  intro client middle _
  cases client with
  | none => exact Leaves.throw
  | some kytLevel =>
    dsimp only
    split
    · exact Leaves.bind saveScreeningResult_leaves fun _ _ _ => Leaves.pure
    · refine Leaves.bind Leaves.read fun _ _ _ => Leaves.bind ?_ fun _ _ _ =>
        Leaves.bind saveScreeningResult_leaves fun _ _ _ => Leaves.pure
      rw [alertMatches]
      split
      · exact Leaves.pure
      · exact createAlert_leaves

theorem screenTraced_leaves {alertType : String} :
    Leaves property (screenTraced compliance input alertType) before := by
  refine Leaves.bind screenAddress_leaves fun _ _ _ => Leaves.bind Leaves.read fun _ _ _ => ?_
  split
  · refine Leaves.tryCatch ?_ fun _ _ _ => Leaves.pure
    dsimp only
    split
    · exact Leaves.bind createAlert_leaves fun _ _ _ => Leaves.pure
    · exact Leaves.pure
  · exact Leaves.pure

/-- A direct screening that completes has looked the address up on the lists of the level. -/
theorem screenAddress_ok {output : ScreeningOutput}
    (ran : screenAddress compliance input before = .ok output after) :
    ∃ kytLevel, compliance.client = some kytLevel ∧
      (output.result = .clear ∧ output.action = .allowed ∧
          compliance.matchesOf kytLevel.lists (toLowerCase input.address) = [] ∨
        output.result = .hit ∧ output.action = .blocked) := by
  rw [screenAddress, bind_ok] at ran
  obtain ⟨client, _, answered, ran⟩ := ran
  obtain ⟨_, rfl, _⟩ := read_ok.mp answered
  cases found : compliance.client with
  | none =>
    rw [found] at ran
    exact absurd ran throw_ok
  | some kytLevel =>
    rw [found] at ran
    refine ⟨kytLevel, rfl, ?_⟩
    dsimp only at ran
    split at ran
    · rename_i noLists
      rw [bind_ok] at ran
      obtain ⟨_, _, _, ran⟩ := ran
      obtain ⟨rfl, _⟩ := pure_ok.mp ran
      exact .inl ⟨rfl, rfl, by simp [ComplianceEnvironment.matchesOf, noLists]⟩
    · simp only [bind_ok, pure_ok, read_ok] at ran
      obtain ⟨details, _, ⟨_, rfl, _⟩, _, _, _, _, _, _, rfl, _⟩ := ran
      split
      · rename_i none
        exact .inl ⟨rfl, rfl, List.map_eq_nil_iff.mp none⟩
      · exact .inr ⟨rfl, rfl⟩

/-- A screening that completes and does not hit has found nothing on the lists of the level;
if it ends with `allowed` at the level `full`, the trace has flagged nothing, unless the
alert failed. -/
theorem screenTraced_ok {alertType : String} {output : ScreeningOutput}
    (ran : screenTraced compliance input alertType before = .ok output after)
    (accepted : output.result ≠ .hit) :
    ∃ kytLevel, compliance.client = some kytLevel ∧
      compliance.matchesOf kytLevel.lists (toLowerCase input.address) = [] ∧
      (output.action = .allowed → compliance.clientAgain = some .full →
        compliance.ending .traceAlert = .done →
          (traceAddressHops compliance input.address 3 KytLevel.full.lists).flaggedAddresses =
            []) := by
  rw [screenTraced, bind_ok] at ran
  obtain ⟨baseResult, _, screened, ran⟩ := ran
  obtain ⟨kytLevel, found, direct⟩ := screenAddress_ok screened
  rw [bind_ok] at ran
  obtain ⟨clientAgain, middle, answered, ran⟩ := ran
  obtain ⟨_, rfl, _⟩ := read_ok.mp answered
  refine ⟨kytLevel, found, ?_⟩
  split at ran
  · rename_i traced
    rcases direct with ⟨_, _, none⟩ | ⟨hit, _⟩
    · refine ⟨none, ?_⟩
      intro allowed _ alerted
      by_contra flagged
      rw [if_pos flagged, alerted] at ran
      obtain ⟨rfl, _⟩ := EStateM.Result.ok.inj ran
      cases allowed
    · rw [hit] at traced
      exact absurd traced.2 (by decide)
  · rename_i untraced
    obtain ⟨rfl, _⟩ := pure_ok.mp ran
    rcases direct with ⟨clear, _, none⟩ | ⟨hit, _⟩
    · exact ⟨none, fun _ full _ => absurd ⟨full, clear⟩ untraced⟩
    · exact absurd hit accepted

/-! ## What enters the pipeline -/

/-- The destination of the row has passed the direct screening, and the traced one as far as
nothing disturbs it. -/
def Screened (environment : CreationEnvironment) (params : WithdrawalParams)
    (row : CreatedWithdrawal) : Prop :=
  ∃ output before after kytLevel,
    screenWithdrawal environment.compliance params.clientId row.toAddress none before =
      .ok output after ∧
    environment.compliance.client = some kytLevel ∧
    environment.compliance.matchesOf kytLevel.lists (toLowerCase row.toAddress) = [] ∧
    (output.action = .allowed → environment.compliance.clientAgain = some .full →
      environment.compliance.ending .traceAlert = .done →
      environment.compliance.Undisturbed (toLowerCase row.toAddress) 3 →
      environment.compliance.LowerCase →
      ∀ target ∈ withinHops (Linked environment.compliance.transfers)
        (toLowerCase row.toAddress) 3, target ≠ toLowerCase row.toAddress →
        environment.compliance.matchesOf KytLevel.full.lists target = [])

theorem insertWithdrawal_leaves {ending : Ending} {row : CreatedWithdrawal} (holds : property row) :
    Leaves property (insertWithdrawal ending row) before := by
  refine Leaves.bind (Leaves.write ?_) fun _ _ _ => Leaves.pure
  intro other member
  rcases List.mem_cons.mp member with rfl | earlier
  · exact .inr holds
  · exact .inl earlier

variable {environment : CreationEnvironment} {params : WithdrawalParams}

theorem checkBalance_leaves {token : Token} {amountRaw : Nat} :
    Leaves property (checkBalance environment params token amountRaw) before := by
  refine Leaves.bind Leaves.check fun _ _ _ => ?_
  split
  · exact Leaves.bind Leaves.read fun _ _ _ => Leaves.check
  · exact Leaves.check

/-- The row is debited from the wallet that was found for the request. -/
structure Debits (environment : CreationEnvironment) (params : WithdrawalParams)
    (row : CreatedWithdrawal) : Prop where
  wallet : ∃ wallet, environment.wallet = some wallet ∧ row.fromWallet = wallet.address ∧
    row.projectId = wallet.projectId
  clientId : row.clientId = params.clientId
  chainId : row.chainId = params.chainId
  sourceWallet : row.sourceWallet = params.sourceWallet

/-- The only row that is inserted after the screening is for the screened destination. -/
theorem acceptWithdrawal_leaves {whitelisted : WhitelistedAddress}
    (holds : ∀ row : CreatedWithdrawal, row.toAddress = whitelisted.address →
      row.status = .pendingApproval → Debits environment params row → property row) :
    Leaves property (acceptWithdrawal environment params whitelisted) before := by
  refine Leaves.bind Leaves.read fun token _ _ => ?_
  cases token with
  | none => exact Leaves.throw
  | some token =>
    refine Leaves.bind Leaves.check fun _ _ _ => Leaves.bind Leaves.check fun _ _ _ =>
      Leaves.bind Leaves.check fun _ _ _ => Leaves.bind Leaves.read fun found _ answered => ?_
    obtain ⟨_, wallets, _⟩ := read_ok.mp answered
    cases found with
    | none => exact Leaves.throw
    | some wallet =>
      dsimp only
      split
      · exact Leaves.throw
      · exact Leaves.bind Leaves.check fun _ _ _ => Leaves.bind checkBalance_leaves
          fun _ _ _ => insertWithdrawal_leaves
            (holds _ rfl rfl ⟨⟨wallet, wallets, rfl, rfl⟩, rfl, rfl, rfl⟩)

theorem createWithdrawal_leaves :
    Leaves (fun row => row.status = .rejected ∨
        row.status = .pendingApproval ∧ Screened environment params row ∧
          Debits environment params row)
      (createWithdrawal environment params) before := by
  refine Leaves.bind Leaves.read fun existing _ _ => ?_
  cases existing with
  | some existing => exact Leaves.pure
  | none =>
    refine Leaves.bind Leaves.read fun whitelisted _ _ => ?_
    cases whitelisted with
    | none => exact Leaves.throw
    | some whitelisted =>
      refine Leaves.bind Leaves.check fun _ _ _ => Leaves.bind Leaves.check
        fun _ start _ => Leaves.bind screenTraced_leaves fun output screenedAt screened => ?_
      split
      · exact Leaves.bind Leaves.read fun _ _ _ => insertWithdrawal_leaves (.inl rfl)
      · rename_i accepted
        obtain ⟨kytLevel, found, direct, traced⟩ := screenTraced_ok screened accepted
        refine acceptWithdrawal_leaves ?_
        intro row destination status debits
        refine .inr ⟨status, ⟨output, start, screenedAt, kytLevel, ?_⟩, debits⟩
        rw [destination]
        refine ⟨screened, found, direct, ?_⟩
        intro allowed full alerted undisturbed lower target within other
        exact clear_of_not_flagged undisturbed lower (traced allowed full alerted) within other

/-- A destination that has sent something to a listed address, for a client at level `full`;
the query of the first hop can fail. -/
def sampleCompliance (queryFails : Bool) : ComplianceEnvironment where
  ending statement := if queryFails ∧ statement = .events 1 then .failed else .done
  client := some .full
  clientAgain := some .full
  project := some 7
  sanctions := [⟨"OFAC_SDN", ['e'], none, none, true⟩]
  transfers := [⟨some ['d'], some ['e']⟩]
  select _ rows := distinctRows rows
  select_distinct _ rows := distinctRows_isDistinct rows
  late _ := false
  lateScreening _ := false

def sampleCreation (queryFails : Bool) : CreationEnvironment where
  compliance := sampleCompliance queryFails
  ending _ := .done
  existing := none
  whitelisted := some ⟨['D'], "exchange", true, none⟩
  now := 100
  defaultProject := some 7
  token := some ⟨true, 1, true, 18⟩
  wallet := some ⟨['a'], 7⟩
  parseUnits _ _ := some 5
  nativeBalance := 5
  tokenBalance := 0
  platformTopupAmountWei := none

def sampleParams : WithdrawalParams := ⟨1, 1, 1, 1, "5", "key", .hot⟩

def sampleRow : CreatedWithdrawal :=
  ⟨1, 7, .hot, 1, 1, ['a'], 1, ['D'], "exchange", "5", 5, .pendingApproval, none, "key"⟩

end CryptoVaultHub.CoreWallet
