import CryptoVaultHub.Withdrawal.StatusMachine

/-!
# Withdrawals from a gas tank

The gas tank of one client on one chain, beside the services that move withdrawals: its balance,
from which every transaction it signs is paid, and the configured amount of a top-up, of which two
are reserved. `createWithdrawal` checks a request against the balance that it reads, and inserts the
row some statements later; nothing counts the withdrawals that are already waiting.

Rejected requests have no row of the gas tank.
-/

namespace CryptoVaultHub.Withdrawal

open List

/-! ## Model -/

/-- The owner of a gas tank. -/
structure TankOwner where
  clientId : ClientId
  chainId : ChainId

/-- The tank pays for a request. -/
def TankOwner.Pays (owner : TankOwner) (request : Request) : Prop :=
  request.sourceWallet = .gasTank ∧ request.clientId = owner.clientId ∧
    request.chainId = owner.chainId

instance (owner : TankOwner) : DecidablePred owner.Pays := fun _ =>
  inferInstanceAs (Decidable (_ ∧ _))

/-- The records, the balance of the tank, and the column of its chain. -/
structure GasTank where
  records : Shared
  onChainBalance : Nat
  platformTopupAmountWei : Option Nat

namespace GasTank

/-- The amount that the check of a request reserves, with its fallback. -/
def reserved (tank : GasTank) : Nat := tank.platformTopupAmountWei.getD 10000000000000000 * 2

def availableAfterReserve (tank : GasTank) : Nat := tank.onChainBalance - tank.reserved

/-- What a row takes of the tank: its amount, until its status is final. -/
def share (owner : TankOwner) (row : WithdrawalRow) : Nat :=
  if owner.Pays row.request ∧ row.status.final = false then row.request.amountRaw else 0

/-- The amounts of the withdrawals from the tank that are not final. -/
def outstanding (owner : TankOwner) (tank : GasTank) : Nat :=
  (tank.records.withdrawals.map (share owner)).sum

/-- The tank can pay for them. -/
def Covered (owner : TankOwner) (tank : GasTank) : Prop :=
  tank.outstanding owner ≤ tank.availableAfterReserve

end GasTank

/-- `createWithdrawal` for a gas tank, from the read of its balance on. -/
inductive CreatePoint where
  | balance
  | reserve (onChainBalance : Nat)
  | insert (availableAfterReserve : Nat)

inductive TankProcess where
  | create (request : Request) (point : CreatePoint)
  | service (process : Process)

/-- A call of the services, a request, and what changes the tank from outside. -/
inductive TankStart where
  | service (begun : Start)
  | createWithdrawal (request : Request)
  | spend (amount : Nat)
  | fund (amount : Nat)
  | configure (platformTopupAmountWei : Option Nat)

section Model

variable (owner : TankOwner) (settings : Settings)

/-- The row of a request; its id is new. -/
def GasTank.insert (tank : GasTank) (request : Request) : GasTank :=
  if (tank.records.find? request.id).isSome then tank
  else
    { tank with
      records := { tank.records with
        withdrawals := tank.records.withdrawals ++ [⟨request, .pendingApproval, none, none⟩] } }

def createGasTankWithdrawal (tank : GasTank) (request : Request) (outcome : Outcome) :
    CreatePoint → GasTank × Option TankProcess
  | .balance =>
    (tank, if outcome = .done then some (.create request (.reserve tank.onChainBalance))
      else none)
  | .reserve onChainBalance =>
    let availableAfterReserve := onChainBalance - tank.reserved
    (tank, if outcome = .done ∧ request.amountRaw ≤ availableAfterReserve then
        some (.create request (.insert availableAfterReserve))
      else none)
  | .insert _ => (if outcome = .failed then tank else tank.insert request, none)

def TankProcess.next (tank : GasTank) (input : Input) :
    TankProcess → Option (GasTank × Option TankProcess)
  | .create request point => some (createGasTankWithdrawal tank request input.outcome point)
  | .service process =>
    ((services settings).next tank.records process input).map fun (records, process) =>
      ({ tank with records := records }, process.map .service)

/-- A row of the tank is inserted by `createWithdrawal` only. -/
def TankStart.insertsRow : TankStart → Bool
  | .service (.create request _) => owner.Pays request
  | _ => false

def GasTank.start (tank : GasTank) (begun : TankStart) :
    Option (GasTank × Option TankProcess) :=
  match begun with
  | .service begun =>
    if (TankStart.service begun).insertsRow owner then none
    else
      ((services settings).start tank.records begun).map fun (records, process) =>
        ({ tank with records := records }, process.map .service)
  | .createWithdrawal request =>
    if owner.Pays request ∧ 0 < request.amountRaw then
      some (tank, some (.create request .balance))
    else none
  | .spend amount =>
    some ({ tank with onChainBalance := tank.onChainBalance - amount }, none)
  | .fund amount => some ({ tank with onChainBalance := tank.onChainBalance + amount }, none)
  | .configure amount => some ({ tank with platformTopupAmountWei := amount }, none)

end Model

abbrev TankState := PoolState GasTank TankProcess

abbrev TankAction := PoolAction Input TankStart

/-! ## The condition -/

section Condition

variable (owner : TankOwner) (settings : Settings)

/-- A new row has room beside those that are waiting, and so has one that an update takes back
from its final status. -/
def TankProcess.Fits (tank : GasTank) (input : Input) : TankProcess → Prop
  | .create request (.insert _) => tank.records.find? request.id = none →
      tank.outstanding owner + request.amountRaw ≤ tank.availableAfterReserve
  | .create _ _ => True
  | .service process =>
    match (process.step settings tank.records input.answer).write with
    | .setStatus id status expected => status.final = false →
        ∀ row ∈ tank.records.find? id, row.matches expected = true → row.status.final = true →
          owner.Pays row.request →
            tank.outstanding owner + row.request.amountRaw ≤ tank.availableAfterReserve
    | _ => True

/-- What is waiting keeps its room when something is paid from the tank, or another amount is
configured. -/
def TankState.Fits (state : TankState) : TankAction → Prop
  | .advance pid input => input.outcome ≠ .failed →
      ∀ process ∈ state.process? pid, process.Fits owner settings state.shared input
  | .launch (.spend amount) =>
    state.shared.outstanding owner ≤
      state.shared.onChainBalance - amount - state.shared.reserved
  | .launch (.configure amount) =>
    state.shared.outstanding owner ≤
      state.shared.onChainBalance - amount.getD 10000000000000000 * 2
  | _ => True

end Condition

/-! ## What a statement changes -/

section Sums

variable {owner : TankOwner}

variable {row : WithdrawalRow} {change : WithdrawalRow → WithdrawalRow}

/-- No two withdrawals have one id. -/
def Shared.Distinct (shared : Shared) : Prop :=
  (shared.withdrawals.map fun row => row.request.id).Nodup

variable {shared : Shared} {id : WithdrawalId}

/-- What is outstanding in some records. -/
def Shared.outstanding (owner : TankOwner) (shared : Shared) : Nat :=
  (shared.withdrawals.map (GasTank.share owner)).sum

theorem Shared.outstanding_append (shared : Shared) (row : WithdrawalRow) :
    Shared.outstanding owner { shared with withdrawals := shared.withdrawals ++ [row] } =
      shared.outstanding owner + GasTank.share owner row := by
  simp [Shared.outstanding]

end Sums

/-! ## Steps -/

section Steps

variable {owner : TankOwner} {settings : Settings} {tank : GasTank}

variable {input : Input}

/-- Only a new request adds a row. -/
theorem start_rows {shared after : Shared} {begun : Start} {later : Option Process}
    (started : start shared begun = some (after, later)) :
    (∃ request isRejected status, begun = .create request isRejected ∧
        shared.find? request.id = none ∧
        after.withdrawals = shared.withdrawals ++ [⟨request, status, none, none⟩]) ∨
      after.withdrawals = shared.withdrawals := by
  cases begun with
  | create request isRejected =>
    simp only [start] at started
    split at started
    · cases started
    · rename_i absent
      cases started
      exact .inl ⟨request, isRejected, _, rfl, by simpa using absent, rfl⟩
  | execute job | confirm job =>
    simp only [start] at started
    split at started
    · split at started
      · cases started
        exact .inr rfl
      · cases started
    · cases started
  | approve | cancel | submit | expireStale | poll | promote | promoteConfirm | stall
  | stallConfirm | stallOut | stallOutConfirm =>
    cases started
    exact .inr rfl

variable {process : TankProcess} {after : GasTank} {later : Option TankProcess}

end Steps

/-! ## Runs -/

section Runs

variable {owner : TankOwner} {settings : Settings} {state : TankState}

end Runs

/-! ## Requests for one tank -/

instance (owner : TankOwner) (settings : Settings) (tank : GasTank) (input : Input)
    (process : TankProcess) : Decidable (process.Fits owner settings tank input) := by
  unfold TankProcess.Fits
  split
  · infer_instance
  · infer_instance
  · split <;> infer_instance

instance (owner : TankOwner) (settings : Settings) (state : TankState) :
    DecidablePred (state.Fits owner settings) := fun action => by
  unfold TankState.Fits
  split <;> infer_instance

end CryptoVaultHub.Withdrawal
