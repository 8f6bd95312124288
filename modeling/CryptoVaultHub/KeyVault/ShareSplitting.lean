import CryptoVaultHub.KeyVault.EncryptedRecords

/-!
# Splitting a backup key

A split looks for shares of its client and project, reads the backup key, splits it, and inserts one
row for each share. Only the insertions of rows with a project can meet a unique key. Any number of
splits run at once, and any statement of them can fail.
-/

namespace CryptoVaultHub.KeyVault.Shamir

open Vault

/-- `secrets.share`, from a secret, the number of shares, the threshold and what it draws. -/
structure SecretSharing where
  share : Bytes → Nat → Nat → Nat → Option (List Bytes)
  length_share : ∀ {secret numShares threshold entropy shares},
    share secret numShares threshold entropy = some shares → shares.length = numShares

/-! ## Rows -/

/-- The client and the project, if any, that shares are for. -/
abbrev Scope := ClientId × Option ProjectId

/-- A row of `shamir_shares`. -/
structure ShamirShare where
  clientId : ClientId
  projectId : Option ProjectId
  shareIndex : Nat
  custodian : String
  payload : EncryptedPayload
deriving DecidableEq

def ShamirShare.scope (row : ShamirShare) : Scope := (row.clientId, row.projectId)

/-- `uq_client_project_share`, which does not bind rows without a project. -/
def ShamirShare.conflicts (row other : ShamirShare) : Bool :=
  row.projectId.isSome && row.scope = other.scope && row.shareIndex = other.shareIndex

/-- What a `TINYINT` and a `VARCHAR(50)` can hold. -/
def ShamirShare.fits (row : ShamirShare) : Bool :=
  row.shareIndex ≤ 127 && row.custodian.length ≤ 50

/-- The derived keys and the shares. -/
structure Store where
  keys : List Record
  shares : List ShamirShare

namespace Store

def sharesOf (store : Store) (scope : Scope) : List ShamirShare :=
  store.shares.filter fun row => row.scope = scope

def accepts (store : Store) (row : ShamirShare) : Bool :=
  row.fits && !store.shares.any row.conflicts

def create (store : Store) (row : ShamirShare) : Store :=
  { store with shares := store.shares ++ [row] }

end Store

/-! ## Splits -/

/-- The arguments of `splitBackupKey`, with a custodian for each share. -/
structure Split extends Vault.Split where
  custodians : List String

def defaultTotalShares : Nat := 5

def defaultThreshold : Nat := 3

def defaultCustodians : List String :=
  ["company_vault", "ceo_safe", "cto_safe", "legal_escrow", "bank_safe_deposit"]

namespace Split

/-- A split with the default arguments. -/
def default (clientId : ClientId) (projectId : Option ProjectId) : Split :=
  { clientId := clientId
    projectId := projectId
    totalShares := defaultTotalShares
    threshold := defaultThreshold
    custodians := defaultCustodians }

def scope (split : Split) : Scope := (split.clientId, split.projectId)

/-- The arguments that are not refused. -/
def accepted (split : Split) : Bool :=
  split.threshold ≤ split.totalShares && split.custodians.length = split.totalShares

/-- The row of a share. -/
def row (settings : Vault.Settings) (split : Split) (shares : List Bytes) (index : Nat)
    (random : RandomBytes) : Option ShamirShare := do
  let share ← shares[index]?
  let custodian ← split.custodians[index]?
  let payload ← encryptWithPassword settings.crypto settings.kdfIterations share
    settings.masterPassword random
  return {
    clientId := split.clientId
    projectId := split.projectId
    shareIndex := index + 1
    custodian := custodian
    payload := payload }

end Split

/-- The points of `splitBackupKey`. -/
inductive SplitPoint where
  | checkShares (split : Split)
  | findBackupKey (split : Split)
  | createShare (split : Split) (shares : List Bytes) (index : Nat)

/-- Which of several keys is found, what `secrets.share` draws, and the random values of an
encryption. -/
structure Answer where
  chosen : Nat
  entropy : Nat
  random : RandomBytes

namespace SplitPoint

/-- The loop over the shares. -/
def nextShare (split : Split) (shares : List Bytes) (index : Nat) : Option SplitPoint :=
  if index < shares.length then some (.createShare split shares index) else none

/-- A statement of `splitBackupKey`. Every error ends the request. -/
def statement (settings : Vault.Settings) (sharing : SecretSharing) (store : Store)
    (point : SplitPoint) (answer : Answer) : Statement Store SplitPoint :=
  match point with
  | .checkShares split =>
    { after := store
      next := if store.sharesOf split.scope = [] then some (.findBackupKey split) else none }
  | .findBackupKey split =>
    { after := store
      next := do
        let key ← (store.keys.filter split.isBackupKey)[answer.chosen]?
        let privateKey ← key.decrypt settings settings.masterPassword
        let shares ← sharing.share privateKey split.totalShares split.threshold answer.entropy
        nextShare split shares 0 }
  | .createShare split shares index =>
    match (split.row settings shares index answer.random).filter store.accepts with
    | none => { after := store, next := none }
    | some row => { after := store.create row, next := nextShare split shares (index + 1) }

end SplitPoint

/-! ## The pool -/

/-- A request begins, or other requests change the keys. -/
inductive Start where
  | splitBackupKey (split : Split)
  | changeKeys (keys : List Record)

def Store.start (store : Store) : Start → Option (Store × Option SplitPoint)
  | .splitBackupKey split => some (store, if split.accepted then some (.checkShares split) else none)
  | .changeKeys keys => some ({ store with keys := keys }, none)

/-- No share is stored yet. -/
def Store.Initial (store : Store) : Prop := store.shares = []

def splits (settings : Vault.Settings) (sharing : SecretSharing) :
    ProcessPool Store SplitPoint (Input Answer) Start :=
  .ofStatements Store.Initial (SplitPoint.statement settings sharing) Store.start

abbrev State := PoolState Store SplitPoint

abbrev Action := PoolAction (Input Answer) Start

/-! ## The property -/

/-- The rows of shares, from the first one on. -/
def Split.Wrote (settings : Vault.Settings) (split : Split) (shares : List Bytes)
    (rows : List ShamirShare) : Prop :=
  ∀ index row, rows[index]? = some row → ∃ random, split.row settings shares index random = some row

/-- All rows of one split of one secret. -/
def Complete (settings : Vault.Settings) (sharing : SecretSharing) (scope : Scope)
    (rows : List ShamirShare) : Prop :=
  ∃ (split : Split) (secret : Bytes) (entropy : Nat) (shares : List Bytes),
    split.scope = scope ∧
      sharing.share secret split.totalShares split.threshold entropy = some shares ∧
      rows.length = split.totalShares ∧ split.Wrote settings shares rows

/-- A split that has inserted its first row and not yet its last one. -/
def SplitPoint.inserts (scope : Scope) : SplitPoint → Bool
  | .createShare split _ index => split.scope = scope && 0 < index
  | .checkShares _ | .findBackupKey _ => false

/-- Where no split is inserting rows, there is none or a complete set. -/
def State.Whole (settings : Vault.Settings) (sharing : SecretSharing) (state : State) : Prop :=
  ∀ scope, ¬ state.Runs (fun point => point.inserts scope = true) →
    state.shared.sharesOf scope = [] ∨
      Complete settings sharing scope (state.shared.sharesOf scope)

/-! ## The condition -/

/-- A statement inserts its row and returns, except after the last row; or nothing was inserted
before. The first row without a project goes only where there is none. -/
def SplitPoint.proceeds (settings : Vault.Settings) (store : Store) (input : Input Answer) :
    SplitPoint → Bool
  | .createShare split shares index =>
    if input.ending ≠ .failed ∧
        ((split.row settings shares index input.answer.random).filter store.accepts).isSome then
      (0 < index || split.projectId.isSome || store.sharesOf split.scope = []) &&
        (input.ending = .done || index + 1 = shares.length)
    else index = 0
  | .checkShares _ | .findBackupKey _ => true

/-- A split does not stop between its first row and its last one. -/
def SplitPoint.mayStop : SplitPoint → Bool
  | .createShare _ _ index => index = 0
  | .checkShares _ | .findBackupKey _ => true

/-- The condition on the actions. -/
def State.orderly (settings : Vault.Settings) (state : State) : Action → Bool
  | .advance pid input =>
    (state.process? pid).all fun point => point.proceeds settings state.shared input
  | .crash pid => (state.process? pid).all SplitPoint.mayStop
  | .launch _ => true

@[reducible] def State.Orderly (settings : Vault.Settings) (state : State) (action : Action) : Prop :=
  State.orderly settings state action = true

end CryptoVaultHub.KeyVault.Shamir
