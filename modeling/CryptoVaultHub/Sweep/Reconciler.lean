import CryptoVaultHub.Sweep.Execution

/-!
# The receipt reconciler and the pool of both services

`reconcileBatch` closes the `submitted` rows of the gas tank whose transactions have a receipt or
are past their age, and brings the deposits of a mined transaction to `swept` or `sweep_failed`.
Runs of `executeSweep` and passes of the reconciler overlap as they like, and each can stop
anywhere.
-/

namespace CryptoVaultHub.Sweep

/-- `BATCH_SIZE` of the reconciler. -/
def reconcileBatchSize : Nat := 50

/-- A row of the gas tank in a batch. -/
structure BatchRow where
  id : Nat
  txHash : TxHash
deriving DecidableEq

/-- The deposits of a mined transaction while the balances of its forwarder are read: the tokens
that have a row, the ids of the deposits that can be cascaded, and their tokens. -/
structure Cascade where
  hash : TxHash
  pending : List Listed
  tokens : List Token
  safe : List Nat
  cascaded : List TokenId
deriving DecidableEq

/-- The points of `reconcileBatch`; each has the rest of the batch. -/
inductive ReconcilePoint where
  | findRows
  | getReceipt (row : BatchRow) (rest : List BatchRow)
  | timeOut (row : BatchRow) (rest : List BatchRow)
  | close (row : BatchRow) (ok : Bool) (rest : List BatchRow)
  | cascadeFailed (hash : TxHash) (rest : List BatchRow)
  | findPending (hash : TxHash) (rest : List BatchRow)
  | findTokens (hash : TxHash) (pending : List Listed) (rest : List BatchRow)
  | readBalance (cascade : Cascade) (token : Token) (others : List TokenId) (rest : List BatchRow)
  | cascadeSwept (cascade : Cascade) (rest : List BatchRow)
  | adoptOrphans (cascade : Cascade) (rest : List BatchRow)
deriving DecidableEq

/-- The rows of a batch. -/
def Shared.batch (shared : Shared) (isOld : Nat → Bool) : List BatchRow :=
  ((shared.gasTank.zipIdx.filter fun row => row.1.status = .submitted && isOld row.2).map fun row =>
    ⟨row.2, row.1.txHash⟩).take reconcileBatchSize

def ReconcilePoint.nextRow : List BatchRow → Option ReconcilePoint
  | [] => none
  | row :: rest => some (.getReceipt row rest)

/-- The forwarder of the first deposit. -/
def Cascade.forwarder (cascade : Cascade) : Address :=
  (cascade.pending.head?.map fun row => row.deposit.forwarderAddress).getD 0

/-- The ids of the deposits of a token. -/
def Cascade.idsOf (cascade : Cascade) (tokenId : TokenId) : List Nat :=
  (cascade.pending.filter fun row => row.deposit.tokenId = tokenId).map Listed.id

/-- What follows the balances. -/
def Cascade.finish (cascade : Cascade) (rest : List BatchRow) : Option ReconcilePoint :=
  if cascade.safe = [] then ReconcilePoint.nextRow rest else some (.cascadeSwept cascade rest)

/-- The next token with a row; the deposits of the others stay. -/
def Cascade.nextToken (cascade : Cascade) (rest : List BatchRow) :
    List TokenId → Option ReconcilePoint
  | [] => cascade.finish rest
  | tokenId :: others =>
    match cascade.tokens.find? fun token => token.id = tokenId with
    | none => cascade.nextToken rest others
    | some token => some (.readBalance cascade token others rest)

def pendingTokenIds (pending : List Listed) : List TokenId :=
  (pending.map fun row => row.deposit.tokenId).eraseDups

/-- `reconcileBatch`. -/
def ReconcilePoint.statement (shared : Shared) (point : ReconcilePoint) (answer : Answer) :
    Statement Shared ReconcilePoint :=
  match point with
  | .findRows => { after := shared, next := nextRow (shared.batch answer.isOld) }
  | .getReceipt row rest =>
    { after := shared
      next :=
        match if answer.knowsReceipt then shared.receipt? row.txHash else none with
        | none => if answer.pastAge then some (.timeOut row rest) else nextRow rest
        | some ok => some (.close row ok rest)
      thrown := nextRow rest }
  | .timeOut row rest =>
    { after := shared.closeGasTank row.id .failed, next := nextRow rest, thrown := nextRow rest }
  | .close row ok rest =>
    { after := shared.closeGasTank row.id (if ok then .confirmed else .failed)
      next := some (if ok then .findPending row.txHash rest else .cascadeFailed row.txHash rest)
      thrown := nextRow rest }
  | .cascadeFailed hash rest =>
    { after := shared.updateDeposits
        (fun _ row => row.sweepTxHash = some hash && row.status = .sweepPending)
        fun row => { row with status := .sweepFailed }
      next := nextRow rest
      thrown := nextRow rest }
  | .findPending hash rest =>
    let pending := shared.select fun row =>
      row.sweepTxHash = some hash && row.status = .sweepPending
    { after := shared
      next := if pending = [] then nextRow rest else some (.findTokens hash pending rest)
      thrown := nextRow rest }
  | .findTokens hash pending rest =>
    { after := shared
      next := Cascade.nextToken ⟨hash, pending, answer.tokens, [], []⟩ rest
        (pendingTokenIds pending)
      thrown := nextRow rest }
  | .readBalance cascade token others rest =>
    { after := shared
      next :=
        if shared.balance cascade.forwarder token.id = 0 then
          Cascade.nextToken
            { cascade with
              safe := cascade.safe ++ cascade.idsOf token.id
              cascaded := cascade.cascaded ++ [token.id] } rest others
        else cascade.nextToken rest others
      thrown := cascade.nextToken rest others }
  | .cascadeSwept cascade rest =>
    { after := shared.updateDeposits
        (fun id row => id ∈ cascade.safe && row.status = .sweepPending)
        fun row => { row with status := .swept }
      next := some (.adoptOrphans cascade rest)
      thrown := nextRow rest }
  | .adoptOrphans cascade rest =>
    { after := shared.updateDeposits
        (fun _ row => row.forwarderAddress = cascade.forwarder &&
          row.tokenId ∈ cascade.cascaded && row.status.isOpen)
        fun row => { row with status := .swept, sweepTxHash := some cascade.hash }
      next := nextRow rest
      thrown := nextRow rest }

/-! ## The pool -/

inductive Process where
  | sweep (sweeper : Sweeper)
  | reconcile (point : ReconcilePoint)
deriving DecidableEq

def Process.statement (shared : Shared) (process : Process) (answer : Answer) :
    Statement Shared Process :=
  match process with
  | .sweep sweeper => (sweeper.statement shared answer).map .sweep
  | .reconcile point => (point.statement shared answer).map .reconcile

/-- What begins a process or happens to what the services share: a lock expires, a forwarder is
deployed, something is paid to a forwarder or reverted, a transaction is mined, and a row of an
inflow is inserted and followed by the confirmation tracker. -/
inductive Start where
  | sweep (clientId : ClientId)
  | reconcile
  | expireLock (clientId : ClientId)
  | deploy (forwarder : Address)
  | pay (forwarder : Address) (tokenId : TokenId) (amount : Nat)
  | revert (inflow : Nat)
  | mine (hash : TxHash) (ok : Bool)
  | insert (clientId : ClientId) (projectId : Nat) (inflow : Nat)
  | track (id : Nat) (status : DepositStatus)

def Shared.start (shared : Shared) : Start → Option (Shared × Option Process)
  | .sweep clientId =>
    some ({ shared with drawn := shared.drawn + 1 },
      some (.sweep ⟨clientId, shared.drawn, .setLock⟩))
  | .reconcile => some (shared, some (.reconcile .findRows))
  | .expireLock clientId =>
    some ({ shared with locks := shared.locks.filter fun lock => lock.1 ≠ clientId }, none)
  | .deploy forwarder => some ({ shared with deployed := forwarder :: shared.deployed }, none)
  | .pay forwarder tokenId amount =>
    if positive : 0 < amount then
      some ({ shared with
        inflows := shared.inflows ++ [⟨forwarder, tokenId, amount, positive, .held⟩] }, none)
    else none
  | .revert inflow =>
    if shared.holds inflow then
      some ({ shared with
        inflows := shared.inflows.modify inflow fun inflow =>
          { inflow with place := .reverted } }, none)
    else none
  | .mine hash ok => (shared.mine hash ok).map fun after => (after, none)
  | .insert clientId projectId inflow =>
    (shared.inflows[inflow]?).map fun found =>
      ({ shared with
        deposits := shared.deposits ++
          [⟨clientId, projectId, inflow, found.forwarderAddress, found.tokenId, .pending, none,
            false⟩] }, none)
  | .track id status =>
    if status = .confirming ∨ status = .confirmed ∨ status = .reverted then
      some (shared.updateDeposits (fun other row => other = id && row.status.isUnconfirmed)
        fun row =>
          { row with status := status, wasConfirmed := row.wasConfirmed || status = .confirmed },
        none)
    else none

/-- Nothing was paid or sent yet. -/
def Shared.Initial (shared : Shared) : Prop :=
  shared.inflows = [] ∧ shared.sent = [] ∧ shared.mined = [] ∧ shared.deposits = [] ∧
    shared.gasTank = [] ∧ shared.locks = []

def services : ProcessPool Shared Process (Input Answer) Start :=
  .ofStatements Shared.Initial Process.statement Shared.start

abbrev State := PoolState Shared Process

abbrev Action := PoolAction (Input Answer) Start

end CryptoVaultHub.Sweep
