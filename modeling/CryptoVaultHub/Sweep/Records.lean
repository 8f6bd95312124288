import CryptoVaultHub.Semantics.Statement

/-!
# Deposits and sweep transactions

What the sweep service and the receipt reconciler share: the forwarders and the transactions of one
chain, the rows of `deposits` and of `gas_tank_transactions`, and the locks in Redis. The id of a
row is its position.

A deposit records the inflow that it was made for, a transaction the deposits and the run that it
was sent for, and a row whether it was ever confirmed; no statement reads that.
-/

namespace CryptoVaultHub.Sweep

abbrev Address := Nat
abbrev TxHash := Nat
abbrev TokenId := Nat
abbrev ClientId := Nat

/-! ## The chain -/

/-- Where an inflow is: on its forwarder, with its parent wallet by some transaction, or, after a
reorganisation, nowhere. -/
inductive Place where
  | held
  | moved (sweep : TxHash)
  | reverted
deriving DecidableEq

structure Inflow where
  forwarderAddress : Address
  tokenId : TokenId
  amount : Nat
  positive : 0 < amount
  place : Place
deriving DecidableEq

/-- A broadcast flush of some tokens of a forwarder, and the status in its receipt. -/
structure SweepTx where
  hash : TxHash
  forwarderAddress : Address
  tokenIds : List TokenId
  depositIds : List Nat
  lockValue : Nat
  receipt : Option Bool
deriving DecidableEq

/-- A transaction empties its forwarder of its tokens. -/
def SweepTx.flushes (tx : SweepTx) (inflow : Inflow) : Bool :=
  inflow.place = .held && inflow.forwarderAddress = tx.forwarderAddress &&
    inflow.tokenId ∈ tx.tokenIds

def SweepTx.flush (tx : SweepTx) (inflow : Inflow) : Inflow :=
  if tx.flushes inflow then { inflow with place := .moved tx.hash } else inflow

/-! ## The tables -/

inductive DepositStatus where
  | pending
  | detected
  | confirming
  | confirmed
  | reverted
  | sweepPending
  | sweepFailed
  | swept
deriving DecidableEq

/-- The statuses that the confirmation tracker changes. -/
def DepositStatus.isUnconfirmed : DepositStatus → Bool
  | .pending | .detected | .confirming => true
  | .confirmed | .reverted | .sweepPending | .sweepFailed | .swept => false

/-- The statuses that the orphan pass changes. -/
def DepositStatus.isOpen : DepositStatus → Bool
  | .pending | .detected | .confirming | .confirmed => true
  | .reverted | .sweepPending | .sweepFailed | .swept => false

structure Deposit where
  clientId : ClientId
  projectId : Nat
  inflow : Nat
  forwarderAddress : Address
  tokenId : TokenId
  status : DepositStatus
  sweepTxHash : Option TxHash
  wasConfirmed : Bool
deriving DecidableEq

/-- The columns that no statement changes. -/
def Deposit.SameRecord (row other : Deposit) : Prop :=
  row.clientId = other.clientId ∧ row.inflow = other.inflow ∧
    row.forwarderAddress = other.forwarderAddress ∧ row.tokenId = other.tokenId

/-- A row of a query, with its id. -/
structure Listed where
  id : Nat
  deposit : Deposit
deriving DecidableEq

inductive GasTankStatus where
  | submitted
  | confirmed
  | failed
deriving DecidableEq

/-- A row of `gas_tank_transactions` of a sweep. -/
structure GasTankRow where
  txHash : TxHash
  status : GasTankStatus
deriving DecidableEq

structure Token where
  id : TokenId
  isNative : Bool
deriving DecidableEq

/-! ## The shared state -/

/-- The chain, the tables and the keys `sweep:lock:<chain>:<client>`. A lock value is drawn at
random; its model is the number of values drawn before. `mined` has the successful transactions,
the last one first. -/
structure Shared where
  inflows : List Inflow
  deployed : List Address
  sent : List SweepTx
  mined : List TxHash
  deposits : List Deposit
  gasTank : List GasTankRow
  locks : List (ClientId × Nat)
  drawn : Nat
deriving DecidableEq

/-- The balance of a forwarder. -/
def Shared.balance (shared : Shared) (forwarder : Address) (tokenId : TokenId) : Nat :=
  ((shared.inflows.filter fun inflow => inflow.place = .held &&
    inflow.forwarderAddress = forwarder && inflow.tokenId = tokenId).map Inflow.amount).sum

/-- The inflow is still on its forwarder. -/
def Shared.holds (shared : Shared) (inflow : Nat) : Bool :=
  (shared.inflows[inflow]?).any fun inflow => inflow.place = .held

/-- The inflow was moved by a transaction. -/
def Shared.movedBy (shared : Shared) (inflow : Nat) (hash : TxHash) : Bool :=
  (shared.inflows[inflow]?).any fun inflow => inflow.place = .moved hash

def Shared.tx? (shared : Shared) (hash : TxHash) : Option SweepTx :=
  shared.sent.find? fun tx => tx.hash = hash

/-- A transaction has a receipt once it is mined. -/
def Shared.receipt? (shared : Shared) (hash : TxHash) : Option Bool :=
  (shared.tx? hash).bind SweepTx.receipt

/-- A `findMany` on deposits. -/
def Shared.select (shared : Shared) (chosen : Deposit → Bool) : List Listed :=
  (shared.deposits.zipIdx.filter fun row => chosen row.1).map fun row => ⟨row.2, row.1⟩

/-- An `updateMany` on deposits. -/
def Shared.updateDeposits (shared : Shared) (chosen : Nat → Deposit → Bool)
    (change : Deposit → Deposit) : Shared :=
  { shared with
    deposits := shared.deposits.mapIdx fun id row => if chosen id row then change row else row }

/-- A row of the gas tank is closed. -/
def Shared.closeGasTank (shared : Shared) (id : Nat) (status : GasTankStatus) : Shared :=
  { shared with gasTank := shared.gasTank.modify id fun row => { row with status := status } }

/-- A row of the gas tank is still `submitted` for the transaction. -/
def Shared.isSubmitted (shared : Shared) (hash : TxHash) : Bool :=
  shared.gasTank.any fun row => row.txHash = hash && row.status = .submitted

/-- Include a transaction in a block. A call to an address without code succeeds and moves
nothing. -/
def Shared.mine (shared : Shared) (hash : TxHash) (ok : Bool) : Option Shared :=
  (shared.tx? hash).bind fun tx =>
    if tx.receipt.isSome then none
    else some
      { shared with
        sent := shared.sent.map fun other =>
          if other.hash = hash then { other with receipt := some ok } else other
        mined := if ok then hash :: shared.mined else shared.mined
        inflows :=
          if ok ∧ tx.forwarderAddress ∈ shared.deployed then shared.inflows.map tx.flush
          else shared.inflows }

/-- The last transaction that emptied a forwarder of a token. -/
def Shared.lastFlush? (shared : Shared) (forwarder : Address) (tokenId : TokenId) :
    Option TxHash :=
  shared.mined.find? fun hash => (shared.tx? hash).any fun tx =>
    tx.forwarderAddress = forwarder && tokenId ∈ tx.tokenIds

end CryptoVaultHub.Sweep
