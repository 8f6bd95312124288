import CryptoVaultHub.Indexer.Chain
import CryptoVaultHub.Semantics.Statement

/-!
# Persisting detected deposits

Both detectors publish the deposits they see to the stream `deposits:detected`. The
handler turns each message into a row of `deposits`, unless the forwarder or the token
is unknown or a row with the same transaction and forwarder exists. A message that was
not acknowledged is delivered again, so it can be handled any number of times, also by
two consumers at once.
-/

namespace CryptoVaultHub.Indexer

/-- The `tx_hash` of a deposit: that of a transaction, or `polling:<block>:<address>:<token>`
with the last eight digits of the addresses. -/
inductive DepositHash where
  | transaction (hash : TxHash)
  | polling (block : Nat) (addressTail : Nat) (tokenTail : Option Nat)
deriving DecidableEq

/-- A message of the stream. The native currency has the zero address; a sender can be
'unknown'. -/
structure Message where
  txHash : DepositHash
  blockNumber : Nat
  fromAddress : Option Address
  toAddress : Address
  contractAddress : Address
  amount : Nat
  isPolling : Bool
deriving DecidableEq

inductive DepositStatus where
  | pending
  | confirming
  | confirmed
  | reverted
deriving DecidableEq

/-- A row of `deposits`. -/
structure Deposit where
  id : Nat
  clientId : Nat
  projectId : Nat
  externalId : Nat
  forwarderAddress : Address
  tokenId : Nat
  amount : Nat
  txHash : DepositHash
  blockNumber : Nat
  fromAddress : Option Address
  status : DepositStatus
  confirmations : Nat
  confirmationsRequired : Nat
deriving DecidableEq

/-- A row of `deposit_addresses`. -/
structure DepositAddress where
  address : Address
  clientId : Nat
  projectId : Nat
  externalId : Nat
deriving DecidableEq

/-- A row of `tokens`. -/
structure Token where
  id : Nat
  contractAddress : Address
  isNative : Bool
deriving DecidableEq

/-- The stream with the positions that were acknowledged, and the tables of one chain. -/
structure Store where
  stream : List Message
  acked : List Nat
  depositAddresses : List DepositAddress
  tokens : List Token
  confirmationsDefault : Option Nat
  deposits : List Deposit
deriving DecidableEq

def Store.depositAddress? (store : Store) (address : Address) : Option DepositAddress :=
  store.depositAddresses.find? fun row => row.address = address

def Store.tokenId? (store : Store) (contractAddress : Address) : Option Nat :=
  (if contractAddress = zeroAddress then store.tokens.find? Token.isNative
    else store.tokens.find? fun token => token.contractAddress = contractAddress).map Token.id

def Store.publish (store : Store) (message : Message) : Store :=
  { store with stream := store.stream ++ [message] }

/-- The unique key of a deposit. -/
def Deposit.key (deposit : Deposit) : DepositHash × Address :=
  (deposit.txHash, deposit.forwarderAddress)

/-- The values that `handleEntry` inserts. -/
def Message.deposit (message : Message) (id : Nat) (address : DepositAddress) (tokenId : Nat)
    (confirmationsRequired : Nat) : Deposit where
  id := id
  clientId := address.clientId
  projectId := address.projectId
  externalId := address.externalId
  forwarderAddress := message.toAddress
  tokenId := tokenId
  amount := message.amount
  txHash := message.txHash
  blockNumber := message.blockNumber
  fromAddress := message.fromAddress
  status := if message.isPolling then .confirmed else .pending
  confirmations := if message.isPolling then confirmationsRequired else 0
  confirmationsRequired := confirmationsRequired

/-- `INSERT … ON DUPLICATE KEY UPDATE confirmations_required`. -/
def Store.insert (store : Store) (deposit : Deposit) : Store :=
  if store.deposits.any fun row => row.key = deposit.key then
    { store with
      deposits := store.deposits.map fun row =>
        if row.key = deposit.key then
          { row with confirmationsRequired := deposit.confirmationsRequired }
        else row }
  else { store with deposits := store.deposits ++ [deposit] }

/-- The statements of `handleEntry` and the acknowledgement of the message at a position. -/
inductive HandlerPoint where
  | findAddress (position : Nat) (message : Message)
  | findToken (position : Nat) (message : Message) (address : DepositAddress)
  | findChain (position : Nat) (message : Message) (address : DepositAddress) (tokenId : Nat)
  | insert (position : Nat) (message : Message) (address : DepositAddress) (tokenId : Nat)
      (confirmationsRequired : Nat)
  | ack (position : Nat)
deriving DecidableEq

/-- A message without a known forwarder or token is acknowledged without a row. -/
def HandlerPoint.statement (store : Store) : HandlerPoint → Statement Store HandlerPoint
  | .findAddress position message =>
    { after := store
      next := some (match store.depositAddress? message.toAddress with
        | none => .ack position
        | some address => .findToken position message address) }
  | .findToken position message address =>
    { after := store
      next := some (match store.tokenId? message.contractAddress with
        | none => .ack position
        | some tokenId => .findChain position message address tokenId) }
  | .findChain position message address tokenId =>
    { after := store
      next := some (.insert position message address tokenId
        (store.confirmationsDefault.getD 12)) }
  | .insert position message address tokenId confirmationsRequired =>
    { after := store.insert
        (message.deposit (store.deposits.length + 1) address tokenId confirmationsRequired)
      next := some (.ack position) }
  | .ack position =>
    { after := { store with acked := position :: store.acked }
      next := none }

end CryptoVaultHub.Indexer
