import Mathlib

/-!
# Blocks and the transfers in them

A block is what the providers return for it: its transactions and its logs with the
Transfer topic. A native transfer is the value of a transaction; a token transfer is
a Transfer log that names its two parties and carries data.
-/

namespace CryptoVaultHub.Indexer

/-- Addresses in lower case; the zero address is 0. -/
abbrev Address := Nat
abbrev TxHash := Nat

def zeroAddress : Address := 0

structure Transaction where
  hash : TxHash
  sender : Address
  recipient : Option Address
  value : Nat
deriving DecidableEq

/-- A log with the Transfer topic. `topics` counts all its topics; `data` is `none`
when it is empty. -/
structure Log where
  transactionHash : TxHash
  index : Nat
  address : Address
  topics : Nat
  sender : Address
  recipient : Address
  data : Option Nat
deriving DecidableEq

structure Block where
  hash : Nat
  parentHash : Nat
  timestamp : Nat
  transactions : List Transaction
  logs : List Log
deriving DecidableEq

inductive EventType where
  | nativeTransfer
  | erc20Transfer
deriving DecidableEq

/-- A transfer on the chain; the recipient is missing when a contract is created. -/
structure Transfer where
  txHash : TxHash
  logIndex : Nat
  contractAddress : Address
  eventType : EventType
  sender : Address
  recipient : Option Address
  amount : Nat
deriving DecidableEq

def Transaction.transfer? (transaction : Transaction) : Option Transfer :=
  if transaction.value = 0 then none
  else some {
    txHash := transaction.hash
    logIndex := 0
    contractAddress := zeroAddress
    eventType := .nativeTransfer
    sender := transaction.sender
    recipient := transaction.recipient
    amount := transaction.value }

def Log.transfer? (log : Log) : Option Transfer :=
  if log.topics < 3 then none
  else log.data.map fun amount => {
    txHash := log.transactionHash
    logIndex := log.index
    contractAddress := log.address
    eventType := .erc20Transfer
    sender := log.sender
    recipient := some log.recipient
    amount := amount }

def Block.nativeTransfers (block : Block) : List Transfer :=
  block.transactions.filterMap Transaction.transfer?

def Block.tokenTransfers (block : Block) : List Transfer :=
  block.logs.filterMap Log.transfer?

def Block.transfers (block : Block) : List Transfer :=
  block.nativeTransfers ++ block.tokenTransfers

end CryptoVaultHub.Indexer
