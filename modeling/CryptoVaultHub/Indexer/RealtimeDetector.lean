import CryptoVaultHub.Indexer.DepositPersistence

/-!
# Detecting deposits in new blocks

For each new block the detector reads the Transfer logs and then the transactions, keeps
those to a watched address, reads the block again for its hash, and publishes a message
for each of them. What each scan found is recorded; no statement reads it.
-/

namespace CryptoVaultHub.Indexer

/-- The detector of one chain: the addresses in its memory, its cursor, and what each of
its scans has found. -/
structure Detector where
  watched : List Address
  lastBlock : Nat
  seen : List (List Transfer)
  store : Store
deriving DecidableEq

/-- The transfer of a log to a watched address; empty data counts as zero. -/
def scanERC20Transfer (watched : List Address) (log : Log) : Option Transfer :=
  if log.topics < 3 then none
  else if log.recipient ∈ watched then
    some {
      txHash := log.transactionHash
      logIndex := log.index
      contractAddress := log.address
      eventType := .erc20Transfer
      sender := log.sender
      recipient := some log.recipient
      amount := log.data.getD 0 }
  else none

def scanERC20Transfers (watched : List Address) (logs : List Log) : List Transfer :=
  logs.filterMap (scanERC20Transfer watched)

/-- The value that a transaction sends to a watched address. -/
def scanNativeTransfer (watched : List Address) (transaction : Transaction) : Option Transfer :=
  if transaction.recipient.any fun recipient => recipient ∈ watched then transaction.transfer?
  else none

/-- `scanNativeTransfers`; nothing is found in a block the provider does not have. -/
def scanNativeTransfers (watched : List Address) (transactions : Option (List Transaction)) :
    List Transfer :=
  (transactions.getD []).filterMap (scanNativeTransfer watched)

/-- The message of a detected deposit. -/
def Transfer.message (transfer : Transfer) (blockNumber : Nat) : Message where
  txHash := .transaction transfer.txHash
  blockNumber := blockNumber
  fromAddress := some transfer.sender
  toAddress := transfer.recipient.getD zeroAddress
  contractAddress := transfer.contractAddress
  amount := transfer.amount
  isPolling := false

/-- The points of `processBlock`. The messages of a block are published at once; `left`
are those not published yet, and `failed` says that publishing one has thrown. -/
inductive RealtimePoint where
  | getProvider (blockNumber : Nat)
  | getLogs (blockNumber : Nat)
  | getBlock (blockNumber : Nat) (deposits : List Transfer)
  | getHash (blockNumber : Nat) (deposits : List Transfer)
  | cacheHash (blockNumber : Nat) (deposits : List Transfer)
  | publish (blockNumber : Nat) (left : List Transfer) (failed : Bool)
  | updateCursor (blockNumber : Nat)
deriving DecidableEq

/-- What the provider answers, which message is published next, and whether the event bus
that reports success has written it to the stream. -/
structure RealtimeAnswer where
  logs : List Log
  transactions : Option (List Transaction)
  chosen : Nat
  streamed : Bool
deriving DecidableEq

/-- Publish what is left, then move the cursor unless publishing has failed. -/
def RealtimePoint.publishing (blockNumber : Nat) (left : List Transfer) (failed : Bool) :
    Option RealtimePoint :=
  if left.isEmpty then
    if failed then none else some (.updateCursor blockNumber)
  else some (.publish blockNumber left failed)

/-- Remember what a scan found. -/
def Detector.see (detector : Detector) (found : List Transfer) : Detector :=
  { detector with seen := detector.seen ++ [found] }

/-- `processBlock`; an error ends it, except that the other messages of a block are still
published. -/
def RealtimePoint.statement (detector : Detector) (answer : RealtimeAnswer) :
    RealtimePoint → Statement Detector RealtimePoint
  | .getProvider blockNumber => { after := detector, next := some (.getLogs blockNumber) }
  | .getLogs blockNumber =>
    let deposits := scanERC20Transfers detector.watched answer.logs
    { after := detector.see deposits, next := some (.getBlock blockNumber deposits) }
  | .getBlock blockNumber deposits =>
    let sent := scanNativeTransfers detector.watched answer.transactions
    { after := detector.see sent, next := some (.getHash blockNumber (deposits ++ sent)) }
  | .getHash blockNumber deposits =>
    { after := detector
      next :=
        if answer.transactions.isSome then some (.cacheHash blockNumber deposits)
        else RealtimePoint.publishing blockNumber deposits false }
  | .cacheHash blockNumber deposits =>
    { after := detector, next := RealtimePoint.publishing blockNumber deposits false }
  | .publish blockNumber left failed =>
    match left[answer.chosen]? with
    | none =>
      { after := detector
        next := some (.publish blockNumber left failed)
        thrown := some (.publish blockNumber left failed) }
    | some transfer =>
      let rest := left.eraseIdx answer.chosen
      { after :=
          if answer.streamed then
            { detector with store := detector.store.publish (transfer.message blockNumber) }
          else detector
        next := RealtimePoint.publishing blockNumber rest failed
        thrown := RealtimePoint.publishing blockNumber rest true }
  | .updateCursor blockNumber => { after := { detector with lastBlock := blockNumber }, next := none }

/-- The detector and the handler. -/
inductive DetectionProcess where
  | realtime (point : RealtimePoint)
  | handler (point : HandlerPoint)
deriving DecidableEq

def DetectionProcess.statement (detector : Detector) (process : DetectionProcess)
    (answer : RealtimeAnswer) : Statement Detector DetectionProcess :=
  match process with
  | .realtime point => (point.statement detector answer).map .realtime
  | .handler point =>
    ((point.statement detector.store).map .handler).within fun store =>
      { detector with store := store }

/-- What begins a process or changes the state from outside: a new block, the delivery of
a message, the addresses loaded again, new rows, and a message of the polling detector. -/
inductive DetectionStart where
  | block (blockNumber : Nat)
  | deliver (position : Nat)
  | loadMonitoredAddresses (watched : List Address)
  | registerAddress (row : DepositAddress)
  | registerToken (token : Token)
  | poll (message : Message)

def Detector.start (detector : Detector) :
    DetectionStart → Option (Detector × Option DetectionProcess)
  | .block blockNumber => some (detector, some (.realtime (.getProvider blockNumber)))
  | .deliver position =>
    (detector.store.stream[position]?).map fun message =>
      (detector, some (.handler (.findAddress position message)))
  | .loadMonitoredAddresses watched => some ({ detector with watched := watched }, none)
  | .registerAddress row =>
    some ({ detector with
      store := { detector.store with
        depositAddresses := detector.store.depositAddresses ++ [row] } }, none)
  | .registerToken token =>
    some ({ detector with
      store := { detector.store with tokens := detector.store.tokens ++ [token] } }, none)
  | .poll message =>
    if message.isPolling then
      some ({ detector with store := detector.store.publish message }, none)
    else none

/-- A detector that has seen nothing, with an empty stream and no deposits. -/
structure Detector.Initial (detector : Detector) : Prop where
  seen : detector.seen = []
  stream : detector.store.stream = []
  acked : detector.store.acked = []
  deposits : detector.store.deposits = []

def detection : ProcessPool Detector DetectionProcess (Input RealtimeAnswer) DetectionStart :=
  .ofStatements Detector.Initial DetectionProcess.statement Detector.start

end CryptoVaultHub.Indexer
