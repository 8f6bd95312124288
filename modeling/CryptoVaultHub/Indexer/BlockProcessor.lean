import CryptoVaultHub.Indexer.Chain
import CryptoVaultHub.Semantics.Statement

/-!
# Processing one block

`processBlock` writes a row for each transfer of a monitored address in a block. The
addresses come from a cache of a minute or from the database, the block and its logs
from a provider that can fail or not have the block. The worker catches what it throws
and marks the block as scanned otherwise.

A task remembers in `known` which addresses it looked for. Each mark that the services
make is recorded with the transfers that had to be stored by then; no statement reads
these.
-/

namespace CryptoVaultHub.Indexer

/-! ## Relevant events -/

/-- Whose address a monitored address is. -/
structure MonitoredAddr where
  clientId : Nat
  projectId : Nat
  walletId : Nat
deriving DecidableEq

/-- An active row of `monitored_addresses`. -/
structure MonitoredRow where
  address : Address
  owner : MonitoredAddr
  startBlock : Nat
deriving DecidableEq

/-- A row of `indexed_events`. -/
structure IndexedEvent where
  blockNumber : Nat
  txHash : TxHash
  logIndex : Nat
  contractAddress : Address
  eventType : EventType
  fromAddress : Address
  toAddress : Address
  amount : Nat
  owner : MonitoredAddr
  isInbound : Bool
deriving DecidableEq

/-- `monitored.get`. -/
def owner? (monitored : List MonitoredRow) (address : Address) : Option MonitoredAddr :=
  (monitored.find? fun row => row.address = address).map MonitoredRow.owner

/-- The row of a transfer from or to a monitored address; the recipient comes first. -/
def Transfer.event? (monitored : List MonitoredRow) (blockNumber : Nat) (transfer : Transfer) :
    Option IndexedEvent :=
  let event (owner : MonitoredAddr) (isInbound : Bool) : IndexedEvent :=
    { blockNumber := blockNumber
      txHash := transfer.txHash
      logIndex := transfer.logIndex
      contractAddress := transfer.contractAddress
      eventType := transfer.eventType
      fromAddress := transfer.sender
      toAddress := transfer.recipient.getD zeroAddress
      amount := transfer.amount
      owner := owner
      isInbound := isInbound }
  match transfer.recipient.bind (owner? monitored) with
  | some owner => some (event owner true)
  | none => (owner? monitored transfer.sender).map fun owner => event owner false

/-- The transfer has a monitored party. -/
def Transfer.touches (monitored : List MonitoredRow) (transfer : Transfer) : Bool :=
  (transfer.recipient.bind (owner? monitored)).isSome || (owner? monitored transfer.sender).isSome

/-- The row stands for the transfer. -/
@[reducible] def IndexedEvent.Records (event : IndexedEvent) (transfer : Transfer) : Prop :=
  event.txHash = transfer.txHash ∧ event.logIndex = transfer.logIndex ∧
    event.contractAddress = transfer.contractAddress ∧ event.eventType = transfer.eventType ∧
    event.fromAddress = transfer.sender ∧
    event.toAddress = transfer.recipient.getD zeroAddress ∧ event.amount = transfer.amount

/-- Rows of one transfer, maybe written for different owners. -/
@[reducible] def IndexedEvent.SameTransfer (event other : IndexedEvent) : Prop :=
  event.txHash = other.txHash ∧ event.logIndex = other.logIndex ∧
    event.contractAddress = other.contractAddress ∧ event.eventType = other.eventType ∧
    event.fromAddress = other.fromAddress ∧ event.toAddress = other.toAddress ∧
    event.amount = other.amount

namespace Backfill

/-! ## The shared state -/

inductive GapStatus where
  | detected
  | backfilling
  | resolved
  | failed
deriving DecidableEq

/-- A row of `sync_gaps`. -/
structure Gap where
  id : Nat
  gapStartBlock : Nat
  gapEndBlock : Nat
  status : GapStatus
  attemptCount : Nat
  maxAttempts : Nat
deriving DecidableEq

structure JobData where
  gapId : Nat
  startBlock : Nat
  endBlock : Nat
deriving DecidableEq

/-- The blocks that were marked, as a resolved gap or as scanned, and the transfers of
monitored addresses in them at that time. -/
structure Mark where
  first : Nat
  last : Nat
  due : List Transfer
deriving DecidableEq

/-- The indexer of one chain: its tables, the cache of addresses, the keys
`scanned:<chain>:<block>`, and the jobs that were ever queued. -/
structure Shared where
  monitored : List MonitoredRow
  addrCache : Option (List MonitoredRow)
  events : List IndexedEvent
  indexedBlocks : List Nat
  lastBlock : Nat
  gaps : List Gap
  scanned : List Nat
  jobs : List JobData
  marks : List Mark
deriving DecidableEq

/-- The row with the unique key of another. -/
def Shared.event? (shared : Shared) (event : IndexedEvent) : Option IndexedEvent :=
  shared.events.find? fun row => row.txHash = event.txHash ∧ row.logIndex = event.logIndex

/-- `indexedEvent.upsert` with an empty update. -/
def Shared.upsert (shared : Shared) (event : IndexedEvent) : Shared :=
  match shared.event? event with
  | some _ => shared
  | none => { shared with events := shared.events ++ [event] }

/-! ## The task of one block -/

inductive TaskPoint where
  | getProvider
  | getMonitoredAddresses
  | remember (rows : List MonitoredRow)
  | getBlock (monitored : List MonitoredRow)
  | getLogs (monitored : List MonitoredRow) (events : List IndexedEvent)
  | upsert (event : IndexedEvent) (rest : List IndexedEvent)
  | indexBlock
  | cacheHash
  | markScanned
  | finished
deriving DecidableEq

structure Task where
  block : Nat
  known : List MonitoredRow
  point : TaskPoint
deriving DecidableEq

def Task.start (block : Nat) : Task := ⟨block, [], .getProvider⟩

/-- A task goes on at a point. -/
def Task.goTo (task : Task) (point : TaskPoint) : Task := { task with point := point }

/-- The addresses are known; none means that there is nothing to look for. -/
def Task.withAddresses (task : Task) (monitored : List MonitoredRow) : Task :=
  { task with
    known := monitored
    point := if monitored.isEmpty then .markScanned else .getBlock monitored }

/-- The events are known; a block without any is not recorded. -/
def Task.withEvents (task : Task) : List IndexedEvent → Task
  | [] => task.goTo .cacheHash
  | event :: rest => task.goTo (.upsert event rest)

/-- What a provider answers when it answers at all. -/
inductive BlockAnswer where
  | found
  | null
deriving DecidableEq

/-- The transfers of a monitored address in some blocks. -/
def due (chain : Nat → Block) (monitored : List MonitoredRow) (first last : Nat) :
    List Transfer :=
  ((List.range' first (last + 1 - first)).flatMap fun number => (chain number).transfers).filter
    (Transfer.touches monitored)

/-- `scanned:<chain>:<block>` is set. -/
def Shared.markScanned (chain : Nat → Block) (shared : Shared) (block : Nat) : Shared :=
  { shared with
    scanned := block :: shared.scanned
    marks := shared.marks ++ [⟨block, block, due chain shared.monitored block block⟩] }

/-- The statements of `processBlock` and of the callbacks the worker attaches to it. -/
def Task.statement (chain : Nat → Block) (shared : Shared) (task : Task) (answer : BlockAnswer) :
    Statement Shared Task :=
  let caught := some (task.goTo .finished)
  let unread := some { task with known := shared.monitored, point := .finished }
  match task.point with
  | .getProvider =>
    { after := shared, next := some (task.goTo .getMonitoredAddresses), thrown := unread }
  | .getMonitoredAddresses =>
    match shared.addrCache with
    | some monitored =>
      { after := shared
        next := some (task.withAddresses monitored)
        thrown := some (task.withAddresses monitored) }
    | none =>
      { after := shared
        next := some { task with known := shared.monitored, point := .remember shared.monitored }
        thrown := unread }
  | .remember rows =>
    { after := { shared with addrCache := some rows }
      next := some (task.withAddresses rows)
      thrown := some (task.withAddresses rows) }
  | .getBlock monitored =>
    match answer with
    | .null => { after := shared, next := some (task.goTo .markScanned), thrown := caught }
    | .found =>
      { after := shared
        next := some (task.goTo (.getLogs monitored
          ((chain task.block).nativeTransfers.filterMap
            (Transfer.event? monitored task.block))))
        thrown := caught }
  | .getLogs monitored events =>
    { after := shared
      next := some (task.withEvents (events ++
        (chain task.block).tokenTransfers.filterMap (Transfer.event? monitored task.block)))
      thrown := some (task.withEvents events) }
  | .upsert event rest =>
    { after := shared.upsert event
      next := some (task.goTo (match rest with
        | [] => .indexBlock
        | event :: rest => .upsert event rest))
      thrown := caught }
  | .indexBlock =>
    { after := { shared with indexedBlocks := task.block :: shared.indexedBlocks }
      next := some (task.goTo .cacheHash)
      thrown := caught }
  | .cacheHash => { after := shared, next := some (task.goTo .markScanned), thrown := caught }
  | .markScanned =>
    { after := shared.markScanned chain task.block
      next := some (task.goTo .finished)
      thrown := caught }
  | .finished => { after := shared, next := none }

end Backfill

end CryptoVaultHub.Indexer
