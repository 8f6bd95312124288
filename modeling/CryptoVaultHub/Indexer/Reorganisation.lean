import CryptoVaultHub.Indexer.BackfillWorker
import CryptoVaultHub.Indexer.Balances

/-!
# Rollbacks and materialised balances

The indexer of one chain with the handler of `chain:reorg` and the balance materialiser. The
handler deletes the rows from the fork block on and the balances of their addresses, and sets
the watermark and the sync cursor back; it has one consumer, which goes on to the next event
whatever happens. Gap detection, backfills and registrations run as before, but what the
providers return can change with every call. Nothing in the services sets `processed_at`.

The keys `scanned:<chain>:<block>` and the rows of `sync_gaps` stay. The state remembers which of
them were last written before the rows of their blocks were deleted; no statement reads that.
-/

namespace CryptoVaultHub.Indexer

/-! ## What the indexer writes -/

namespace Backfill

/-- The block that a statement of a process marks as scanned. -/
def Process.marked? (answer : Answer) : Process → Option Nat
  | .job ⟨_, .batch _ _ tasks, _⟩ =>
    (tasks[answer.task]?).bind fun task =>
      if task.point = .markScanned then some task.block else none
  | _ => none

/-- The gap that a statement of a process writes. -/
def Process.written? : Process → Option Nat
  | .job ⟨data, .exceeded, _⟩ | .job ⟨data, .begin, _⟩ | .job ⟨data, .resolve, _⟩
  | .job ⟨data, .fail, _⟩ => some data.gapId
  | _ => none

end Backfill

namespace Reorg

open Backfill

/-! ## The shared state -/

/-- The tables of the indexer, the rows of `indexed_events` that are processed, the balances and
the watermark, and what is left from before a rollback. -/
structure Ledger where
  indexer : Backfill.Shared
  processed : List IndexedEvent
  balances : List BalanceRow
  watermark : Option Nat
  staleScanned : List Nat
  staleGaps : List Nat
deriving DecidableEq

/-- The processed rows above a watermark up to a block. -/
def Ledger.processedIn (ledger : Ledger) (watermark : Option Nat) (upToBlock : Nat) :
    List IndexedEvent :=
  ledger.indexer.events.filter fun event =>
    (watermark.all fun block => block < event.blockNumber) ∧ event.blockNumber ≤ upToBlock ∧
      event ∈ ledger.processed

/-- The addresses of the rows from a block on. -/
def Ledger.addressesFrom (ledger : Ledger) (forkBlock : Nat) : List Address :=
  (ledger.indexer.events.filter fun event => forkBlock ≤ event.blockNumber).flatMap fun event =>
    [event.toAddress, event.fromAddress]

/-- The deletion of the events from a block on. -/
def Ledger.deleteEvents (ledger : Ledger) (forkBlock : Nat) : Ledger :=
  { ledger with
    indexer :=
      { ledger.indexer with
        events := ledger.indexer.events.filter fun event => event.blockNumber < forkBlock }
    processed := ledger.processed.filter fun event => event.blockNumber < forkBlock }

/-- The deletion of the blocks from a block on; what says that they were scanned is old now. -/
def Ledger.deleteBlocks (ledger : Ledger) (forkBlock : Nat) : Ledger :=
  { ledger with
    indexer :=
      { ledger.indexer with
        indexedBlocks := ledger.indexer.indexedBlocks.filter fun block => block < forkBlock }
    staleScanned :=
      (ledger.indexer.scanned.filter fun block => forkBlock ≤ block) ++ ledger.staleScanned
    staleGaps :=
      ((ledger.indexer.gaps.filter fun gap => forkBlock ≤ gap.gapEndBlock).map Gap.id) ++
        ledger.staleGaps }

def Ledger.deleteBalances (ledger : Ledger) (addresses : List Address) : Ledger :=
  { ledger with balances := ledger.balances.filter fun row => row.key.address ∉ addresses }

/-! ## Services -/

/-- What a statement reads outside the tables: the chain of the providers, the answer to a
statement of the indexer, and how the database orders rows of one block and log index. -/
structure LedgerAnswer where
  chain : Nat → Block
  indexer : Backfill.Answer
  rank : IndexedEvent → Nat

/-- The points of `handleReorgEvent`. -/
inductive RollbackPoint where
  | collectAddresses
  | deleteEvents (addresses : List Address)
  | deleteBlocks (addresses : List Address)
  | deleteBalances (addresses : List Address)
  | setWatermark
  | setCursor
deriving DecidableEq

/-- The points of `materializeForChain`. `upsert` has the entries of a batch that are left,
`written` whether one was written, `last` whether there is no further batch. -/
inductive MaterializePoint where
  | getWatermark
  | select (watermark : Option Nat)
  | upsert (entry : BalanceEntry) (rest : List BalanceEntry) (written : Bool) (batchMaxBlock : Nat)
      (last : Bool)
  | setWatermark (written : Bool) (block : Nat) (last : Bool)
deriving DecidableEq

inductive LedgerProcess where
  | indexer (process : Backfill.Process)
  | rollback (forkBlock : Nat) (point : RollbackPoint)
  | materialize (upToBlock : Nat) (point : MaterializePoint)

/-- `BATCH_SIZE` of the materialiser. -/
def materializeBatchSize : Nat := 1000

/-- The order of the rows of a batch. -/
@[reducible] def LedgerAnswer.precedes (answer : LedgerAnswer) (event other : IndexedEvent) : Prop :=
  event.blockNumber < other.blockNumber ∨ event.blockNumber = other.blockNumber ∧
    (event.logIndex < other.logIndex ∨ event.logIndex = other.logIndex ∧
      answer.rank event ≤ answer.rank other)

/-- All the rows that a batch is taken from. -/
def LedgerAnswer.candidates (answer : LedgerAnswer) (ledger : Ledger) (watermark : Option Nat)
    (upToBlock : Nat) : List IndexedEvent :=
  (ledger.processedIn watermark upToBlock).insertionSort answer.precedes

/-- The highest block of a batch. -/
def batchMaxBlock (events : List IndexedEvent) : Nat :=
  (events.map IndexedEvent.blockNumber).foldl max 0

/-- The next entry of a batch, or its watermark. -/
def MaterializePoint.write (written : Bool) (block : Nat) (last : Bool) :
    List BalanceEntry → MaterializePoint
  | [] => .setWatermark written block last
  | entry :: rest => .upsert entry rest written block last

def materializeStatement (ledger : Ledger) (answer : LedgerAnswer) (upToBlock : Nat)
    (point : MaterializePoint) : Statement Ledger LedgerProcess :=
  let goTo (point : MaterializePoint) : Option LedgerProcess :=
    some (.materialize upToBlock point)
  match point with
  | .getWatermark => { after := ledger, next := goTo (.select ledger.watermark) }
  | .select watermark =>
    let events := (answer.candidates ledger watermark upToBlock).take materializeBatchSize
    { after := ledger
      next :=
        if events = [] then
          if watermark.all fun block => block < upToBlock then
            goTo (.setWatermark false upToBlock true)
          else none
        else
          goTo (MaterializePoint.write false (batchMaxBlock events)
            (decide (events.length < materializeBatchSize)) (clientEntries events)) }
  | .upsert entry rest _ block last =>
    { after := { ledger with balances := upsertBalance ledger.balances entry }
      next := goTo (MaterializePoint.write true block last rest) }
  | .setWatermark _ block last =>
    { after := { ledger with watermark := some block }
      next := if last then none else goTo (.select (some block)) }

def rollbackStatement (ledger : Ledger) (forkBlock : Nat) (point : RollbackPoint) :
    Statement Ledger LedgerProcess :=
  let goTo (point : RollbackPoint) : Option LedgerProcess := some (.rollback forkBlock point)
  match point with
  | .collectAddresses =>
    { after := ledger, next := goTo (.deleteEvents (ledger.addressesFrom forkBlock)) }
  | .deleteEvents addresses =>
    { after := ledger.deleteEvents forkBlock, next := goTo (.deleteBlocks addresses) }
  | .deleteBlocks addresses =>
    { after := ledger.deleteBlocks forkBlock, next := goTo (.deleteBalances addresses) }
  | .deleteBalances addresses =>
    { after := ledger.deleteBalances addresses, next := goTo .setWatermark }
  | .setWatermark =>
    { after := { ledger with watermark := some (forkBlock - 1) }, next := goTo .setCursor }
  | .setCursor =>
    { after := { ledger with indexer := { ledger.indexer with lastBlock := forkBlock - 1 } }
      next := none }

/-- A statement of the indexer; what it writes is no longer old. -/
def indexerStatement (ledger : Ledger) (answer : LedgerAnswer) (process : Backfill.Process) :
    Statement Ledger LedgerProcess :=
  ((process.statement answer.chain ledger.indexer answer.indexer).map .indexer).within
    fun after =>
      { ledger with
        indexer := after
        staleScanned := ledger.staleScanned.filter fun block =>
          some block ≠ process.marked? answer.indexer
        staleGaps := ledger.staleGaps.filter fun id => some id ≠ process.written? }

def LedgerProcess.statement (ledger : Ledger) (process : LedgerProcess) (answer : LedgerAnswer) :
    Statement Ledger LedgerProcess :=
  match process with
  | .indexer process => indexerStatement ledger answer process
  | .rollback forkBlock point => rollbackStatement ledger forkBlock point
  | .materialize upToBlock point => materializeStatement ledger answer upToBlock point

/-! ## The pool -/

/-- What begins a process or happens to the indexer; rows of `indexed_events` of a client are
processed, the realtime detector moves the cursor, and a job leaves the queue. -/
inductive LedgerStart where
  | indexer (begun : Backfill.Start)
  | rollback (forkBlock : Nat)
  | materialize (upToBlock : Nat)
  | process (index : Nat)
  | realtime (block : Nat)
  | dequeue (data : JobData)

/-- What a start of the indexer rewrites. -/
def Ledger.withIndexer (ledger : Ledger) (begun : Backfill.Start) (after : Backfill.Shared) :
    Ledger :=
  let ledger := { ledger with indexer := after }
  match begun with
  | .expireScanned block =>
    { ledger with staleScanned := ledger.staleScanned.filter fun other => other ≠ block }
  | .retryGap id => { ledger with staleGaps := ledger.staleGaps.filter fun other => other ≠ id }
  | .detect | .job _ | .register _ | .head _ | .expireCache | .deactivate _ => ledger

def Ledger.start (ledger : Ledger) : LedgerStart → Option (Ledger × Option LedgerProcess)
  | .indexer begun =>
    (Backfill.start ledger.indexer begun).map fun result =>
      (ledger.withIndexer begun result.1, result.2.map .indexer)
  | .rollback forkBlock =>
    if forkBlock = 0 then none else some (ledger, some (.rollback forkBlock .collectAddresses))
  | .materialize upToBlock => some (ledger, some (.materialize upToBlock .getWatermark))
  | .process index =>
    (ledger.indexer.events[index]?).bind fun event =>
      if event.owner.clientId = 0 then none
      else some ({ ledger with processed := ledger.processed ++ [event] }, none)
  | .realtime block =>
    some ({ ledger with indexer := { ledger.indexer with lastBlock := block } }, none)
  | .dequeue data =>
    some ({ ledger with
      indexer := { ledger.indexer with jobs := ledger.indexer.jobs.erase data } }, none)

/-- Nothing was materialised or rolled back, and there are no gaps. -/
structure Ledger.Initial (ledger : Ledger) : Prop where
  indexer : ledger.indexer.Initial
  processed : ledger.processed = []
  balances : ledger.balances = []
  watermark : ledger.watermark = none
  staleScanned : ledger.staleScanned = []
  staleGaps : ledger.staleGaps = []

def services : ProcessPool Ledger LedgerProcess (Input LedgerAnswer) LedgerStart :=
  .ofStatements Ledger.Initial LedgerProcess.statement Ledger.start

abbrev LedgerState := PoolState Ledger LedgerProcess

abbrev LedgerAction := PoolAction (Input LedgerAnswer) LedgerStart

end Reorg

end CryptoVaultHub.Indexer
