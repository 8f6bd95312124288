import CryptoVaultHub.Indexer.BlockProcessor

/-!
# Gap detection, backfill and address registration

The gap detector inserts a gap for each run of blocks that are neither indexed nor
scanned and queues a job for it. The worker takes the blocks of a job in batches of 100,
five at a time, waits for all five, and resolves the gap after the last batch. Addresses
are registered meanwhile. A queued job can be taken any number of times: retries and
stalled jobs are not told apart.
-/

namespace CryptoVaultHub.Indexer.Backfill

/-! ## The worker -/

def batchSize : Nat := 100
def batchConcurrency : Nat := 5

/-- The points of `BackfillWorker.process`. In a batch, `batchStart` is its first block and
`next` the first block of the sub-batch after the tasks. -/
inductive JobPoint where
  | load
  | exceeded
  | begin
  | batch (batchStart next : Nat) (tasks : List Task)
  | progress (batchStart : Nat)
  | resolve
  | fail
deriving DecidableEq

/-- A job in progress. `done` are the tasks of the sub-batches before. -/
structure Job where
  data : JobData
  point : JobPoint
  done : List Task
deriving DecidableEq

def JobData.batchEnd (data : JobData) (batchStart : Nat) : Nat :=
  min (batchStart + batchSize - 1) data.endBlock

/-- The sub-batch that starts with a block. -/
def JobData.subBatch (data : JobData) (batchStart first : Nat) : JobPoint :=
  let next := min (first + batchConcurrency) (data.batchEnd batchStart + 1)
  .batch batchStart next ((List.range' first (next - first)).map Task.start)

/-- The loop over the batches. -/
def JobData.nextBatch (data : JobData) (batchStart : Nat) : JobPoint :=
  if batchStart ≤ data.endBlock then data.subBatch batchStart batchStart else .resolve

/-- Wait for all tasks of the sub-batch before the next one, and for the last before the
progress of the batch is reported. -/
def Job.join (job : Job) (batchStart next : Nat) (tasks : List Task) : Job :=
  if tasks.all fun task => task.point = .finished then
    { job with
      done := job.done ++ tasks
      point :=
        if next ≤ job.data.batchEnd batchStart then job.data.subBatch batchStart next
        else .progress batchStart }
  else { job with point := .batch batchStart next tasks }

def Shared.gap? (shared : Shared) (id : Nat) : Option Gap :=
  shared.gaps.find? fun gap => gap.id = id

def Shared.updateGap (shared : Shared) (id : Nat) (change : Gap → Gap) : Shared :=
  { shared with gaps := shared.gaps.map fun gap => if gap.id = id then change gap else gap }

def Shared.setGapStatus (shared : Shared) (id : Nat) (status : GapStatus) : Shared :=
  shared.updateGap id fun gap => { gap with status := status }

/-- The gap is set to 'resolved'. -/
def Shared.resolveGap (chain : Nat → Block) (shared : Shared) (id : Nat) : Shared :=
  let marks := (shared.gaps.filter fun gap => gap.id = id).map fun gap =>
    Mark.mk gap.gapStartBlock gap.gapEndBlock
      (due chain shared.monitored gap.gapStartBlock gap.gapEndBlock)
  { shared.setGapStatus id .resolved with marks := shared.marks ++ marks }

/-- Which task of the sub-batch goes on, and what the provider answers it. -/
structure Answer where
  task : Nat
  block : BlockAnswer

/-- A statement of one task of the sub-batch; its errors never leave it. -/
def Job.advance (chain : Nat → Block) (shared : Shared) (job : Job) (batchStart next : Nat)
    (tasks : List Task) (answer : Answer) : Statement Shared Job :=
  match tasks[answer.task]? with
  | none => { after := shared, next := some job, thrown := some job }
  | some task =>
    let statement := task.statement chain shared answer.block
    let joined (task : Option Task) : Option Job :=
      some (match task with
        | none => job
        | some task => job.join batchStart next (tasks.set answer.task task))
    { after := statement.after
      next := joined statement.next
      thrown := joined statement.thrown }

/-- `BackfillWorker.process`. -/
def Job.statement (chain : Nat → Block) (shared : Shared) (job : Job) (answer : Answer) :
    Statement Shared Job :=
  let goTo (point : JobPoint) : Option Job := some { job with point := point }
  match job.point with
  | .load =>
    { after := shared
      next :=
        match shared.gap? job.data.gapId with
        | none => none
        | some gap =>
          if gap.status = .resolved then none
          else if gap.attemptCount ≥ gap.maxAttempts then goTo .exceeded
          else goTo .begin }
  | .exceeded => { after := shared.setGapStatus job.data.gapId .failed, next := none }
  | .begin =>
    { after := shared.updateGap job.data.gapId fun gap =>
        { gap with status := .backfilling, attemptCount := gap.attemptCount + 1 }
      next := goTo (job.data.nextBatch job.data.startBlock) }
  | .batch batchStart next tasks => job.advance chain shared batchStart next tasks answer
  | .progress batchStart =>
    { after := shared
      next := goTo (job.data.nextBatch (batchStart + batchSize))
      thrown := goTo .fail }
  | .resolve =>
    { after := shared.resolveGap chain job.data.gapId, next := none, thrown := goTo .fail }
  | .fail => { after := shared.setGapStatus job.data.gapId .failed, next := none }

/-! ## The gap detector -/

def maxGapLookback : Nat := 10000
def gapBatchSize : Nat := 1000

/-- `coalesceGaps` on blocks in ascending order: the runs of consecutive numbers. -/
def coalesceFrom (start stop : Nat) : List Nat → List (Nat × Nat)
  | [] => [(start, stop)]
  | block :: rest =>
    if block = stop + 1 then coalesceFrom start block rest
    else (start, stop) :: coalesceFrom block block rest

def coalesceGaps : List Nat → List (Nat × Nat)
  | [] => []
  | block :: rest => coalesceFrom block block rest

/-- The batch of blocks that the detector looks at. -/
structure Window where
  batchStart : Nat
  endBlock : Nat
deriving DecidableEq

def Window.batchEnd (window : Window) : Nat := min (window.batchStart + gapBatchSize - 1) window.endBlock

/-- The points of `detectAndEnqueueGaps`. -/
inductive DetectPoint where
  | cursor
  | earliest (endBlock : Nat)
  | indexed (window : Window)
  | scanned (window : Window) (indexed : List Nat) (block : Nat) (missing : List Nat)
  | existing (window : Window) (gap : Nat × Nat) (rest : List (Nat × Nat))
  | create (window : Window) (gap : Nat × Nat) (rest : List (Nat × Nat))
  | enqueue (window : Window) (job : JobData) (rest : List (Nat × Nat))
deriving DecidableEq

def Window.next (window : Window) : Option DetectPoint :=
  if window.batchStart < window.endBlock then some (.indexed window) else none

/-- The gaps of a batch, then the next batch. -/
def Window.nextGap (window : Window) : List (Nat × Nat) → Option DetectPoint
  | [] => Window.next { window with batchStart := window.batchStart + gapBatchSize }
  | gap :: rest => some (.existing window gap rest)

/-- The block after another in the batch that has to be looked up in Redis. -/
def Window.nextBlock (window : Window) (indexed : List Nat) (block : Nat) (missing : List Nat) :
    Option DetectPoint :=
  match (List.range' block (window.batchEnd + 1 - block)).find? fun number => number ∉ indexed with
  | some number => some (.scanned window indexed number missing)
  | none => window.nextGap (coalesceGaps missing)

def earliestStart (monitored : List MonitoredRow) : Option Nat :=
  (monitored.map MonitoredRow.startBlock).min?

def nextGapId (gaps : List Gap) : Nat := (gaps.map Gap.id).foldr (fun id next => max (id + 1) next) 1

/-- `detectAndEnqueueGaps`; an error ends it. -/
def DetectPoint.statement (shared : Shared) : DetectPoint → Statement Shared DetectPoint
  | .cursor =>
    { after := shared
      next := if shared.lastBlock = 0 then none else some (.earliest shared.lastBlock) }
  | .earliest endBlock =>
    { after := shared
      next := do
        let start ← earliestStart shared.monitored
        if start ≥ endBlock then none
        else Window.next ⟨max start (endBlock - maxGapLookback), endBlock⟩ }
  | .indexed window =>
    { after := shared
      next := window.nextBlock
        (shared.indexedBlocks.filter fun block =>
          window.batchStart ≤ block ∧ block ≤ window.batchEnd)
        window.batchStart [] }
  | .scanned window indexedSet block missing =>
    { after := shared
      next := window.nextBlock indexedSet (block + 1)
        (if block ∈ shared.scanned then missing else missing ++ [block]) }
  | .existing window gap rest =>
    { after := shared
      next :=
        if shared.gaps.any fun row => row.gapStartBlock = gap.1 ∧ row.gapEndBlock = gap.2 ∧
            (row.status = .detected ∨ row.status = .backfilling)
        then window.nextGap rest
        else some (.create window gap rest) }
  | .create window gap rest =>
    let id := nextGapId shared.gaps
    { after := { shared with gaps := shared.gaps ++ [⟨id, gap.1, gap.2, .detected, 0, 5⟩] }
      next := some (.enqueue window ⟨id, gap.1, gap.2⟩ rest) }
  | .enqueue window job rest =>
    { after := { shared with jobs := shared.jobs ++ [job] }
      next := window.nextGap rest }

/-! ## Registration -/

/-- The points of the registration of an address that change the indexer. -/
inductive RegisterPoint where
  | upsert (row : MonitoredRow)
  | ensureCursor (row : MonitoredRow)
  | invalidateCache
deriving DecidableEq

/-- The row of an address is updated but keeps its start block. -/
def upsertMonitored (monitored : List MonitoredRow) (row : MonitoredRow) : List MonitoredRow :=
  if monitored.any fun other => other.address = row.address then
    monitored.map fun other =>
      if other.address = row.address then { other with owner := row.owner } else other
  else monitored ++ [row]

def RegisterPoint.statement (shared : Shared) : RegisterPoint → Statement Shared RegisterPoint
  | .upsert row =>
    { after := { shared with monitored := upsertMonitored shared.monitored row }
      next := some (.ensureCursor row) }
  | .ensureCursor row =>
    { after :=
        if shared.lastBlock = 0 then { shared with lastBlock := row.startBlock - 1 } else shared
      next := some .invalidateCache }
  | .invalidateCache => { after := { shared with addrCache := none }, next := none }

/-! ## The pool -/

inductive Process where
  | job (job : Job)
  | detect (point : DetectPoint)
  | register (point : RegisterPoint)

def Process.statement (chain : Nat → Block) (shared : Shared) (process : Process)
    (answer : Answer) : Statement Shared Process :=
  match process with
  | .job running => (running.statement chain shared answer).map .job
  | .detect point => (point.statement shared).map .detect
  | .register point => (point.statement shared).map .register

/-- What begins a process or changes the tables from outside: the head moves on, a key or
the cache expires, an address is deactivated, an operator retries a gap. -/
inductive Start where
  | detect
  | job (data : JobData)
  | register (row : MonitoredRow)
  | head (lastBlock : Nat)
  | expireCache
  | expireScanned (block : Nat)
  | deactivate (address : Address)
  | retryGap (id : Nat)

/-- The retry of a gap resets its row and queues a job for its range. -/
def Shared.retryGap (shared : Shared) (gap : Gap) : Shared :=
  { shared.updateGap gap.id fun row => { row with status := .detected, attemptCount := 0 } with
    jobs := shared.jobs ++ [⟨gap.id, gap.gapStartBlock, gap.gapEndBlock⟩] }

def start (shared : Shared) : Start → Option (Shared × Option Process)
  | .detect => some (shared, some (.detect .cursor))
  | .job data =>
    if data ∈ shared.jobs then some (shared, some (.job ⟨data, .load, []⟩)) else none
  | .register row => some (shared, some (.register (.upsert row)))
  | .head lastBlock => some ({ shared with lastBlock := max lastBlock shared.lastBlock }, none)
  | .expireCache => some ({ shared with addrCache := none }, none)
  | .expireScanned block =>
    some ({ shared with scanned := shared.scanned.filter fun other => other ≠ block }, none)
  | .deactivate address =>
    some ({ shared with
      monitored := shared.monitored.filter fun row => row.address ≠ address }, none)
  | .retryGap id =>
    match shared.gap? id with
    | none => none
    | some gap => some (shared.retryGap gap, none)

/-- An indexer without gaps, jobs or marks; the other tables hold anything. -/
structure Shared.Initial (shared : Shared) : Prop where
  gaps : shared.gaps = []
  jobs : shared.jobs = []
  marks : shared.marks = []

def services (chain : Nat → Block) : ProcessPool Shared Process (Input Answer) Start :=
  .ofStatements Shared.Initial (Process.statement chain) start

abbrev State := PoolState Shared Process
abbrev Action := PoolAction (Input Answer) Start

end CryptoVaultHub.Indexer.Backfill
