import CryptoVaultHub.Semantics.Execution

/-!
# The export worker

`generateData` pushes chunks into a buffer, and the loop of `executeExport` writes them to the file
until the buffer is empty and `ended` is set. Only `end` sets it, which `executeExport` calls after
its loop, so that `export_never_completes`.
-/

namespace CryptoVaultHub.Export

open TransitionSystem

/-- What an export reads of a deposit, with its values as they are printed. -/
structure Deposit where
  clientId : Nat
  status : String
  txHash : String
  blockNumber : String
  fromAddress : String
  forwarderAddress : String
  amount : String
  detectedAt : String

structure ExportJobData where
  clientId : Nat
  csv : Bool
  status : Option String

/-- A job, the deposits in the order of `detectedAt`, and `JSON.stringify`, which can throw. -/
structure Run where
  data : ExportJobData
  deposits : List Deposit
  stringify : Deposit → Option String

namespace Run

variable (run : Run)

/-- What `findMany` finds without its limits; an empty status filters nothing. -/
def matching : List Deposit :=
  run.deposits.filter fun deposit => deposit.clientId = run.data.clientId ∧
    ∀ status ∈ run.data.status, status = "" ∨ deposit.status = status

def header : List String :=
  if run.data.csv then ["txHash,blockNumber,fromAddress,toAddress,amount,status,createdAt\n"]
  else []

/-- The chunk of a deposit. -/
def record (deposit : Deposit) : Option String :=
  if run.data.csv then
    some (String.intercalate "," [deposit.txHash, deposit.blockNumber, deposit.fromAddress,
      deposit.forwarderAddress, deposit.amount, deposit.status, deposit.detectedAt] ++ "\n")
  else (run.stringify deposit).map (· ++ "\n")

/-- The file that the export should leave. -/
def complete : List (Option String) := run.header.map some ++ run.matching.map run.record

end Run

def batchSize : Nat := 1000

/-- `generateData` awaits a query from an offset, or has ended. -/
inductive Producer where
  | findMany (offset : Nat)
  | ended
  deriving DecidableEq

/-- `executeExport`: about to test the condition of its loop, waiting for a chunk or for the drain
of the stream, past the loop with `end` called and waiting for `finish`, or returned. -/
inductive Consumer where
  | loop
  | waiting
  | draining
  | finishing
  | returned
  deriving DecidableEq

/-- The generator, the two asynchronous functions, and the stream. -/
structure State where
  chunks : List String
  ended : Bool
  producer : Producer
  consumer : Consumer
  file : List String
  streamEnded : Bool
  deriving DecidableEq

inductive Action where
  /-- The query is answered, or rejected. -/
  | answer (found : Bool)
  /-- The loop goes on; whether `write` asks for more. -/
  | iterate (canContinue : Bool)
  | drain
  | finish
  deriving DecidableEq

/-- `push` of some chunks, which resolves a waiting promise. -/
def State.push (state : State) (chunks : List String) : State :=
  { state with
    chunks := state.chunks ++ chunks
    consumer :=
      if chunks ≠ [] ∧ state.consumer = .waiting then .loop else state.consumer }

/-- A batch from an offset, up to a deposit whose chunk cannot be made. -/
def State.batch (state : State) (run : Run) (offset : Nat) : State :=
  let deposits := (run.matching.drop offset).take batchSize
  let records := deposits.map run.record
  { state.push ((records.takeWhile Option.isSome).filterMap id) with
    producer :=
      if records.all Option.isSome ∧ batchSize ≤ deposits.length ∧ state.ended = false then
        .findMany (offset + batchSize)
      else .ended }

/-- A step between two awaits. -/
def step (run : Run) (state : State) : Action → Option State
  | .answer found =>
    match state.producer with
    | .findMany offset => some (if found then state.batch run offset
        else { state with producer := .ended })
    | .ended => none
  | .iterate canContinue =>
    if state.consumer = .loop then
      match state.chunks with
      | chunk :: rest => some { state with
          chunks := rest
          file := state.file ++ [chunk]
          consumer := if canContinue then .loop else .draining }
      | [] => some { state with consumer := if state.ended then .finishing else .waiting }
    else none
  | .drain => if state.consumer = .draining then some { state with consumer := .loop } else none
  -- a stream finishes once it was ended, which no statement does
  | .finish =>
    if state.consumer = .finishing ∧ state.streamEnded = true then
      some { state with consumer := .returned }
    else none

/-- The generator was created, with its first query sent. -/
def Run.started (run : Run) : State := ⟨run.header, false, .findMany 0, .loop, [], false⟩

/-- `executeExport`. -/
def Run.executeExport (run : Run) : TransitionSystem State Action where
  Initial state := state = run.started
  step := step run

/-- Some order of the steps returns with the complete file. -/
def Run.Completes (run : Run) : Prop :=
  ∃ state, run.executeExport.Reachable Unrestricted state ∧ state.consumer = .returned ∧
    state.file.map some = run.complete

variable {run : Run} {state : State}

/-- The loop has not been left, so that `end` was not called. -/
def State.InLoop (state : State) : Prop :=
  state.ended = false ∧ state.consumer ≠ .finishing ∧ state.consumer ≠ .returned

theorem State.InLoop.step {action : Action} {next : State} (inLoop : state.InLoop)
    (transition : step run state action = some next) : next.InLoop := by
  obtain ⟨notEnded, notFinishing, notReturned⟩ := inLoop
  cases action with
  | answer found =>
    simp only [Export.step] at transition
    split at transition
    · cases transition
      split
      · refine ⟨notEnded, ?_, ?_⟩ <;> simp only [State.batch, State.push] <;> split <;> simp_all
      · exact ⟨notEnded, notFinishing, notReturned⟩
    · cases transition
  | iterate canContinue =>
    simp only [Export.step, notEnded] at transition
    split at transition
    · split at transition <;> cases transition
      · refine ⟨rfl, ?_, ?_⟩ <;> dsimp only <;> split <;> simp
      · exact ⟨rfl, by simp, by simp⟩
    · cases transition
  | drain =>
    simp only [Export.step] at transition
    split at transition <;> cases transition
    exact ⟨notEnded, by simp, by simp⟩
  | finish =>
    simp only [Export.step, notFinishing, false_and, if_false] at transition
    cases transition

theorem inLoop_of_reachable (reached : run.executeExport.Reachable Unrestricted state) :
    state.InLoop := by
  refine reached.invariant ?_ fun before action next inLoop _ => inLoop.step
  rintro _ rfl
  exact ⟨rfl, by simp [Run.started], by simp [Run.started]⟩

/-- No export returns, whatever its client, its filter and the deposits. -/
theorem export_never_completes (run : Run) : ¬ run.Completes := by
  rintro ⟨state, reached, returned, -⟩
  exact (inLoop_of_reachable reached).2.2 returned

/-- A client without deposits. -/
def emptyRun : Run := ⟨⟨7, true, none⟩, [], fun _ => none⟩

/-- The file holds the header, and no step is left. -/
theorem export_hangs : ¬ emptyRun.Completes ∧
    ∃ state, emptyRun.executeExport.Reachable Unrestricted state ∧
      state.file.map some = emptyRun.complete ∧ ∀ action, step emptyRun state action = none := by
  refine ⟨fun ⟨_, reached, returned, _⟩ => (inLoop_of_reachable reached).2.2 returned, ?_⟩
  obtain ⟨state, reached, found⟩ := @exists_reachable _ _ emptyRun.executeExport Unrestricted _
    emptyRun.started (fun state => state = ⟨[], false, .ended, .waiting, emptyRun.header, false⟩) _
    rfl [.answer true, .iterate true, .iterate true] (by decide +kernel)
  obtain rfl := found
  exact ⟨_, reached, rfl, fun action => by cases action <;> rfl⟩

end CryptoVaultHub.Export
