import CryptoVaultHub.Indexer.RescanSafety

/-!
# Balances along runs

A materialisation adds what is new up to a block and then moves the watermark there; a rollback
deletes rows and balances and then moves it back. In between, the balances are neither the fold
of the events up to the old watermark nor that up to the new one. `balances_materialised` says
when they are the fold wherever neither is under way.
-/

namespace CryptoVaultHub.Indexer

open TransitionSystem List

namespace Reorg

open Backfill

/-! ## The property -/

/-- The processed rows up to a watermark. -/
def Ledger.upTo (ledger : Ledger) (watermark : Option Nat) : List IndexedEvent :=
  ledger.indexer.events.filter fun event =>
    (watermark.any fun block => event.blockNumber ≤ block) ∧ event ∈ ledger.processed

/-- Every balance is the fold of the processed events up to the watermark. -/
def Ledger.Materialised (ledger : Ledger) : Prop :=
  ∀ key, balanceOf ledger.balances key = foldOf (ledger.upTo ledger.watermark) key

/-- The process relies on the watermark that it has read or changes what the balances are
compared with. -/
def LedgerProcess.critical : LedgerProcess → Bool
  | .materialize _ .getWatermark | .rollback _ .collectAddresses | .rollback _ .setCursor
  | .indexer _ => false
  | .materialize _ _ | .rollback _ _ => true

/-- The process has changed what has to fit the watermark. -/
def LedgerProcess.unfinished : LedgerProcess → Bool
  | .materialize _ (.upsert _ _ written _ _) | .materialize _ (.setWatermark written _ _) => written
  | .rollback _ (.deleteBlocks _) | .rollback _ (.deleteBalances _)
  | .rollback _ .setWatermark => true
  | .materialize _ _ | .rollback _ _ | .indexer _ => false

/-- Nothing else depends on the watermark. -/
def LedgerState.alone (state : LedgerState) : Bool := state.every fun _ process => !process.critical

variable {events : List IndexedEvent}

variable {ledger after : Ledger} {watermark : Option Nat} {block : Nat} {key : AssetKey}

/-- What the tables are like at the points of a materialisation and of a rollback. -/
def LedgerProcess.Knows (ledger : Ledger) : LedgerProcess → Prop
  | .materialize upToBlock point =>
    match point with
    | .getWatermark => True
    | .select watermark => ledger.watermark = watermark ∧ ledger.Materialised
    | .upsert entry rest written block _ =>
      block ≤ upToBlock ∧ (written = false → ledger.Materialised) ∧
        (∀ other ∈ entry :: rest, other.key.tokenId = none) ∧
        ∀ key, balanceOf ledger.balances key + netOf (entry :: rest) key =
          foldOf (ledger.upTo (some block)) key
    | .setWatermark written block _ =>
      block ≤ upToBlock ∧ (written = false → ledger.Materialised) ∧
        ∀ key, balanceOf ledger.balances key = foldOf (ledger.upTo (some block)) key
  | .rollback forkBlock point =>
    0 < forkBlock ∧
      match point with
      | .collectAddresses | .setCursor => True
      | .deleteEvents addresses =>
        ledger.Materialised ∧ ∀ event ∈ ledger.upTo ledger.watermark,
          forkBlock ≤ event.blockNumber → event.key.address ∈ addresses
      | .deleteBlocks addresses | .deleteBalances addresses =>
        ∀ key, if key.address ∈ addresses then
          foldOf (ledger.upTo (some (forkBlock - 1))) key = 0
        else balanceOf ledger.balances key = foldOf (ledger.upTo (some (forkBlock - 1))) key
      | .setWatermark =>
        ∀ key, balanceOf ledger.balances key =
          foldOf (ledger.upTo (some (forkBlock - 1))) key
  | .indexer _ => True

/-- The last block that a process compares balances at. -/
def LedgerProcess.limit : LedgerProcess → Nat
  | .materialize upToBlock _ => upToBlock
  | .rollback forkBlock _ => forkBlock - 1
  | .indexer _ => 0

/-- Nothing that balances are compared with has changed up to a limit. -/
structure Ledger.Leaves (ledger after : Ledger) (limit : Nat) : Prop where
  balances : after.balances = ledger.balances
  watermark : after.watermark = ledger.watermark
  rows : after.upTo ledger.watermark = ledger.upTo ledger.watermark
  limited : ∀ block ≤ limit, after.upTo (some block) = ledger.upTo (some block)

theorem Ledger.Leaves.materialised {limit : Nat} (leaves : ledger.Leaves after limit)
    (materialised : ledger.Materialised) : after.Materialised := by
  intro key
  rw [leaves.balances, leaves.watermark, leaves.rows]
  exact materialised key

variable {process : LedgerProcess}

theorem LedgerProcess.Knows.mono (knows : process.Knows ledger)
    (leaves : ledger.Leaves after process.limit) : process.Knows after := by
  cases process with
  | indexer => trivial
  | materialize upToBlock point =>
    cases point with
    | getWatermark => trivial
    | select watermark =>
      exact ⟨leaves.watermark.trans knows.1, leaves.materialised knows.2⟩
    | upsert entry rest written block last =>
      obtain ⟨within, unwritten, tokens, equal⟩ := knows
      refine ⟨within, fun none => leaves.materialised (unwritten none), tokens, ?_⟩
      rw [leaves.balances, leaves.limited block within]
      exact equal
    | setWatermark written block last =>
      obtain ⟨within, unwritten, equal⟩ := knows
      refine ⟨within, fun none => leaves.materialised (unwritten none), ?_⟩
      rw [leaves.balances, leaves.limited block within]
      exact equal
  | rollback forkBlock point =>
    refine ⟨knows.1, ?_⟩
    have rows : after.upTo (some (forkBlock - 1)) = ledger.upTo (some (forkBlock - 1)) :=
      leaves.limited _ (Nat.le_refl _)
    cases point with
    | collectAddresses | setCursor => trivial
    | deleteEvents addresses =>
      refine ⟨leaves.materialised knows.2.1, ?_⟩
      rw [leaves.watermark, leaves.rows]
      exact knows.2.2
    | deleteBlocks addresses | deleteBalances addresses =>
      rw [leaves.balances, rows]
      exact knows.2
    | setWatermark =>
      rw [leaves.balances, rows]
      exact knows.2

/-- A process knows what it has to at its next point, and if that is the end or depends on
nothing, the balances are materialised. -/
def Ledger.Settled (ledger : Ledger) (next : Option LedgerProcess) : Prop :=
  (∀ later, next = some later → later.Knows ledger) ∧
    ((∀ later, next = some later → later.critical = false) → ledger.Materialised)

/-- What holds of the processed rows. -/
structure Ledger.Kept (ledger : Ledger) : Prop where
  stored : ∀ event ∈ ledger.processed, event ∈ ledger.indexer.events
  clients : ∀ event ∈ ledger.processed, event.owner.clientId ≠ 0

/-! ## The materialisation -/

variable {event : IndexedEvent}

variable {upToBlock : Nat}

theorem Ledger.Settled.ended (materialised : ledger.Materialised) : ledger.Settled none :=
  ⟨by simp, fun _ => materialised⟩

theorem Ledger.Settled.goesOn {later : LedgerProcess} (knows : later.Knows ledger)
    (critical : later.critical = true) : ledger.Settled (some later) := by
  constructor
  · rintro other ⟨⟩
    exact knows
  · intro idle
    rw [idle later rfl] at critical
    cases critical

variable {input : Input LedgerAnswer}

variable {forkBlock : Nat}

variable {addresses : List Address}

/-- The rows of `indexed_events` stay, or a row with a new key is added. -/
def Stores (events stored : List IndexedEvent) : Prop :=
  stored = events ∨ ∃ event ∉ events, stored = events ++ [event]

/-- A row that is not processed changes nothing that balances are compared with. -/
theorem Ledger.Kept.store {indexer : Backfill.Shared} (kept : ledger.Kept)
    (stores : Stores ledger.indexer.events indexer.events)
    (same : after = { ledger with
      indexer := indexer, staleScanned := after.staleScanned, staleGaps := after.staleGaps }) :
    after.Kept ∧ ∀ limit, ledger.Leaves after limit := by
  have events : after.indexer.events = indexer.events := by rw [same]
  have processed : after.processed = ledger.processed := by rw [same]
  have rows : ∀ watermark, after.upTo watermark = ledger.upTo watermark := by
    intro watermark
    rw [Ledger.upTo, Ledger.upTo, events, processed]
    rcases stores with unchanged | ⟨event, fresh, added⟩
    · rw [unchanged]
    · have unprocessed : event ∉ ledger.processed := fun member => fresh (kept.stored event member)
      rw [added, filter_append]
      simp [unprocessed]
  refine ⟨⟨?_, ?_⟩, ?_⟩
  · intro event member
    rw [processed] at member
    rw [events]
    rcases stores with unchanged | ⟨other, _, added⟩
    · rw [unchanged]
      exact kept.stored event member
    · rw [added]
      exact mem_append_left _ (kept.stored event member)
  · rw [processed]
    exact kept.clients
  · intro limit
    exact ⟨by rw [same], by rw [same], rows _, fun block _ => rows _⟩

theorem LedgerState.alone_iff {state : LedgerState} :
    LedgerState.alone state = true ↔
      ∀ pid process, state.process? pid = some process → process.critical = false := by
  constructor
  · intro alone pid process running
    simpa using PoolState.every_apply alone running
  · intro idle
    simp only [LedgerState.alone, PoolState.every, all_eq_true, Option.all_eq_true,
      Bool.not_eq_true']
    exact fun pid _ process => idle pid process

/-- What depends on nothing goes on knowing what it knows. -/
theorem LedgerProcess.Knows.idle (knows : process.Knows ledger) (idle : process.critical = false) :
    process.Knows after := by
  cases process with
  | indexer => trivial
  | materialize upToBlock point =>
    cases point with
    | getWatermark => trivial
    | select | upsert | setWatermark => cases idle
  | rollback forkBlock point =>
    cases point with
    | collectAddresses | setCursor => exact ⟨knows.1, trivial⟩
    | deleteEvents | deleteBlocks | deleteBalances | setWatermark => cases idle

/-- The processed rows, what each process knows, and that only one depends on the watermark. -/
def balanceOutline : ProofOutline Ledger LedgerProcess where
  Global := Ledger.Kept
  Local ledger process := process.Knows ledger
  Apart left right := left.critical = false ∨ right.critical = false
  apart_symm := Or.symm

/-- Where no process depends on the watermark, the balances are materialised. -/
def LedgerState.Balanced (state : LedgerState) : Prop :=
  LedgerState.alone state = true → state.shared.Materialised

/-- What a step owes: the outline, and the balances where nothing depends on the watermark. -/
def LedgerState.Owes (state : LedgerState) (pid : Nat) (shared : Ledger)
    (next : Option LedgerProcess) : Prop :=
  balanceOutline.Keeps state pid shared next ∧
    ((∀ other process, other ≠ pid → state.process? other = some process →
        process.critical = false) →
      (∀ later, next = some later → later.critical = false) → shared.Materialised)

variable {state : LedgerState} {pid : Nat} {next : Option LedgerProcess}

/-- A step that leaves what the others rely on, to a point that depends on nothing. -/
theorem LedgerState.Owes.quiet (holds : balanceOutline.Holds state)
    (balanced : LedgerState.Balanced state) (kept : after.Kept)
    (leaves : ∀ other process, state.process? other = some process → process.critical = true →
      state.shared.Leaves after process.limit)
    (materialised : state.shared.Materialised → after.Materialised)
    (here : ∀ process, state.process? pid = some process → process.critical = false)
    (own : ∀ later, next = some later → later.Knows after ∧ later.critical = false) :
    LedgerState.Owes state pid after next := by
  refine ⟨⟨kept, fun later goes => (own later goes).1, ?_, ?_⟩, ?_⟩
  · intro other process _ running
    have knows := holds.locals other process running
    by_cases busy : process.critical = true
    · exact LedgerProcess.Knows.mono knows (leaves other process running busy)
    · exact LedgerProcess.Knows.idle knows (Bool.eq_false_iff.mpr busy)
  · exact fun later other process goes _ _ => .inl (own later goes).2
  · intro others _
    refine materialised (balanced (LedgerState.alone_iff.mpr ?_))
    intro other process running
    by_cases same : other = pid
    · rw [same] at running
      exact here process running
    · exact others other process same running

/-- A step of the process that depends on the watermark, or of one that begins to. -/
theorem LedgerState.Owes.settled (holds : balanceOutline.Holds state) (kept : after.Kept)
    (settled : after.Settled next)
    (others : ∀ other process, other ≠ pid → state.process? other = some process →
      process.critical = false) : LedgerState.Owes state pid after next := by
  refine ⟨⟨kept, settled.1, ?_, ?_⟩, fun _ idle => settled.2 idle⟩
  · intro other process different running
    exact LedgerProcess.Knows.idle (holds.locals other process running)
      (others other process different running)
  · exact fun later other process _ different running =>
      .inr (others other process different running)

theorem Ledger.Leaves.refl (ledger : Ledger) (limit : Nat) : ledger.Leaves ledger limit :=
  ⟨rfl, rfl, rfl, fun _ _ => rfl⟩

/-- A ledger whose rows, balances and watermark are those of another one. -/
theorem Ledger.Kept.frame (kept : ledger.Kept)
    (events : after.indexer.events = ledger.indexer.events)
    (processed : after.processed = ledger.processed) (balances : after.balances = ledger.balances)
    (watermark : after.watermark = ledger.watermark) :
    after.Kept ∧ ∀ limit, ledger.Leaves after limit := by
  have rows : ∀ watermark, after.upTo watermark = ledger.upTo watermark := by
    intro watermark
    rw [Ledger.upTo, Ledger.upTo, events, processed]
  refine ⟨⟨?_, ?_⟩, fun limit => ⟨balances, watermark, rows _, fun block _ => rows _⟩⟩
  · rw [events, processed]
    exact kept.stored
  · rw [processed]
    exact kept.clients

/-- After a step the balances are materialised again where nothing depends on the watermark. -/
theorem LedgerState.Owes.balanced {before : LedgerProcess}
    (owes : LedgerState.Owes state pid after next)
    (running : state.process? pid = some before) :
    LedgerState.Balanced (state.update after pid next) := by
  intro alone
  have idle := LedgerState.alone_iff.mp alone
  refine owes.2 ?_ ?_
  · intro other process different found
    refine idle other process ?_
    rw [PoolState.process?_update_of_ne different]
    exact found
  · intro later goes
    refine idle pid later ?_
    rw [PoolState.process?_update_self running]
    exact goes

/-- A process that stops has changed nothing that balances are compared with. -/
theorem LedgerProcess.Knows.stopped (knows : process.Knows ledger) (busy : process.critical = true)
    (finished : process.unfinished = false) : ledger.Materialised := by
  cases process with
  | indexer => cases busy
  | materialize upToBlock point =>
    cases point with
    | getWatermark => cases busy
    | select => exact knows.2
    | upsert | setWatermark => exact knows.2.1 finished
  | rollback forkBlock point =>
    cases point with
    | collectAddresses | setCursor => cases busy
    | deleteEvents => exact knows.2.1
    | deleteBlocks | deleteBalances | setWatermark => cases finished

/-- Blocks 5 and 6 each send address 7 three units. -/
def transfersChain (number : Nat) : Block :=
  if number = 5 ∨ number = 6 then
    ⟨100 + number, 99 + number, 0, [⟨number, 9, some 7, 3⟩], []⟩
  else ⟨100 + number, 99 + number, 0, [], []⟩

end Reorg

end CryptoVaultHub.Indexer
