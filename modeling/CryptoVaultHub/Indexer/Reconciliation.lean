import CryptoVaultHub.Semantics.Execution

/-!
# Reconciling balances

`reconcileChain` compares the balances of the monitored addresses of a chain with the cached
ones, in batches and within a time limit. How far it has come is kept in Redis as a position in
the list of active addresses, which grows and shrinks between two runs. A run that has reached
the end leaves the length of its list.

The runs on one chain are modelled, with changes of the table between them. Which addresses have
been active since the run that last started at the first one, which of these have been compared,
and at which address the last run stopped, is not in the program.
-/

namespace CryptoVaultHub.Indexer.Reconciliation

open TransitionSystem

/-! ## Tables -/

/-- A row of `monitored_addresses` of the chain. -/
structure MonitoredAddress where
  id : Nat
  address : String
  isActive : Bool
deriving DecidableEq

/-- A row of `tokens` of the chain. -/
structure Token where
  contractAddress : String
  isNative : Bool
deriving DecidableEq

/-- The rows of the chain in the order of their ids. -/
structure AddressTable where
  rows : List MonitoredAddress
  ordered : (rows.map MonitoredAddress.id).Pairwise (· < ·)

namespace AddressTable

/-- `findMany({ where: { chainId, isActive: true }, orderBy: { id: 'asc' } })`. -/
def active (table : AddressTable) : List MonitoredAddress :=
  table.rows.filter MonitoredAddress.isActive

/-- Activates or deactivates a row. -/
def setActive (table : AddressTable) (id : Nat) (isActive : Bool) : AddressTable where
  rows := table.rows.map fun row => if row.id = id then { row with isActive := isActive } else row
  ordered := by
    have same : (table.rows.map fun row =>
        if row.id = id then { row with isActive := isActive } else row).map MonitoredAddress.id =
          table.rows.map MonitoredAddress.id := by
      rw [List.map_map]
      refine List.map_congr_left fun row _ => ?_
      simp only [Function.comp]
      split <;> rfl
    rw [same]
    exact table.ordered

/-- A new row, whose id is larger than all before. -/
def insert (table : AddressTable) (id : Nat) (address : String)
    (last : ∀ row ∈ table.rows, row.id < id) : AddressTable where
  rows := table.rows ++ [⟨id, address, true⟩]
  ordered := by
    rw [List.map_append]
    refine List.pairwise_append.mpr ⟨table.ordered, List.pairwise_singleton .., ?_⟩
    intro before member new only
    obtain ⟨row, stored, rfl⟩ := List.mem_map.mp member
    rw [List.map_singleton, List.mem_singleton] at only
    exact only ▸ last row stored

theorem active_ordered (table : AddressTable) :
    table.active.Pairwise fun first second => first.id < second.id :=
  (List.pairwise_map.mp table.ordered).filter _

end AddressTable

/-! ## Batches -/

/-- A balance that is asked for; it is the native one without a token address. -/
structure CallMeta where
  address : String
  tokenAddress : Option String
deriving DecidableEq

/-- The calls for one address. -/
def callsFor (tokens : List Token) (row : MonitoredAddress) : List CallMeta :=
  ⟨row.address, none⟩ ::
    (tokens.filter fun token => !token.isNative).map fun token =>
      ⟨row.address, some token.contractAddress⟩

/-- The calls for the addresses of a batch. -/
def batchCalls (tokens : List Token) (rows : List MonitoredAddress) : List CallMeta :=
  rows.flatMap (callsFor tokens)

/-- A balance on the chain, next to the cached one. -/
structure Comparison where
  call : CallMeta
  onChainBalance : Nat
  cachedBalance : Nat
deriving DecidableEq

structure ReconciliationDiscrepancy where
  address : String
  tokenAddress : Option String
  onChainBalance : Nat
  cachedBalance : Nat
  difference : Int
deriving DecidableEq

/-- What a run meets outside: whether the time is up before a batch, whether the call for the
batch throws, the calls without a result, and the balances. -/
structure RunAnswers where
  late : Nat → Bool
  failing : Option Nat
  unsuccessful : List CallMeta
  balance : CallMeta → Nat

/-- The cached balances, and what was compared. -/
structure Progress where
  cache : CallMeta → Option Nat
  comparisons : List Comparison

/-- One result of `aggregate3`. -/
def Progress.compare (answers : RunAnswers) (progress : Progress) (call : CallMeta) : Progress :=
  if call ∈ answers.unsuccessful then progress
  else
    { cache := Function.update progress.cache call (some (answers.balance call))
      comparisons := progress.comparisons ++
        [⟨call, answers.balance call, (progress.cache call).getD 0⟩] }

def Comparison.discrepancy? (comparison : Comparison) : Option ReconciliationDiscrepancy :=
  if comparison.onChainBalance ≠ comparison.cachedBalance then
    some ⟨comparison.call.address, comparison.call.tokenAddress, comparison.onChainBalance,
      comparison.cachedBalance, comparison.onChainBalance - comparison.cachedBalance⟩
  else none

inductive RunEnd where
  | completed
  | timedOut (batchStart : Nat)
  | failed
deriving DecidableEq

/-- `ADDRESS_BATCH_SIZE`. -/
def addressBatchSize : Nat := 1000

/-- The loop over the batches. Each one goes on behind the one before, so that there are at most
as many as addresses. -/
def reconcileBatches (answers : RunAnswers) (tokens : List Token)
    (addresses : List MonitoredAddress) :
    (left batch batchStart : Nat) → Progress → Progress × RunEnd
  | 0, _, _, progress => (progress, .completed)
  | left + 1, batch, batchStart, progress =>
    if batchStart < addresses.length then
      if answers.late batch then (progress, .timedOut batchStart)
      else if answers.failing = some batch then (progress, .failed)
      else
        reconcileBatches answers tokens addresses left (batch + 1)
          (batchStart + addressBatchSize)
          ((batchCalls tokens ((addresses.drop batchStart).take addressBatchSize)).foldl
            (Progress.compare answers) progress)
    else (progress, .completed)

/-- Where a run starts. -/
def startOffset (watermark : Option Nat) (length : Nat) : Nat :=
  if watermark.getD 0 ≥ length then 0 else watermark.getD 0

structure RunResult where
  watermark : Option Nat
  progress : Progress
  ending : RunEnd

/-- `reconcileChain`, for a list that is not empty. -/
def reconcileChain (watermark : Option Nat) (cache : CallMeta → Option Nat)
    (addresses : List MonitoredAddress) (tokens : List Token) (answers : RunAnswers) : RunResult :=
  let (progress, ending) :=
    reconcileBatches answers tokens addresses addresses.length 0
      (startOffset watermark addresses.length) ⟨cache, []⟩
  { watermark :=
      match ending with
      | .completed => some addresses.length
      | .timedOut batchStart => some batchStart
      | .failed => watermark
    progress := progress
    ending := ending }

/-- The discrepancies that a run returns, unless it throws. -/
def RunResult.discrepancies (result : RunResult) : Option (List ReconciliationDiscrepancy) :=
  match result.ending with
  | .completed | .timedOut _ => some (result.progress.comparisons.filterMap (·.discrepancy?))
  | .failed => none

/-- The addresses of which every balance was compared. -/
def RunResult.compared (result : RunResult) (tokens : List Token)
    (addresses : List MonitoredAddress) : List Nat :=
  (addresses.filter fun row => (callsFor tokens row).all fun call =>
    call ∈ result.progress.comparisons.map Comparison.call).map MonitoredAddress.id

/-! ## Runs -/

/-- The runs since the last one that started at the first address: the addresses that have been
active ever since, those of which every balance was compared, and the address at which the last
run stopped. -/
structure Cycle where
  throughout : List Nat
  compared : List Nat
  resume : Nat
deriving DecidableEq

/-- The table, the watermark and the cached balances; the runs that have not reached the end of
the list yet, whether the last run has, and whether the property has been kept. -/
structure ChainState where
  table : AddressTable
  watermark : Option Nat
  cache : CallMeta → Option Nat
  cycle : Option Cycle
  reachedEnd : Bool
  kept : Bool

inductive ReconciliationAction where
  | insert (id : Nat) (address : String)
  | activate (id : Nat)
  | deactivate (id : Nat)
  | changeCache (cache : CallMeta → Option Nat)
  | reconcileChain (tokens : List Token) (answers : RunAnswers)

namespace ChainState

variable (state : ChainState)

/-- Where the next run starts. -/
def start : Nat :=
  startOffset state.watermark state.table.active.length

/-- The runs up to this one, if any has started at the first address. -/
def cycleWith (tokens : List Token) (result : RunResult) : Option Cycle :=
  let compared := result.compared tokens state.table.active
  let resume :=
    match result.ending with
    | .timedOut batchStart => (state.table.active[batchStart]?.map MonitoredAddress.id).getD 0
    | .completed | .failed => 0
  if state.start = 0 then some ⟨state.table.active.map MonitoredAddress.id, compared, resume⟩
  else state.cycle.map fun cycle => ⟨cycle.throughout, cycle.compared ++ compared, resume⟩

/-- A run that has reached the end has compared all that it should. -/
@[reducible] def Covers (finished : Option Cycle) : Prop :=
  ∀ cycle ∈ finished, cycle.throughout ⊆ cycle.compared

/-- A run; without addresses it does nothing. -/
def runOnce (tokens : List Token) (answers : RunAnswers) : ChainState :=
  if state.table.active = [] then state
  else
    let result :=
      Reconciliation.reconcileChain state.watermark state.cache state.table.active tokens answers
    let cycle := state.cycleWith tokens result
    { state with
      watermark := result.watermark
      cache := result.progress.cache
      cycle := if result.ending = .completed then none else cycle
      reachedEnd := decide (result.ending = .completed)
      kept := state.kept && decide (state.reachedEnd = true → state.start = 0) &&
        decide (result.ending = .completed → Covers cycle) }

/-- A deactivated address is not active throughout any more. -/
def deactivate (id : Nat) : ChainState :=
  { state with
    table := state.table.setActive id false
    cycle := state.cycle.map fun cycle =>
      { cycle with throughout := cycle.throughout.filter fun other => other ≠ id } }

def step : ReconciliationAction → Option ChainState
  | .insert id address =>
    if last : ∀ row ∈ state.table.rows, row.id < id then
      some { state with table := state.table.insert id address last }
    else none
  | .activate id => some { state with table := state.table.setActive id true }
  | .deactivate id => some (state.deactivate id)
  | .changeCache cache => some { state with cache := cache }
  | .reconcileChain tokens answers => some (state.runOnce tokens answers)

/-- No run has been made yet. -/
structure Initial : Prop where
  watermark : state.watermark = none
  cycle : state.cycle = none
  reachedEnd : state.reachedEnd = false
  kept : state.kept = true

end ChainState

def reconciliation : TransitionSystem ChainState ReconciliationAction where
  Initial := ChainState.Initial
  step := ChainState.step

/-! ## The property and the condition -/

/-- Every run that has reached the end has completed the comparison of what was active since the
run that had started at the first address, and every run after one that has reached the end has
started at the first address. -/
def ChainState.Kept (state : ChainState) : Prop :=
  state.kept = true

/-- Nothing fails but by time-outs. -/
@[reducible] def RunAnswers.NoFailure (answers : RunAnswers) : Prop :=
  answers.failing = none ∧ answers.unsuccessful = []

/-- Nothing fails in a run but by time-outs. -/
def ChainState.OnlyTimeouts (_ : ChainState) : ReconciliationAction → Prop
  | .reconcileChain _ answers => answers.NoFailure
  | .insert .. | .activate _ | .deactivate _ | .changeCache _ => True

/-- When a run starts, the list has not outgrown a watermark left at its end, and no address that
has been active throughout has moved from where the last run stopped to before the watermark. -/
structure ChainState.InPlace (state : ChainState) : Prop where
  atEnd : state.reachedEnd = true → state.table.active.length ≤ state.watermark.getD 0
  midway : ∀ cycle ∈ state.cycle, ∀ row ∈ state.table.active.take state.start,
    row.id ∈ cycle.throughout → row.id < cycle.resume

instance (state : ChainState) : Decidable state.InPlace :=
  decidable_of_iff ((state.reachedEnd = true →
      state.table.active.length ≤ state.watermark.getD 0) ∧
    ∀ cycle ∈ state.cycle, ∀ row ∈ state.table.active.take state.start,
      row.id ∈ cycle.throughout → row.id < cycle.resume)
    ⟨fun ⟨atEnd, midway⟩ => ⟨atEnd, midway⟩, fun ⟨atEnd, midway⟩ => ⟨atEnd, midway⟩⟩

def ChainState.Undisturbed (state : ChainState) : ReconciliationAction → Prop
  | .reconcileChain _ answers => answers.NoFailure ∧ state.InPlace
  | .insert .. | .activate _ | .deactivate _ | .changeCache _ => True

instance (state : ChainState) : ∀ action, Decidable (state.Undisturbed action)
  | .reconcileChain _ answers =>
    inferInstanceAs (Decidable (answers.NoFailure ∧ state.InPlace))
  | .insert .. | .activate _ | .deactivate _ | .changeCache _ => inferInstanceAs (Decidable True)

instance (state : ChainState) : ∀ action, Decidable (state.OnlyTimeouts action)
  | .reconcileChain _ answers => inferInstanceAs (Decidable answers.NoFailure)
  | .insert .. | .activate _ | .deactivate _ | .changeCache _ => inferInstanceAs (Decidable True)

/-! ## One run -/

variable {answers : RunAnswers} {tokens : List Token} {addresses : List MonitoredAddress}

/-- The balances that were compared. -/
def Progress.calls (progress : Progress) : List CallMeta :=
  progress.comparisons.map Comparison.call

theorem compare_calls (healthy : answers.NoFailure) (calls : List CallMeta)
    (progress : Progress) :
    (calls.foldl (Progress.compare answers) progress).calls = progress.calls ++ calls := by
  induction calls generalizing progress with
  | nil => simp
  | cons call rest ih =>
    have one : (progress.compare answers call).calls = progress.calls ++ [call] := by
      simp [Progress.compare, healthy.2, Progress.calls]
    rw [List.foldl_cons, ih, one, List.append_assoc, List.singleton_append]

/-- The position at which a run has stopped. -/
def RunEnd.stop (length : Nat) : RunEnd → Nat
  | .completed => length
  | .timedOut batchStart => batchStart
  | .failed => 0

/-- Every balance of the addresses at these positions was compared. -/
def Reads (tokens : List Token) (addresses : List MonitoredAddress) (first stop : Nat)
    (calls : List CallMeta) : Prop :=
  ∀ index row, addresses[index]? = some row → first ≤ index → index < stop →
    callsFor tokens row ⊆ calls

/-- What a run does when nothing fails: it keeps what was compared, it stops at the end of the
list or before it, and it compares everything up to there. -/
structure BatchesDone (tokens : List Token) (addresses : List MonitoredAddress) (first : Nat)
    (before : Progress) (after : Progress × RunEnd) : Prop where
  keeps : before.calls ⊆ after.1.calls
  succeeds : after.2 ≠ .failed
  within : ∀ batchStart, after.2 = .timedOut batchStart → batchStart < addresses.length
  reads : Reads tokens addresses first (after.2.stop addresses.length) after.1.calls

/-- A batch compares the balances of its addresses. -/
theorem batch_reads (healthy : answers.NoFailure) (first : Nat) (progress : Progress) :
    Reads tokens addresses first (first + addressBatchSize)
      ((batchCalls tokens ((addresses.drop first).take addressBatchSize)).foldl
        (Progress.compare answers) progress).calls := by
  intro index row found least less call asked
  rw [compare_calls healthy]
  refine List.mem_append_right _ (List.mem_flatMap.mpr ⟨row, ?_, asked⟩)
  refine List.mem_of_getElem? (i := index - first) ?_
  rw [List.getElem?_take_of_lt (by omega), List.getElem?_drop, Nat.add_sub_cancel' least]
  exact found

/-- The loop ends behind the last address. -/
theorem batches_finished {first : Nat} (past : addresses.length ≤ first) (progress : Progress) :
    BatchesDone tokens addresses first progress (progress, .completed) where
  keeps := List.Subset.refl _
  succeeds := by simp
  within := by simp
  reads := by
    intro index row found least less
    change index < addresses.length at less
    omega

theorem reconcileBatches_done (healthy : answers.NoFailure) (left batch first : Nat)
    (enough : addresses.length - first ≤ left) (progress : Progress) :
    BatchesDone tokens addresses first progress
      (reconcileBatches answers tokens addresses left batch first progress) := by
  induction left generalizing batch first progress with
  | zero => exact batches_finished (by omega) progress
  | succ left ih =>
    rw [reconcileBatches]
    by_cases more : first < addresses.length
    · rw [if_pos more]
      by_cases late : answers.late batch = true
      · rw [if_pos late]
        refine ⟨List.Subset.refl _, by simp, by simpa using more, ?_⟩
        intro index row found least less
        change index < first at less
        omega
      · rw [if_neg late, if_neg (by simp [healthy.1])]
        have positive : 0 < addressBatchSize := by decide
        have rest := ih (batch + 1) (first + addressBatchSize) (by omega)
          ((batchCalls tokens ((addresses.drop first).take addressBatchSize)).foldl
            (Progress.compare answers) progress)
        refine ⟨?_, rest.succeeds, rest.within, ?_⟩
        · refine List.Subset.trans ?_ rest.keeps
          rw [compare_calls healthy]
          exact List.subset_append_left ..
        · intro index row found least less
          by_cases inBatch : index < first + addressBatchSize
          · exact List.Subset.trans
              (batch_reads healthy first progress index row found least inBatch) rest.keeps
          · exact rest.reads index row found (by omega) less
    · rw [if_neg more]
      exact batches_finished (by omega) progress

/-- What a run has compared when nothing fails. -/
structure RunDone (tokens : List Token) (addresses : List MonitoredAddress) (first : Nat)
    (result : RunResult) : Prop where
  succeeds : result.ending ≠ .failed
  within : ∀ batchStart, result.ending = .timedOut batchStart → batchStart < addresses.length
  reads : ∀ index row, addresses[index]? = some row → first ≤ index →
    index < result.ending.stop addresses.length → row.id ∈ result.compared tokens addresses

theorem reconcileChain_done (healthy : answers.NoFailure) (watermark : Option Nat)
    (cache : CallMeta → Option Nat) :
    RunDone tokens addresses (startOffset watermark addresses.length)
      (reconcileChain watermark cache addresses tokens answers) := by
  have done : BatchesDone tokens addresses (startOffset watermark addresses.length) ⟨cache, []⟩ _ :=
    reconcileBatches_done healthy addresses.length 0 _ (Nat.sub_le ..) ⟨cache, []⟩
  refine ⟨done.succeeds, done.within, ?_⟩
  intro index row found least less
  refine List.mem_map.mpr ⟨row, List.mem_filter.mpr ⟨List.mem_of_getElem? found, ?_⟩, rfl⟩
  refine List.all_eq_true.mpr fun call asked => ?_
  exact decide_eq_true (done.reads index row found least less asked)

/-! ## The cycle -/

variable {state : ChainState}

/-- Of what has been active throughout, everything before the address at which the last run
stopped was compared. -/
structure Cycle.Tracks (cycle : Cycle) (active : List MonitoredAddress) : Prop where
  present : ∀ id ∈ cycle.throughout, ∃ row ∈ active, row.id = id
  compared : ∀ id ∈ cycle.throughout, id < cycle.resume → id ∈ cycle.compared

/-- The invariant of undisturbed runs. -/
structure ChainState.Tracked (state : ChainState) : Prop where
  kept : state.Kept
  cycle : ∀ cycle ∈ state.cycle, cycle.Tracks state.table.active

/-- A row that stays active keeps its id. -/
theorem AddressTable.active_setActive {table : AddressTable} {row : MonitoredAddress} {id : Nat}
    {isActive : Bool} (member : row ∈ table.active) (kept : row.id = id → isActive = true) :
    ∃ later ∈ (table.setActive id isActive).active, later.id = row.id := by
  obtain ⟨stored, active⟩ := List.mem_filter.mp member
  refine ⟨if row.id = id then { row with isActive := isActive } else row, ?_, ?_⟩
  · refine List.mem_filter.mpr ⟨List.mem_map_of_mem stored, ?_⟩
    split
    · rename_i same
      exact kept same
    · exact active
  · split <;> rfl

theorem Cycle.Tracks.mono {cycle : Cycle} {before after : List MonitoredAddress}
    (tracks : cycle.Tracks before) (kept : ∀ row ∈ before, row.id ∈ cycle.throughout →
      ∃ later ∈ after, later.id = row.id) : cycle.Tracks after where
  present := by
    intro id throughout
    obtain ⟨row, member, rfl⟩ := tracks.present id throughout
    exact kept row member throughout
  compared := tracks.compared

theorem ChainState.Tracked.deactivate (tracked : state.Tracked) (id : Nat) :
    (state.deactivate id).Tracked := by
  refine ⟨tracked.kept, ?_⟩
  intro cycle now
  obtain ⟨before, was, rfl⟩ := Option.map_eq_some_iff.mp now
  have tracks := tracked.cycle before was
  have fewer : Cycle.Tracks ⟨before.throughout.filter fun other => other ≠ id, before.compared,
      before.resume⟩ state.table.active :=
    ⟨fun other member => tracks.present other (List.mem_of_mem_filter member),
      fun other member => tracks.compared other (List.mem_of_mem_filter member)⟩
  refine fewer.mono ?_
  intro row member throughout
  refine AddressTable.active_setActive member fun same => ?_
  have other := (List.mem_filter.mp throughout).2
  simp [same] at other

/-- A position of the active rows and the ids before it. -/
theorem AddressTable.index_lt {table : AddressTable} {first second : Nat}
    {row other : MonitoredAddress} (found : table.active[first]? = some row)
    (follows : table.active[second]? = some other) (less : row.id < other.id) :
    first < second := by
  obtain ⟨firstBound, rfl⟩ := List.getElem?_eq_some_iff.mp found
  obtain ⟨secondBound, rfl⟩ := List.getElem?_eq_some_iff.mp follows
  rcases Nat.lt_trichotomy first second with before | same | behind
  · exact before
  · subst same
    exact absurd less (Nat.lt_irrefl _)
  · have ordered := List.pairwise_iff_getElem.mp table.active_ordered second first secondBound
      firstBound behind
    omega

/-- What was compared up to where a run has stopped. -/
theorem ChainState.cycleWith_spec (tracked : state.Tracked) (inPlace : state.InPlace)
    {result : RunResult} (done : RunDone tokens state.table.active state.start result) :
    ∀ cycle ∈ state.cycleWith tokens result,
      (∀ id ∈ cycle.throughout, ∃ index row, state.table.active[index]? = some row ∧ row.id = id ∧
        (index < result.ending.stop state.table.active.length → id ∈ cycle.compared)) ∧
      ∀ batchStart, result.ending = .timedOut batchStart →
        ∃ row, state.table.active[batchStart]? = some row ∧ cycle.resume = row.id := by
  have resumes : ∀ batchStart, result.ending = .timedOut batchStart →
      ∃ row, state.table.active[batchStart]? = some row := by
    intro batchStart stopped
    exact ⟨_, List.getElem?_eq_getElem (done.within batchStart stopped)⟩
  intro cycle now
  rw [ChainState.cycleWith] at now
  by_cases first : state.start = 0
  · rw [if_pos first] at now
    obtain rfl := Option.some.inj now
    constructor
    · intro id throughout
      obtain ⟨row, member, rfl⟩ := List.mem_map.mp throughout
      obtain ⟨index, found⟩ := List.mem_iff_getElem?.mp member
      exact ⟨index, row, found, rfl, fun less => done.reads index row found (by omega) less⟩
    · intro batchStart stopped
      obtain ⟨row, found⟩ := resumes batchStart stopped
      exact ⟨row, found, by simp [stopped, found]⟩
  · rw [if_neg first] at now
    obtain ⟨before, was, rfl⟩ := Option.map_eq_some_iff.mp now
    have tracks := tracked.cycle before was
    constructor
    · intro id throughout
      obtain ⟨row, member, rfl⟩ := tracks.present id throughout
      obtain ⟨index, found⟩ := List.mem_iff_getElem?.mp member
      refine ⟨index, row, found, rfl, fun less => ?_⟩
      by_cases passed : index < state.start
      · refine List.mem_append_left _ (tracks.compared row.id throughout ?_)
        refine inPlace.midway before was row (List.mem_of_getElem? (i := index) ?_) throughout
        rw [List.getElem?_take_of_lt passed]
        exact found
      · exact List.mem_append_right _ (done.reads index row found (by omega) less)
    · intro batchStart stopped
      obtain ⟨row, found⟩ := resumes batchStart stopped
      exact ⟨row, found, by simp [stopped, found]⟩

theorem ChainState.Tracked.runOnce (tracked : state.Tracked) (healthy : answers.NoFailure)
    (inPlace : state.InPlace) : (state.runOnce tokens answers).Tracked := by
  rw [ChainState.runOnce]
  split
  · exact tracked
  · have done : RunDone tokens state.table.active state.start
        (reconcileChain state.watermark state.cache state.table.active tokens answers) :=
      reconcileChain_done healthy state.watermark state.cache
    generalize reconcileChain state.watermark state.cache state.table.active tokens answers =
      result at done
    have spec := ChainState.cycleWith_spec tracked inPlace done
    have restarts : state.reachedEnd = true → state.start = 0 := by
      intro ended
      rw [ChainState.start, startOffset, if_pos (inPlace.atEnd ended)]
    constructor
    · have covers : result.ending = .completed → Covers (state.cycleWith tokens result) := by
        intro completed cycle now id throughout
        obtain ⟨index, row, found, -, compared⟩ := (spec cycle now).1 id throughout
        refine compared ?_
        rw [completed]
        exact (List.getElem?_eq_some_iff.mp found).1
      have kept : state.kept = true := tracked.kept
      simp only [ChainState.Kept, kept, Bool.true_and, Bool.and_eq_true, decide_eq_true_eq]
      exact ⟨restarts, covers⟩
    · intro cycle now
      change cycle ∈ (if result.ending = .completed then none else _) at now
      by_cases completed : result.ending = .completed
      · rw [if_pos completed] at now
        cases now
      · rw [if_neg completed] at now
        obtain ⟨covers, resumes⟩ := spec cycle now
        constructor
        · intro id throughout
          obtain ⟨index, row, found, same, -⟩ := covers id throughout
          exact ⟨row, List.mem_of_getElem? found, same⟩
        · intro id throughout less
          obtain ⟨index, row, found, rfl, compared⟩ := covers id throughout
          cases stopped : result.ending with
          | completed => exact absurd stopped completed
          | failed => exact absurd stopped done.succeeds
          | timedOut batchStart =>
            obtain ⟨next, follows, resume⟩ := resumes batchStart stopped
            rw [resume] at less
            rw [stopped] at compared
            exact compared (AddressTable.index_lt found follows less)

/-! ## Sequences of runs -/

/-- As long as the list does not outgrow the watermark that a run has left at its end, and no
address that was active throughout moves before the watermark unread, every address that is
active throughout is compared, and every run after one that has reached the end starts at the
first address. -/
theorem every_address_reconciled
    (reached : reconciliation.Reachable ChainState.Undisturbed state) : state.Kept := by
  have tracked : state.Tracked := by
    refine reached.invariant ?_ ?_
    · rintro start initial
      exact ⟨initial.kept, by simp [initial.cycle]⟩
    · intro before action after tracked allowed transition
      cases action with
      | insert id address =>
        simp only [reconciliation, ChainState.step] at transition
        split at transition
        · cases transition
          refine ⟨tracked.kept, fun cycle now => (tracked.cycle cycle now).mono ?_⟩
          intro row member _
          refine ⟨row, ?_, rfl⟩
          simp only [AddressTable.active, AddressTable.insert, List.filter_append]
          exact List.mem_append_left _ member
        · cases transition
      | activate id =>
        cases transition
        refine ⟨tracked.kept, fun cycle now => (tracked.cycle cycle now).mono ?_⟩
        exact fun row member _ => AddressTable.active_setActive member fun _ => rfl
      | deactivate id =>
        cases transition
        exact tracked.deactivate id
      | changeCache cache =>
        cases transition
        exact ⟨tracked.kept, tracked.cycle⟩
      | reconcileChain tokens answers =>
        cases transition
        exact tracked.runOnce allowed.1 allowed.2
  exact tracked.kept

/-! ## A list that grows -/

/-- One address, and no run yet. -/
def oneAddress : ChainState where
  table := ⟨[⟨1, "0xa", true⟩], by decide⟩
  watermark := none
  cache := fun _ => none
  cycle := none
  reachedEnd := false
  kept := true

theorem oneAddress_initial : reconciliation.Initial oneAddress := ⟨rfl, rfl, rfl, rfl⟩

/-- A run that is not too slow; every balance is 5. -/
def wholeRun : ReconciliationAction :=
  .reconcileChain [⟨"0xt", false⟩] ⟨fun _ => false, none, [], fun _ => 5⟩

/-- The first address is deactivated before the second run, which still starts at the first one. -/
theorem every_address_reconciled_sample :
    ∃ state : ChainState, state.watermark = some 1 ∧
      state.cache ⟨"0xb", some "0xt"⟩ = some 5 ∧ state.Kept := by
  obtain ⟨state, reached, watermark, compared⟩ : ∃ state,
      reconciliation.Reachable ChainState.Undisturbed state ∧
      state.watermark = some 1 ∧ state.cache ⟨"0xb", some "0xt"⟩ = some 5 :=
    exists_reachable oneAddress_initial
      [.insert 2 "0xb", wholeRun, .deactivate 1, wholeRun] (by decide +kernel)
  exact ⟨state, watermark, compared, every_address_reconciled reached⟩

/-- An address is added after a run that has reached the end: the next run starts behind the old
one, and so would every later run that finds a longer list. -/
theorem address_not_reconciled_again :
    ¬ ∀ state : ChainState, reconciliation.Reachable ChainState.OnlyTimeouts state →
      state.Kept := by
  intro always
  obtain ⟨state, reached, lost⟩ : ∃ state, reconciliation.Reachable ChainState.OnlyTimeouts state ∧
      state.kept = false :=
    exists_reachable oneAddress_initial [wholeRun, .insert 2 "0xb", wholeRun] (by decide +kernel)
  have kept : state.kept = true := always state reached
  rw [lost] at kept
  cases kept

end CryptoVaultHub.Indexer.Reconciliation
