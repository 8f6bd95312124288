import CryptoVaultHub.Indexer.BalanceFlows

/-!
# The rows of one block

`processBlock` can run on a block any number of times, and each time it can stop anywhere.
The native transfer of a transaction takes the log index 0, so it has the unique key of the
first log of the block when that log is of the same transaction. `block_stored_once_iff`
says when the rows of a block are its relevant transfers, each once.
-/

namespace CryptoVaultHub.Indexer

open List

/-! ## The table and its unique key -/

/-- The rows of `indexed_events`, of which no two have one key. -/
structure EventTable where
  rows : List IndexedEvent
  unique : (rows.map IndexedEvent.eventKey).Nodup

variable {table : EventTable} {event : IndexedEvent} {events : List IndexedEvent}

/-- A row of the key is stored. -/
def EventTable.taken (table : EventTable) (event : IndexedEvent) : Bool :=
  table.rows.any fun row => row.txHash = event.txHash ∧ row.logIndex = event.logIndex

theorem taken_iff : table.taken event = true ↔
    event.eventKey ∈ table.rows.map IndexedEvent.eventKey := by
  simp only [EventTable.taken, any_eq_true, decide_eq_true_eq, mem_map,
    IndexedEvent.eventKey, Prod.mk.injEq]

theorem storeEvent_of_taken (present : table.taken event = true) :
    storeEvent table.rows event = table.rows := by
  rw [storeEvent, if_pos]
  exact present

theorem storeEvent_of_free (free : ¬table.taken event = true) :
    storeEvent table.rows event = table.rows ++ [event] := by
  rw [storeEvent, if_neg]
  exact free

/-- `indexedEvent.upsert` with an empty update. -/
def EventTable.store (table : EventTable) (event : IndexedEvent) : EventTable where
  rows := storeEvent table.rows event
  unique := by
    by_cases present : table.taken event = true
    · rw [storeEvent_of_taken present]
      exact table.unique
    · rw [storeEvent_of_free present, map_append, nodup_append]
      refine ⟨table.unique, nodup_singleton _, ?_⟩
      rintro key stored other added rfl
      rw [map_singleton, mem_singleton] at added
      exact present (taken_iff.mpr (added ▸ stored))

/-- Upserts keep the rows that were there, add only their own, and leave each key taken. -/
theorem foldl_store (table : EventTable) (events : List IndexedEvent) :
    ∃ added, (events.foldl EventTable.store table).rows = table.rows ++ added ∧
      (∀ row ∈ added, row ∈ events) ∧
      ∀ event ∈ events, event.eventKey ∈ (table.rows ++ added).map IndexedEvent.eventKey := by
  induction events generalizing table with
  | nil => exact ⟨[], by simp, by simp, by simp⟩
  | cons first rest ih =>
    obtain ⟨added, rows, own, keys⟩ := ih (table.store first)
    rw [foldl_cons, rows]
    by_cases present : table.taken first = true
    · have stays : (table.store first).rows = table.rows := storeEvent_of_taken present
      rw [stays] at keys ⊢
      refine ⟨added, rfl, fun row member => mem_cons_of_mem _ (own row member), ?_⟩
      intro event member
      rcases mem_cons.mp member with rfl | later
      · rw [map_append]
        exact mem_append_left _ (taken_iff.mp present)
      · exact keys event later
    · have grows : (table.store first).rows = table.rows ++ [first] :=
        storeEvent_of_free present
      rw [grows] at keys ⊢
      refine ⟨first :: added, by simp, ?_, ?_⟩
      · intro row member
        rcases mem_cons.mp member with rfl | later
        · exact mem_cons_self
        · exact mem_cons_of_mem _ (own row later)
      · intro event member
        rcases mem_cons.mp member with rfl | later
        · simp
        · simpa using keys event later

/-! ## Invocations -/

/-- What one call of `processBlock` meets: whether it gets the provider, the addresses and the
block, whether `getLogs` answers, and how many upserts take effect before one throws. -/
structure Invocation where
  found : Bool
  logs : Bool
  written : Nat
deriving DecidableEq

/-- `relevantEvents`; a failure of `getLogs` is caught. -/
def relevantEvents (monitored : List MonitoredRow) (number : Nat) (block : Block) (logs : Bool) :
    List IndexedEvent :=
  block.nativeTransfers.filterMap (Transfer.event? monitored number) ++
    if logs then block.tokenTransfers.filterMap (Transfer.event? monitored number) else []

/-- The events that an invocation upserts. -/
def Invocation.upserted (monitored : List MonitoredRow) (number : Nat) (block : Block)
    (invocation : Invocation) : List IndexedEvent :=
  if monitored.isEmpty || !invocation.found then []
  else (relevantEvents monitored number block invocation.logs).take invocation.written

def processBlock (monitored : List MonitoredRow) (number : Nat) (block : Block)
    (table : EventTable) (invocation : Invocation) : EventTable :=
  (invocation.upserted monitored number block).foldl EventTable.store table

/-- The rows of a block. -/
def EventTable.ofBlock (table : EventTable) (number : Nat) : List IndexedEvent :=
  table.rows.filter fun row => row.blockNumber = number

/-- The transfers of a block that have a monitored party. -/
def relevantTransfers (monitored : List MonitoredRow) (block : Block) : List Transfer :=
  block.transfers.filter (Transfer.touches monitored)

/-- Each row stands for one of the transfers, and each transfer for one of the rows. -/
def InBijection (rows : List IndexedEvent) (transfers : List Transfer) : Prop :=
  ∃ order : List IndexedEvent, order.Perm rows ∧ List.Forall₂ IndexedEvent.Records order transfers

/-- The invocation gets the block, and its logs if a relevant transfer is among them, and none
of its upserts throws. -/
@[reducible] def Invocation.Complete (monitored : List MonitoredRow) (block : Block)
    (invocation : Invocation) : Prop :=
  invocation.found = true ∧
    (invocation.logs = true ∨ block.tokenTransfers.filter (Transfer.touches monitored) = []) ∧
    (relevantTransfers monitored block).length ≤ invocation.written

/-! ## Events of transfers -/

variable {monitored : List MonitoredRow} {number : Nat} {block : Block}
  {transfers : List Transfer} {invocation : Invocation} {invocations : List Invocation}

theorem records_filterMap :
    List.Forall₂ IndexedEvent.Records (transfers.filterMap (Transfer.event? monitored number))
      (transfers.filter (Transfer.touches monitored)) := by
  induction transfers with
  | nil => exact .nil
  | cons transfer rest ih =>
    have touched := Backfill.event?_isSome monitored number transfer
    cases found : transfer.event? monitored number with
    | none =>
      rw [found] at touched
      rw [filterMap_cons_none found, filter_cons_of_neg (by simp [← touched])]
      exact ih
    | some event =>
      rw [found] at touched
      rw [filterMap_cons_some found, filter_cons_of_pos (by simp [← touched])]
      exact .cons (Backfill.records_of_event? found) ih

theorem eventKey_of_records {transfer : Transfer} (records : event.Records transfer) :
    event.eventKey = transfer.eventKey :=
  Prod.ext records.1 records.2.1

theorem keys_of_records (same : List.Forall₂ IndexedEvent.Records events transfers) :
    events.map IndexedEvent.eventKey = transfers.map Transfer.eventKey := by
  induction same with
  | nil => rfl
  | cons records _ ih =>
    rw [map_cons, map_cons, eventKey_of_records records, ih]

theorem blockNumber_of_event? {transfer : Transfer}
    (found : transfer.event? monitored number = some event) : event.blockNumber = number := by
  rw [Transfer.event?] at found
  split at found
  · cases found
    rfl
  · obtain ⟨owner, _, rfl⟩ := Option.map_eq_some_iff.mp found
    rfl

/-- The events of a block whose logs are known. -/
theorem relevantEvents_true : relevantEvents monitored number block true =
    block.transfers.filterMap (Transfer.event? monitored number) := by
  rw [relevantEvents, if_pos rfl, Block.transfers, filterMap_append]

theorem relevantEvents_records : List.Forall₂ IndexedEvent.Records
    (relevantEvents monitored number block true) (relevantTransfers monitored block) := by
  rw [relevantEvents_true, relevantTransfers]
  exact records_filterMap

theorem length_relevantEvents : (relevantEvents monitored number block true).length =
    (relevantTransfers monitored block).length :=
  relevantEvents_records.length_eq

/-- Without the logs, the events of the token transfers are missing at the end. -/
theorem relevantEvents_shorter (logs : Bool) :
    relevantEvents monitored number block logs <+: relevantEvents monitored number block true := by
  cases logs with
  | false =>
    rw [relevantEvents, relevantEvents, if_neg Bool.false_ne_true, if_pos rfl, append_nil]
    exact prefix_append _ _
  | true => exact prefix_refl _

theorem relevantEvents_eq (logs : Bool)
    (known : logs = true ∨ block.tokenTransfers.filter (Transfer.touches monitored) = []) :
    relevantEvents monitored number block logs = relevantEvents monitored number block true := by
  rcases known with rfl | none
  · rfl
  · have records := @records_filterMap monitored number block.tokenTransfers
    rw [none] at records
    have nothing := forall₂_nil_right_iff.mp records
    cases logs <;> simp [relevantEvents, nothing]

theorem upserted_sub (member : event ∈ invocation.upserted monitored number block) :
    event ∈ relevantEvents monitored number block true := by
  rw [Invocation.upserted] at member
  split at member
  · cases member
  · exact (relevantEvents_shorter _).subset (mem_of_mem_take member)

theorem upserted_of_complete (complete : invocation.Complete monitored block)
    (nonempty : ¬monitored.isEmpty = true) :
    invocation.upserted monitored number block = relevantEvents monitored number block true := by
  obtain ⟨found, known, enough⟩ := complete
  rw [Invocation.upserted, if_neg (by simp [found, nonempty]), relevantEvents_eq _ known,
    take_of_length_le]
  rw [length_relevantEvents]
  exact enough

/-- The last entry of a list without repetition is in no proper prefix. -/
theorem length_le_of_getLast_mem_take (nonempty : events ≠ []) (distinct : events.Nodup)
    {count : Nat} (member : events.getLast nonempty ∈ events.take count) :
    events.length ≤ count := by
  obtain ⟨position, inside, same⟩ := mem_take_iff_getElem.mp member
  rw [getLast_eq_getElem] at same
  have last : position = events.length - 1 := (distinct.getElem_inj_iff).mp same
  omega

/-- Only a complete invocation upserts the last event. -/
theorem complete_of_getLast (nonempty : relevantEvents monitored number block true ≠ [])
    (distinct : (relevantEvents monitored number block true).Nodup)
    (last : (relevantEvents monitored number block true).getLast nonempty ∈
      invocation.upserted monitored number block) : invocation.Complete monitored block := by
  rw [Invocation.upserted] at last
  split at last
  · cases last
  rename_i obtained
  simp only [Bool.or_eq_true, Bool.not_eq_true', not_or, Bool.not_eq_false] at obtained
  have length := @length_relevantEvents monitored number block
  have shorter := @relevantEvents_shorter monitored number block invocation.logs
  have inPrefix : (relevantEvents monitored number block true).getLast nonempty ∈
      (relevantEvents monitored number block true).take
        (min invocation.written (relevantEvents monitored number block invocation.logs).length) := by
    rw [← take_take, ← prefix_iff_eq_take.mp shorter]
    exact last
  have reached := length_le_of_getLast_mem_take nonempty distinct inPrefix
  refine ⟨obtained.2, ?_, by omega⟩
  cases answered : invocation.logs with
  | true => exact .inl rfl
  | false =>
    -- nothing is missing at the end, so there are no events of token transfers
    have records := @records_filterMap monitored number block.tokenTransfers
    rw [answered] at reached
    simp only [relevantEvents, Bool.false_eq_true, if_false, if_true, length_append,
      length_nil, records.length_eq] at reached
    exact .inr (length_eq_zero_iff.mp (by omega))

/-! ## Repetitions -/

theorem foldl_processBlock : invocations.foldl (processBlock monitored number block) table =
    (invocations.flatMap (Invocation.upserted monitored number block)).foldl
      EventTable.store table := by
  induction invocations generalizing table with
  | nil => rfl
  | cons first rest ih =>
    rw [foldl_cons, ih, flatMap_cons, foldl_append, processBlock]

/-- The rows of a block that was not stored before are those that its upserts add. -/
theorem ofBlock_foldl_processBlock (fresh : ∀ row ∈ table.rows, row.blockNumber ≠ number) :
    ∃ added, (invocations.foldl (processBlock monitored number block) table).ofBlock number =
        added ∧
      (invocations.foldl (processBlock monitored number block) table).rows =
        table.rows ++ added ∧
      (∀ row ∈ added, ∃ invocation ∈ invocations,
        row ∈ invocation.upserted monitored number block) ∧
      ∀ invocation ∈ invocations, ∀ event ∈ invocation.upserted monitored number block,
        event.eventKey ∈ (table.rows ++ added).map IndexedEvent.eventKey := by
  rw [foldl_processBlock]
  obtain ⟨added, rows, own, keys⟩ := foldl_store table
    (invocations.flatMap (Invocation.upserted monitored number block))
  refine ⟨added, ?_, rows, fun row member => mem_flatMap.mp (own row member), ?_⟩
  · have ofOthers : table.rows.filter (fun row => row.blockNumber = number) = [] := by
      refine filter_eq_nil_iff.mpr fun row member => ?_
      simpa using fresh row member
    have ofThis : added.filter (fun row => row.blockNumber = number) = added := by
      refine filter_eq_self.mpr fun row member => ?_
      obtain ⟨invocation, _, written⟩ := mem_flatMap.mp (own row member)
      have event := upserted_sub written
      rw [relevantEvents_true] at event
      obtain ⟨transfer, _, found⟩ := mem_filterMap.mp event
      simpa using blockNumber_of_event? found
    rw [EventTable.ofBlock, rows, filter_append, ofOthers, ofThis, nil_append]
  · intro invocation called event written
    exact keys event (mem_flatMap.mpr ⟨invocation, called, written⟩)

/-- The rows of a block are in bijection with its relevant transfers if and only if no two of
these have one key, no row of another block has the key of one, and, unless there are none, some
invocation was complete. -/
theorem block_stored_once_iff (table : EventTable) (monitored : List MonitoredRow) (number : Nat)
    (block : Block) (invocations : List Invocation)
    (fresh : ∀ row ∈ table.rows, row.blockNumber ≠ number) :
    InBijection ((invocations.foldl (processBlock monitored number block) table).ofBlock number)
        (relevantTransfers monitored block) ↔
      ((relevantTransfers monitored block).map Transfer.eventKey).Nodup ∧
        (∀ row ∈ table.rows, ∀ transfer ∈ relevantTransfers monitored block,
          row.eventKey ≠ transfer.eventKey) ∧
        (relevantTransfers monitored block = [] ∨
          ∃ invocation ∈ invocations, invocation.Complete monitored block) := by
  obtain ⟨added, ofBlock, rows, own, keys⟩ :=
    @ofBlock_foldl_processBlock table monitored number block invocations fresh
  have unique := (invocations.foldl (processBlock monitored number block) table).unique
  rw [rows, map_append] at unique
  obtain ⟨_, addedUnique, disjoint⟩ := nodup_append.mp unique
  have allKeys := keys_of_records (@relevantEvents_records monitored number block)
  rw [ofBlock]
  constructor
  · rintro ⟨order, permutation, records⟩
    have sameKeys := keys_of_records records
    have distinct : ((relevantTransfers monitored block).map Transfer.eventKey).Nodup := by
      rw [← sameKeys]
      exact ((permutation.map _).nodup_iff).mpr addedUnique
    have stored : ∀ transfer ∈ relevantTransfers monitored block,
        transfer.eventKey ∈ added.map IndexedEvent.eventKey := by
      intro transfer relevant
      rw [← (permutation.map _).mem_iff, sameKeys]
      exact mem_map_of_mem relevant
    refine ⟨distinct, ?_, ?_⟩
    · intro row member transfer relevant same
      exact disjoint _ (mem_map_of_mem member) _ (stored transfer relevant) same
    · refine or_iff_not_imp_left.mpr fun some_ => ?_
      rw [← allKeys] at distinct
      have nonempty : relevantEvents monitored number block true ≠ [] := by
        intro empty
        have length := @length_relevantEvents monitored number block
        rw [empty] at length
        exact some_ (length_eq_zero_iff.mp length.symm)
      have lastKey : ((relevantEvents monitored number block true).getLast nonempty).eventKey ∈
          added.map IndexedEvent.eventKey := by
        rw [← (permutation.map _).mem_iff, sameKeys, ← allKeys]
        exact mem_map_of_mem (getLast_mem nonempty)
      obtain ⟨row, member, same⟩ := mem_map.mp lastKey
      obtain ⟨invocation, called, written⟩ := own row member
      have isLast := inj_on_of_nodup_map distinct (upserted_sub written)
        (getLast_mem nonempty) same
      rw [isLast] at written
      exact ⟨invocation, called, complete_of_getLast nonempty distinct.of_map written⟩
  · rintro ⟨distinct, free, complete⟩
    rw [← allKeys] at distinct
    refine ⟨relevantEvents monitored number block true, ?_, relevantEvents_records⟩
    refine (perm_ext_iff_of_nodup distinct.of_map addedUnique.of_map).mpr fun event => ?_
    constructor
    · intro isEvent
      have key : event.eventKey ∈ (relevantTransfers monitored block).map Transfer.eventKey := by
        rw [← allKeys]
        exact mem_map_of_mem isEvent
      obtain ⟨transfer, relevant, sameKey⟩ := mem_map.mp key
      obtain ⟨invocation, called, isComplete⟩ :=
        complete.resolve_left (ne_nil_of_mem relevant)
      have nonempty : ¬monitored.isEmpty = true := by
        intro empty
        have touched := (mem_filter.mp relevant).2
        rw [isEmpty_iff.mp empty, Backfill.touches_nil] at touched
        cases touched
      rw [← upserted_of_complete isComplete nonempty] at isEvent
      obtain ⟨row, stored, same⟩ := mem_map.mp (keys invocation called event isEvent)
      rcases mem_append.mp stored with old | new
      · exact absurd (same.trans sameKey.symm) (free row old transfer relevant)
      · obtain ⟨other, _, written⟩ := own row new
        rwa [← inj_on_of_nodup_map distinct (upserted_sub written) (upserted_sub isEvent) same]
    · intro member
      obtain ⟨invocation, _, written⟩ := own event member
      exact upserted_sub written

/-! ## Samples -/

namespace BlockSample

def rows : List MonitoredRow := [⟨1, ⟨1, 1, 1⟩, 0⟩]

/-- A call that sends value to a monitored address, and whose first log is a token transfer to
it. -/
def firstLog : Block where
  hash := 100
  parentHash := 99
  timestamp := 1
  transactions := [⟨7, 9, some 1, 5⟩]
  logs := [⟨7, 0, 50, 3, 9, 1, some 8⟩]

/-- The same with the token transfer in a later log. -/
def laterLog : Block := { firstLog with logs := [⟨7, 1, 50, 3, 9, 1, some 8⟩] }

def none : EventTable := ⟨[], nodup_nil⟩

/-- The logs are not read, the second upsert throws, and the third call succeeds. -/
def calls : List Invocation := [⟨true, false, 9⟩, ⟨true, true, 1⟩, ⟨true, true, 9⟩]

end BlockSample

open BlockSample in
theorem block_stored_once_sample :
    InBijection ((calls.foldl (processBlock rows 3 laterLog) BlockSample.none).ofBlock 3)
      (relevantTransfers rows laterLog) :=
  (block_stored_once_iff BlockSample.none rows 3 laterLog calls (by simp [BlockSample.none])).mpr
    ⟨by decide, by simp [BlockSample.none], .inr (by decide)⟩

open BlockSample in
theorem block_not_stored_once :
    ¬InBijection ((calls.foldl (processBlock rows 3 firstLog) BlockSample.none).ofBlock 3)
      (relevantTransfers rows firstLog) := by
  rintro ⟨order, permutation, records⟩
  have counted := permutation.length_eq.symm.trans records.length_eq
  exact absurd counted (by decide)

end CryptoVaultHub.Indexer
