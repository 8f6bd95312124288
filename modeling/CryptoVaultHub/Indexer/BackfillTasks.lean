import CryptoVaultHub.Indexer.BackfillWorker

/-!
# What the task of a block has stored

A task that ends has stored every transfer of the addresses it looked for, as long as no
failure and no missing block hid one from it, and no upsert met a row of another transfer
under its key. `Healthy` is the condition on runs that says so.
-/

namespace CryptoVaultHub.Indexer.Backfill

open TransitionSystem List

/-! ## The condition -/

/-- A row of the transfer is stored. -/
@[reducible] def Shared.Stored (shared : Shared) (transfer : Transfer) : Prop :=
  ∃ event ∈ shared.events, event.Records transfer

/-- No monitored address has a part in the transfers. -/
def quiet (monitored : List MonitoredRow) (transfers : List Transfer) : Bool :=
  transfers.all fun transfer => !transfer.touches monitored

/-- Every monitored address with a transfer in the block was looked for. -/
def Task.current (chain : Nat → Block) (monitored : List MonitoredRow) (task : Task) : Bool :=
  (chain task.block).transfers.all fun transfer =>
    !transfer.touches monitored || transfer.touches task.known

/-- A row of the same transfer is stored. -/
def Shared.hasRow (shared : Shared) (event : IndexedEvent) : Bool :=
  shared.events.any fun row => row.SameTransfer event

/-- A failure or a missing block hides no transfer of a monitored address, no upsert
meets the row of another transfer, and a block is not marked for addresses that were
not looked for. -/
def Task.healthy (chain : Nat → Block) (shared : Shared) (task : Task) (answer : BlockAnswer)
    (ending : Ending) : Bool :=
  let block := chain task.block
  match task.point with
  | .getProvider => ending = .done || quiet shared.monitored block.transfers
  | .getMonitoredAddresses =>
    shared.addrCache.isSome || ending = .done || quiet shared.monitored block.transfers
  | .getBlock monitored =>
    (answer = .found && ending = .done) || quiet monitored block.transfers
  | .getLogs monitored _ => ending = .done || quiet monitored block.tokenTransfers
  | .upsert event rest =>
    (ending = .failed || (shared.event? event).all fun row => row.SameTransfer event) &&
      match ending with
      | .done => true
      | .failed => (event :: rest).all shared.hasRow
      | .lost => rest.all shared.hasRow
  | .markScanned => ending = .failed || task.current chain shared.monitored
  | .remember _ | .indexBlock | .cacheHash | .finished => true

/-- The condition on the statements of a job. -/
def Job.healthy (chain : Nat → Block) (shared : Shared) (job : Job) (input : Input Answer) :
    Bool :=
  match job.point with
  | .batch _ _ tasks =>
    (tasks[input.answer.task]?).all fun task =>
      task.healthy chain shared input.answer.block input.ending
  | .resolve =>
    input.ending = .failed || job.done.all fun task => task.current chain shared.monitored
  | .load | .exceeded | .begin | .progress _ | .fail => true

/-- The condition on the actions of the pool. -/
def healthy (chain : Nat → Block) (state : State) : Action → Bool
  | .advance pid input =>
    match state.process? pid with
    | some (.job job) => job.healthy chain state.shared input
    | _ => true
  | _ => true

/-- The condition on runs. -/
@[reducible] def Healthy (chain : Nat → Block) (state : State) (action : Action) : Prop :=
  healthy chain state action = true

/-! ## Events and transfers -/

variable {monitored : List MonitoredRow} {transfer : Transfer} {event : IndexedEvent}

theorem records_of_event? {number : Nat} (relevant : transfer.event? monitored number = some event) :
    event.Records transfer := by
  unfold Transfer.event? at relevant
  split at relevant
  · cases relevant
    exact ⟨rfl, rfl, rfl, rfl, rfl, rfl, rfl⟩
  · obtain ⟨owner, _, rfl⟩ := Option.map_eq_some_iff.mp relevant
    exact ⟨rfl, rfl, rfl, rfl, rfl, rfl, rfl⟩

theorem event?_isSome (monitored : List MonitoredRow) (number : Nat) (transfer : Transfer) :
    (transfer.event? monitored number).isSome = transfer.touches monitored := by
  unfold Transfer.event? Transfer.touches
  split
  · rename_i found
    simp [found]
  · rename_i missing
    simp [missing]

/-- Transfers of a monitored address have a row among the events of a scan. -/
theorem exists_event {number : Nat} {transfers : List Transfer} (inBlock : transfer ∈ transfers)
    (touches : transfer.touches monitored = true) :
    ∃ event ∈ transfers.filterMap (Transfer.event? monitored number), event.Records transfer := by
  rw [← event?_isSome monitored number, Option.isSome_iff_exists] at touches
  obtain ⟨event, relevant⟩ := touches
  exact ⟨event, mem_filterMap.mpr ⟨transfer, inBlock, relevant⟩, records_of_event? relevant⟩

theorem touches_nil (transfer : Transfer) : transfer.touches [] = false := by
  cases recipient : transfer.recipient <;> simp [Transfer.touches, owner?, recipient]

theorem records_of_sameTransfer {event other : IndexedEvent} (same : event.SameTransfer other)
    (records : other.Records transfer) : event.Records transfer := by
  obtain ⟨hash, index, contract, type, sender, recipient, amount⟩ := same
  obtain ⟨hash', index', contract', type', sender', recipient', amount'⟩ := records
  exact ⟨hash.trans hash', index.trans index', contract.trans contract', type.trans type',
    sender.trans sender', recipient.trans recipient', amount.trans amount'⟩

theorem quiet_apply {transfers : List Transfer} (hidden : quiet monitored transfers = true)
    (inBlock : transfer ∈ transfers) : transfer.touches monitored = false := by
  simpa using all_eq_true.mp hidden transfer inBlock

variable {chain : Nat → Block}

theorem mem_due {first last : Nat} : transfer ∈ due chain monitored first last ↔
      (∃ number, first ≤ number ∧ number ≤ last ∧ transfer ∈ (chain number).transfers) ∧
        transfer.touches monitored = true := by
  simp only [due, mem_filter, mem_flatMap, mem_range'_1]
  refine and_congr_left fun _ => ?_
  constructor
  · rintro ⟨number, ⟨low, high⟩, inBlock⟩
    exact ⟨number, low, by omega, inBlock⟩
  · rintro ⟨number, low, high, inBlock⟩
    exact ⟨number, ⟨low, by omega⟩, inBlock⟩

variable {task : Task}

theorem Task.current_apply (current : task.current chain monitored = true)
    (inBlock : transfer ∈ (chain task.block).transfers)
    (touches : transfer.touches monitored = true) : transfer.touches task.known = true := by
  have looked := all_eq_true.mp current transfer inBlock
  simpa [touches] using looked

/-! ## What the tables keep -/

/-- A gap of the job's range stands under the job's identifier. -/
def Shared.HasGap (shared : Shared) (data : JobData) : Prop :=
  ∃ gap ∈ shared.gaps, gap.id = data.gapId ∧ gap.gapStartBlock = data.startBlock ∧
    gap.gapEndBlock = data.endBlock

/-- Events and the ranges of gaps stay. -/
structure Shared.Extends (shared after : Shared) : Prop where
  events : ∀ event ∈ shared.events, event ∈ after.events
  gaps : ∀ data, shared.HasGap data → after.HasGap data

theorem Shared.Extends.refl (shared : Shared) : shared.Extends shared :=
  ⟨fun _ stored => stored, fun _ has => has⟩

theorem Shared.Stored.extend {shared after : Shared} (stored : shared.Stored transfer)
    (extends_ : shared.Extends after) : after.Stored transfer := by
  obtain ⟨event, row, records⟩ := stored
  exact ⟨event, extends_.events event row, records⟩

/-- Changing the status of gaps keeps their ranges. -/
theorem hasGap_map {gaps : List Gap} {shared after : Shared} {change : Gap → Gap}
    (before : shared.gaps = gaps) (mapped : after.gaps = gaps.map change)
    (keeps : ∀ gap, (change gap).id = gap.id ∧ (change gap).gapStartBlock = gap.gapStartBlock ∧
      (change gap).gapEndBlock = gap.gapEndBlock)
    {data : JobData} (has : shared.HasGap data) : after.HasGap data := by
  obtain ⟨gap, stored, id, first, last⟩ := has
  obtain ⟨sameId, sameFirst, sameLast⟩ := keeps gap
  refine ⟨change gap, ?_, sameId.trans id, sameFirst.trans first, sameLast.trans last⟩
  rw [mapped, ← before]
  exact mem_map_of_mem stored

theorem updateGap_extends (shared : Shared) (id : Nat) {change : Gap → Gap}
    (keeps : ∀ gap, (change gap).id = gap.id ∧ (change gap).gapStartBlock = gap.gapStartBlock ∧
      (change gap).gapEndBlock = gap.gapEndBlock) :
    shared.Extends (shared.updateGap id change) := by
  refine ⟨fun _ stored => stored, fun _ => hasGap_map rfl rfl ?_⟩
  intro gap
  by_cases hit : gap.id = id
  · simpa only [if_pos hit] using keeps gap
  · simp only [if_neg hit, and_self]

theorem upsert_extends (shared : Shared) (event : IndexedEvent) :
    shared.Extends (shared.upsert event) := by
  unfold Shared.upsert
  split
  · exact .refl _
  · exact ⟨fun _ stored => mem_append_left _ stored, fun _ has => has⟩

theorem Task.statement_extends (chain : Nat → Block) (shared : Shared) (task : Task)
    (answer : BlockAnswer) : shared.Extends (task.statement chain shared answer).after := by
  obtain ⟨block, known, point⟩ := task
  cases point with
  | getProvider | getLogs | cacheHash | finished => exact .refl _
  | getMonitoredAddresses =>
    simp only [Task.statement]
    split <;> exact .refl _
  | getBlock =>
    cases answer <;> exact .refl _
  | remember | indexBlock | markScanned =>
    exact ⟨fun _ stored => stored, fun _ has => has⟩
  | upsert => exact upsert_extends _ _

theorem resolveGap_extends (chain : Nat → Block) (shared : Shared) (id : Nat) :
    shared.Extends (shared.resolveGap chain id) := by
  have updated : shared.Extends (shared.setGapStatus id .resolved) :=
    updateGap_extends shared id fun _ => ⟨rfl, rfl, rfl⟩
  exact ⟨updated.events, updated.gaps⟩

/-- Statements only add events, and keep the ranges of gaps. -/
theorem statement_extends (chain : Nat → Block) (shared : Shared) (process : Process)
    (answer : Answer) : shared.Extends (process.statement chain shared answer).after := by
  cases process with
  | job job =>
    obtain ⟨data, point, done⟩ := job
    cases point with
    | load | progress => exact .refl _
    | exceeded | begin | fail => exact updateGap_extends shared _ fun _ => ⟨rfl, rfl, rfl⟩
    | batch batchStart next tasks =>
      simp only [Process.statement, Job.statement, Job.advance]
      split
      · exact .refl _
      · exact Task.statement_extends _ _ _ _
    | resolve => exact resolveGap_extends _ _ _
  | detect point =>
    cases point with
    | cursor | earliest | indexed | scanned | existing => exact .refl _
    | create =>
      refine ⟨fun _ stored => stored, ?_⟩
      rintro data ⟨gap, stored, same⟩
      exact ⟨gap, mem_append_left _ stored, same⟩
    | enqueue => exact ⟨fun _ stored => stored, fun _ has => has⟩
  | register point =>
    cases point with
    | upsert | invalidateCache => exact ⟨fun _ stored => stored, fun _ has => has⟩
    | ensureCursor row =>
      simp only [Process.statement, RegisterPoint.statement, Statement.map]
      split
      · exact ⟨fun _ stored => stored, fun _ has => has⟩
      · exact .refl _

/-! ## One task -/

/-- What is left of a block is among the events. -/
def Task.Leaves (chain : Nat → Block) (shared : Shared) (task : Task)
    (events : List IndexedEvent) : Prop :=
  ∀ transfer ∈ (chain task.block).transfers, transfer.touches task.known = true →
    shared.Stored transfer ∨ ∃ event ∈ events, event.Records transfer

/-- What holds of a task at each of its points. -/
def Task.Sound (chain : Nat → Block) (shared : Shared) (task : Task) : Prop :=
  match task.point with
  | .getProvider | .getMonitoredAddresses => True
  | .remember monitored | .getBlock monitored => task.known = monitored
  | .getLogs monitored events => task.known = monitored ∧
      events = (chain task.block).nativeTransfers.filterMap
        (Transfer.event? monitored task.block)
  | .upsert event rest => task.Leaves chain shared (event :: rest)
  | .indexBlock | .cacheHash | .markScanned | .finished => task.Leaves chain shared []

variable {events : List IndexedEvent}

theorem Task.Leaves.extend {shared after : Shared} (leaves : task.Leaves chain shared events)
    (extended : shared.Extends after) : task.Leaves chain after events := by
  intro transfer inBlock touches
  rcases leaves transfer inBlock touches with stored | left
  · exact .inl (stored.extend extended)
  · exact .inr left

theorem Task.Sound.extend {shared after : Shared} (sound : task.Sound chain shared)
    (extended : shared.Extends after) : task.Sound chain after := by
  obtain ⟨block, known, point⟩ := task
  cases point with
  | getProvider | getMonitoredAddresses | remember | getBlock | getLogs => exact sound
  | upsert | indexBlock | cacheHash | markScanned | finished => exact Leaves.extend sound extended

variable {shared : Shared}

/-- Nothing is left of a block without transfers of the known addresses. -/
theorem Task.leaves_of_quiet (hidden : quiet task.known (chain task.block).transfers = true) :
    task.Leaves chain shared [] := by
  intro transfer inBlock touches
  rw [quiet_apply hidden inBlock] at touches
  cases touches

theorem Task.withAddresses_sound (task : Task) (monitored : List MonitoredRow) :
    (task.withAddresses monitored).Sound chain shared := by
  unfold Task.withAddresses
  cases monitored with
  | nil =>
    intro transfer _ touches
    rw [touches_nil] at touches
    cases touches
  | cons row rest => rfl

theorem Task.withEvents_sound (leaves : task.Leaves chain shared events) :
    (task.withEvents events).Sound chain shared := by
  cases events with
  | nil => exact leaves
  | cons event rest => exact leaves

/-- A scan finds each transfer of the known addresses, except those a failure hid. -/
theorem Task.leaves_of_scan (task : Task) (tokens : List IndexedEvent)
    (found : ∀ transfer ∈ (chain task.block).tokenTransfers,
      transfer.touches task.known = true → ∃ event ∈ tokens, event.Records transfer) :
    task.Leaves chain shared
      ((chain task.block).nativeTransfers.filterMap (Transfer.event? task.known task.block) ++
        tokens) := by
  intro transfer inBlock touches
  rcases mem_append.mp inBlock with native | token
  · obtain ⟨event, scanned, records⟩ := exists_event native touches
    exact .inr ⟨event, mem_append_left _ scanned, records⟩
  · obtain ⟨event, scanned, records⟩ := found transfer token touches
    exact .inr ⟨event, mem_append_right _ scanned, records⟩

/-- After an upsert that met no row of another transfer, the transfer is stored. -/
theorem stored_upsert (alike : (shared.event? event).all (fun row => row.SameTransfer event) = true)
    (records : event.Records transfer) : (shared.upsert event).Stored transfer := by
  unfold Shared.upsert
  cases found : shared.event? event with
  | none => exact ⟨event, mem_append_right _ (mem_singleton_self event), records⟩
  | some row =>
    have same : row.SameTransfer event := by simpa [found] using alike
    exact ⟨row, mem_of_find?_eq_some found, records_of_sameTransfer same records⟩

theorem stored_of_hasRow (has : shared.hasRow event = true) (records : event.Records transfer) :
    shared.Stored transfer := by
  obtain ⟨row, stored, same⟩ := any_eq_true.mp has
  exact ⟨row, stored, records_of_sameTransfer (of_decide_eq_true same) records⟩

/-- Nothing is left when each event has its row. -/
theorem Task.Leaves.nothing (leaves : task.Leaves chain shared events)
    (rows : events.all shared.hasRow = true) : task.Leaves chain shared [] := by
  intro transfer inBlock touches
  rcases leaves transfer inBlock touches with stored | ⟨event, left, records⟩
  · exact .inl stored
  · exact .inl (stored_of_hasRow (all_eq_true.mp rows event left) records)

/-- One event fewer is left after its upsert. -/
theorem Task.Leaves.upsert {chain : Nat → Block} {shared : Shared} {task : Task}
    {event : IndexedEvent} {rest : List IndexedEvent}
    (leaves : task.Leaves chain shared (event :: rest))
    (alike : (shared.event? event).all (fun row => row.SameTransfer event) = true) :
    task.Leaves chain (shared.upsert event) rest := by
  intro transfer inBlock touches
  rcases leaves transfer inBlock touches with stored | ⟨other, left, records⟩
  · exact .inl (stored.extend (upsert_extends shared event))
  · rcases mem_cons.mp left with rfl | later
    · exact .inl (stored_upsert alike records)
    · exact .inr ⟨other, later, records⟩

theorem Task.hasRow_extend {shared after : Shared} (extended : shared.Extends after)
    (rows : events.all shared.hasRow = true) : events.all after.hasRow = true := by
  rw [all_eq_true] at rows ⊢
  intro event member
  obtain ⟨row, stored, same⟩ := any_eq_true.mp (rows event member)
  exact any_eq_true.mpr ⟨row, extended.events row stored, same⟩

/-- Every healthy statement of a task keeps what holds of it. -/
theorem Task.statement_sound {shared after : Shared} {answer : BlockAnswer} {ending : Ending}
    {next : Option Task} (sound : task.Sound chain shared)
    (healthy : task.healthy chain shared answer ending = true)
    (performed : (task.statement chain shared answer).perform shared ending = (after, next)) :
    ∀ later, next = some later → later.block = task.block ∧ later.Sound chain after := by
  obtain ⟨block, known, point⟩ := task
  rintro later rfl
  cases point with
  | getProvider =>
    have caught : ending ≠ .done → quiet shared.monitored (chain block).transfers = true := by
      simpa [Task.healthy, or_iff_not_imp_left] using healthy
    rcases ending with _ | _ | _ <;> cases performed
    · exact ⟨rfl, trivial⟩
    · exact ⟨rfl, Task.leaves_of_quiet (caught (by decide))⟩
    · exact ⟨rfl, Task.leaves_of_quiet (caught (by decide))⟩
  | getMonitoredAddresses =>
    simp only [Task.statement] at performed
    split at performed
    · rcases ending with _ | _ | _ <;> cases performed <;>
        exact ⟨rfl, Task.withAddresses_sound _ _⟩
    · rename_i empty
      have caught : ending ≠ .done → quiet shared.monitored (chain block).transfers = true := by
        simpa [Task.healthy, empty, or_iff_not_imp_left] using healthy
      rcases ending with _ | _ | _ <;> cases performed
      · exact ⟨rfl, rfl⟩
      · exact ⟨rfl, Task.leaves_of_quiet (caught (by decide))⟩
      · exact ⟨rfl, Task.leaves_of_quiet (caught (by decide))⟩
  | remember rows =>
    rcases ending with _ | _ | _ <;> cases performed <;>
      exact ⟨rfl, Task.withAddresses_sound _ _⟩
  | getBlock monitored =>
    have same : known = monitored := sound
    subst same
    have caught : ¬ (answer = .found ∧ ending = .done) →
        quiet known (chain block).transfers = true := by
      simpa [Task.healthy, or_iff_not_imp_left] using healthy
    cases answer with
    | null =>
      have hidden := caught (by simp)
      rcases ending with _ | _ | _ <;> cases performed <;>
        exact ⟨rfl, Task.leaves_of_quiet hidden⟩
    | found =>
      rcases ending with _ | _ | _ <;> cases performed
      · exact ⟨rfl, rfl, rfl⟩
      · exact ⟨rfl, Task.leaves_of_quiet (caught (by decide))⟩
      · exact ⟨rfl, Task.leaves_of_quiet (caught (by decide))⟩
  | getLogs monitored events =>
    obtain ⟨same, scanned⟩ := sound
    change known = monitored at same
    subst same
    change events = (chain block).nativeTransfers.filterMap (Transfer.event? known block)
      at scanned
    subst scanned
    have caught : ending ≠ .done → quiet known (chain block).tokenTransfers = true := by
      simpa [Task.healthy, or_iff_not_imp_left] using healthy
    have hidden : ending ≠ .done → Task.Leaves chain shared ⟨block, known, .finished⟩
        ((chain block).nativeTransfers.filterMap (Transfer.event? known block)) := by
      intro threw
      rw [← append_nil (List.filterMap _ _)]
      refine Task.leaves_of_scan ⟨block, known, .finished⟩ [] ?_
      intro transfer token touches
      rw [quiet_apply (caught threw) token] at touches
      cases touches
    rcases ending with _ | _ | _ <;> cases performed
    · refine ⟨?_, Task.withEvents_sound (Task.leaves_of_scan _ _ ?_)⟩
      · unfold Task.withEvents
        split <;> rfl
      · exact fun transfer token touches => exists_event token touches
    · refine ⟨?_, Task.withEvents_sound (hidden (by decide))⟩
      unfold Task.withEvents
      split <;> rfl
    · refine ⟨?_, Task.withEvents_sound (hidden (by decide))⟩
      unfold Task.withEvents
      split <;> rfl
  | upsert event rest =>
    obtain ⟨alike, rows⟩ := (Bool.and_eq_true _ _).mp healthy
    rcases ending with _ | _ | _ <;> cases performed
    · have leaves := Leaves.upsert sound (by simpa using alike)
      cases rest with
      | nil => exact ⟨rfl, leaves⟩
      | cons other rest => exact ⟨rfl, leaves⟩
    · exact ⟨rfl, Leaves.nothing sound rows⟩
    · have leaves := Leaves.upsert sound (by simpa using alike)
      exact ⟨rfl, leaves.nothing (Task.hasRow_extend (upsert_extends shared event) rows)⟩
  | indexBlock | markScanned =>
    rcases ending with _ | _ | _ <;> cases performed
    · exact ⟨rfl, Leaves.extend sound ⟨fun _ stored => stored, fun _ has => has⟩⟩
    · exact ⟨rfl, sound⟩
    · exact ⟨rfl, Leaves.extend sound ⟨fun _ stored => stored, fun _ has => has⟩⟩
  | cacheHash =>
    rcases ending with _ | _ | _ <;> cases performed <;> exact ⟨rfl, sound⟩
  | finished =>
    rcases ending with _ | _ | _ <;> cases performed

end CryptoVaultHub.Indexer.Backfill
