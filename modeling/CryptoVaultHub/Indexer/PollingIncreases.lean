import CryptoVaultHub.Indexer.PollingDetector

/-!
# Each increase is published once

A poll compares a balance with what the cache has for it. While the cache holds the
balance polled last, what is published and what the running polls have yet to publish
are together the increases from one polled balance to the next.
-/

namespace CryptoVaultHub.Indexer

open TransitionSystem List Option

abbrev PollingState := PoolState Polling PollingProcess

abbrev PollingAction := PoolAction (Input PollAnswer) PollingStart

/-! ## The property -/

/-- The increases of a sequence of balances. -/
def increases (last : Nat) : List Nat → List Nat
  | [] => []
  | balance :: rest =>
    if last < balance then (balance - last) :: increases balance rest else increases balance rest

/-- The balances polled for an address and token, in their order. -/
def Polling.polledBalances (polling : Polling) (key : BalanceKey) : List Nat :=
  (polling.polled.filter fun entry => entry.1 = key).map Prod.snd

/-- The amounts published for an address and token. -/
def Polling.publishedAmounts (polling : Polling) (key : BalanceKey) : List Nat :=
  (polling.store.stream.filter fun message =>
    message.toAddress = key.address ∧ message.contractAddress = key.contractAddress).map
      Message.amount

def PollingProcess.polls : PollingProcess → Bool
  | .poll _ => true
  | .reconcile _ => false

/-- No poll is running. -/
def PollingState.Rests (state : PollingState) : Prop :=
  ∀ process ∈ state.processes, ∀ running ∈ process, running.polls = false

/-- Nothing but the increases is published, each once; and all of them when no poll is
running. An address begins with no balance. -/
def PollingState.PublishedOnce (state : PollingState) : Prop :=
  ∀ key, (state.shared.publishedAmounts key).Subperm
      (increases 0 (state.shared.polledBalances key)) ∧
    (PollingState.Rests state → (state.shared.publishedAmounts key).Perm
      (increases 0 (state.shared.polledBalances key)))

/-! ## The condition -/

def Entry.increased (entry : Entry) : Bool :=
  entry.previousBalance < entry.reading.balance

/-- The cache entry of a key was read for the entry and not written since. -/
def Entry.pending (entry : Entry) : Bool :=
  entry.previous.isSome && !entry.written

/-- The balances that a poll has read, before it goes through the increases. -/
def PollPoint.entries : PollPoint → List Entry
  | .getHead entries | .getBlockNumber entries | .setHead entries _ | .findCursor entries
  | .updateCursor entries _ | .readCache _ entries | .writeCache _ entries _ => entries
  | .findAddresses | .findConfigs _ | .findTokens _ | .getProvider _ | .findChain _
  | .multicall _ | .lookupProvider .. | .lookupBlock .. | .lookupLogs .. | .publish .. => []

/-- The entries whose increases a poll has yet to publish. -/
def PollPoint.unpublished : PollPoint → List Entry
  | .lookupProvider _ entry rest | .lookupBlock _ entry rest _ | .lookupLogs _ entry rest
  | .publish _ entry rest _ => entry :: rest
  | .readCache _ entries | .writeCache _ entries _ => entries.filter Entry.written
  | .findAddresses | .findConfigs _ | .findTokens _ | .getProvider _ | .findChain _
  | .multicall _ | .getHead _ | .getBlockNumber _ | .setHead .. | .findCursor _
  | .updateCursor .. => []

def PollingProcess.entries : PollingProcess → List Entry
  | .poll point => point.entries
  | .reconcile _ => []

def PollingProcess.unpublished : PollingProcess → List Entry
  | .poll point => point.unpublished
  | .reconcile _ => []

/-- The keys between whose reading and writing a process is. -/
def pendingKeys (entries : List Entry) : List BalanceKey :=
  (entries.filter Entry.pending).map Entry.key

/-- The balance that a poll would find in the cache. -/
def Polling.cachedBalance (polling : Polling) (key : BalanceKey) : Nat :=
  ((polling.cached? key).map Reading.balance).getD 0

/-- The balance polled last, zero before the first. -/
def Polling.lastPolled (polling : Polling) (key : BalanceKey) : Nat :=
  (polling.polledBalances key).getLast?.getD 0

/-- An entry expires only with the balance zero. -/
def PollingStart.healthy (polling : Polling) : PollingStart → Bool
  | .expire key => polling.cachedBalance key = 0
  | .poll | .reconcile _ | .expireHead | .moveCursor _ | .configure .. => true

/-- No other poll is between the reading and the writing of an entry that a poll reads, and
a poll that has found an increase goes on to publish it. -/
def PollPoint.healthy (state : PollingState) (input : Input PollAnswer) : PollPoint → Bool
  | .readCache _ entries =>
    entries[input.answer.chosen]?.all fun entry =>
      state.every fun _ process => entry.key ∉ pendingKeys process.entries
  | .writeCache _ entries _ => input.ending = .done || !entries.any Entry.increased
  | .publish .. => input.ending = .done && input.answer.streamed
  | .findAddresses | .findConfigs _ | .findTokens _ | .getProvider _ | .findChain _
  | .multicall _ | .getHead _ | .getBlockNumber _ | .setHead .. | .findCursor _
  | .updateCursor .. | .lookupProvider .. | .lookupBlock .. | .lookupLogs .. => true

/-- The reconciliation writes no other balance than the one polled last. -/
def ReconcilePoint.healthy (polling : Polling) (ending : Ending) : ReconcilePoint → Bool
  | .writeCache key onChain _ => ending = .failed || onChain.balance = polling.lastPolled key
  | .multicall _ | .readCache .. => true

def PollingProcess.healthy (state : PollingState) (input : Input PollAnswer) :
    PollingProcess → Bool
  | .poll point => point.healthy state input
  | .reconcile point => point.healthy state.shared input.ending

def PollingState.healthy (state : PollingState) : PollingAction → Bool
  | .launch begun => begun.healthy state.shared
  | .advance pid input => (state.process? pid).all fun process => process.healthy state input
  | .crash pid =>
    (state.process? pid).all fun process => !process.unpublished.any Entry.increased

@[reducible] def PollingState.Healthy (state : PollingState) (action : PollingAction) : Prop :=
  PollingState.healthy state action = true

/-! ## Increases -/

theorem increases_append_singleton (first : Nat) (balances : List Nat) (balance : Nat) :
    increases first (balances ++ [balance]) = increases first balances ++
      if balances.getLast?.getD first < balance then [balance - balances.getLast?.getD first]
      else [] := by
  induction balances generalizing first with
  | nil => by_cases more : first < balance <;> simp [increases, more]
  | cons head tail ih =>
    have last : (head :: tail).getLast?.getD first = tail.getLast?.getD head := by
      cases tail with
      | nil => rfl
      | cons => simp [getLast?_cons]
    rw [cons_append, increases, increases, last, ih]
    by_cases more : first < head
    · simp only [if_pos more, cons_append]
    · simp only [if_neg more]

/-- The increases among entries of a key. -/
def dueAmounts (key : BalanceKey) (entries : List Entry) : Multiset Nat :=
  ((entries.filter fun entry => entry.key = key ∧ entry.increased = true).map Entry.increase)

theorem dueAmounts_append (key : BalanceKey) (first second : List Entry) :
    dueAmounts key (first ++ second) = dueAmounts key first + dueAmounts key second := by
  simp [dueAmounts]

theorem dueAmounts_nil (key : BalanceKey) : dueAmounts key [] = 0 := rfl

/-- The share of one entry. -/
theorem dueAmounts_cons (key : BalanceKey) (entry : Entry) (rest : List Entry) :
    dueAmounts key (entry :: rest) =
      (if entry.key = key ∧ entry.increased = true then {entry.increase} else 0) +
        dueAmounts key rest := by
  by_cases counts : entry.key = key ∧ entry.increased = true
  · simp [dueAmounts, counts]
  · simp only [dueAmounts, filter_cons, decide_eq_true_eq, if_neg counts, zero_add]

variable {entries : List Entry}

theorem dueAmounts_of_none {key : BalanceKey} (none : entries.any Entry.increased = false) :
    dueAmounts key entries = 0 := by
  have nothing : (entries.filter fun entry => entry.key = key ∧ entry.increased = true) = [] := by
    refine filter_eq_nil_iff.mpr ?_
    intro entry member increased
    have stays := any_eq_false.mp none entry member
    exact stays (of_decide_eq_true increased).2
  rw [dueAmounts, nothing]
  rfl

/-- Going on to the next increase passes over what has not increased. -/
theorem emit_unpublished (key : BalanceKey) (currentBlock : Nat) (entries : List Entry) :
    ((PollPoint.emit currentBlock entries).elim 0 fun point =>
      dueAmounts key point.unpublished) = dueAmounts key entries := by
  induction entries with
  | nil => rfl
  | cons entry rest ih =>
    unfold PollPoint.emit
    by_cases more : entry.previousBalance < entry.reading.balance
    · rw [if_pos more]
      by_cases known : entry.previous.join.isSome = true
      · rw [if_pos known]
        rfl
      · rw [if_neg known]
        rfl
    · have stays : ¬ (entry.key = key ∧ entry.increased = true) := by
        rintro ⟨_, increased⟩
        exact more (of_decide_eq_true increased)
      rw [if_neg more, ih, dueAmounts_cons, if_neg stays, zero_add]

/-! ## The cache -/

theorem lookup_filter_ne {key other : BalanceKey} (different : other ≠ key)
    (cache : List (BalanceKey × Reading)) :
    (cache.filter fun entry => entry.1 ≠ key).lookup other = cache.lookup other := by
  induction cache with
  | nil => rfl
  | cons head tail ih =>
    obtain ⟨first, reading⟩ := head
    by_cases same : first = key
    · subst same
      have skipped : (other == first) = false := beq_eq_false_iff_ne.mpr different
      simp only [filter_cons, ne_eq, not_true_eq_false, decide_false, Bool.false_eq_true,
        if_false, lookup_cons, skipped]
      exact ih
    · simp only [filter_cons, ne_eq, same, not_false_eq_true, decide_true, if_true,
        lookup_cons]
      rw [← ih]

theorem lookup_filter_self (key : BalanceKey) (cache : List (BalanceKey × Reading)) :
    (cache.filter fun entry => entry.1 ≠ key).lookup key = none := by
  refine lookup_eq_none_iff.mpr ?_
  intro entry member
  have differs : entry.1 ≠ key := of_decide_eq_true (mem_filter.mp member).2
  simpa using differs.symm

theorem Polling.cachedBalance_setCache (polling : Polling) (key : BalanceKey)
    (reading : Reading) (other : BalanceKey) :
    (polling.setCache key reading).cachedBalance other =
      if other = key then reading.balance else polling.cachedBalance other := by
  unfold Polling.cachedBalance Polling.cached? Polling.setCache Polling.expire
  by_cases same : other = key
  · subst same
    simp
  · have skipped : (other == key) = false := beq_eq_false_iff_ne.mpr same
    rw [if_neg same, lookup_cons, skipped, lookup_filter_ne same]

theorem Polling.cachedBalance_expire (polling : Polling) (key other : BalanceKey) :
    (polling.expire key).cachedBalance other =
      if other = key then 0 else polling.cachedBalance other := by
  unfold Polling.cachedBalance Polling.cached? Polling.expire
  by_cases same : other = key
  · subst same
    rw [lookup_filter_self, if_pos rfl]
    rfl
  · simp only [if_neg same]
    rw [lookup_filter_ne same]

theorem Polling.polledBalances_write (polling : Polling) (entry : Entry) (key : BalanceKey) :
    (polling.write entry).polledBalances key =
      if entry.key = key then polling.polledBalances key ++ [entry.reading.balance]
      else polling.polledBalances key := by
  by_cases same : entry.key = key
  · simp [Polling.polledBalances, Polling.write, Polling.setCache, same]
  · simp [Polling.polledBalances, Polling.write, Polling.setCache, same]

theorem Polling.lastPolled_write (polling : Polling) (entry : Entry) (key : BalanceKey) :
    (polling.write entry).lastPolled key =
      if entry.key = key then entry.reading.balance else polling.lastPolled key := by
  unfold Polling.lastPolled
  rw [Polling.polledBalances_write]
  by_cases same : entry.key = key
  · simp [same]
  · simp [same]

/-- The cache has the balance polled last; a missing entry counts as zero. -/
def Polling.Cached (polling : Polling) : Prop :=
  ∀ key, polling.cachedBalance key = polling.lastPolled key

theorem Polling.Cached.write {polling : Polling} (cached : polling.Cached) (entry : Entry) :
    (polling.write entry).Cached := by
  intro key
  have stored : (polling.write entry).cachedBalance key =
      if key = entry.key then entry.reading.balance else polling.cachedBalance key :=
    polling.cachedBalance_setCache entry.key entry.reading key
  rw [stored, Polling.lastPolled_write, cached key]
  by_cases same : key = entry.key
  · simp [same]
  · simp [same, Ne.symm same]

/-! ## A poll -/

/-- An entry that was read has the balance polled last, and no key was read twice. -/
structure Compared (polling : Polling) (entries : List Entry) : Prop where
  last : ∀ entry ∈ entries, entry.pending = true →
    entry.previousBalance = polling.lastPolled entry.key
  nodup : (pendingKeys entries).Nodup

/-- What a poll knows at each of its points. -/
def PollPoint.Sound (polling : Polling) : PollPoint → Prop
  | .getHead entries | .getBlockNumber entries | .setHead entries _ | .findCursor entries
  | .updateCursor entries _ => ∀ entry ∈ entries, entry.previous = none ∧ entry.written = false
  | .readCache _ entries =>
    (∀ entry ∈ entries, entry.written = false) ∧ Compared polling entries
  | .writeCache _ entries failed =>
    (∀ entry ∈ entries, entry.previous.isSome = true) ∧ Compared polling entries ∧
      (failed = true → entries.any Entry.increased = false)
  | .lookupProvider _ entry _ | .lookupBlock _ entry _ _ | .lookupLogs _ entry _
  | .publish _ entry _ _ => entry.increased = true
  | .findAddresses | .findConfigs _ | .findTokens _ | .getProvider _ | .findChain _
  | .multicall _ => True

theorem pendingKeys_of_unread (unread : ∀ entry ∈ entries, entry.previous = none) :
    pendingKeys entries = [] := by
  have nothing : entries.filter Entry.pending = [] := by
    refine filter_eq_nil_iff.mpr ?_
    intro entry member
    simp [Entry.pending, unread entry member]
  rw [pendingKeys, nothing]
  rfl

variable {polling : Polling}

theorem Compared.of_unread (unread : ∀ entry ∈ entries, entry.previous = none) :
    Compared polling entries where
  last := by
    intro entry member pending
    simp [Entry.pending, unread entry member] at pending
  nodup := by
    rw [pendingKeys_of_unread unread]
    exact nodup_nil

theorem emit_sound {currentBlock : Nat} {later : PollPoint}
    (continues : PollPoint.emit currentBlock entries = some later) :
    later.Sound polling ∧ later.entries = [] := by
  induction entries with
  | nil => cases continues
  | cons entry rest ih =>
    unfold PollPoint.emit at continues
    split at continues
    · rename_i more
      have increased : entry.increased = true := decide_eq_true more
      split at continues <;> cases continues <;> exact ⟨increased, rfl⟩
    · exact ih continues

section Phases

variable {polling : Polling} {currentBlock : Nat} {entries : List Entry} {failed : Bool}
  {later : PollPoint}

theorem writing_sound (read : ∀ entry ∈ entries, entry.previous.isSome = true)
    (compared : Compared polling entries)
    (quiet : failed = true → entries.any Entry.increased = false)
    (continues : PollPoint.writing currentBlock entries failed = some later) :
    later.Sound polling ∧ ∀ key ∈ pendingKeys later.entries, key ∈ pendingKeys entries := by
  unfold PollPoint.writing at continues
  split at continues
  · split at continues
    · cases continues
    · obtain ⟨sound, none⟩ : later.Sound polling ∧ later.entries = [] := emit_sound continues
      refine ⟨sound, ?_⟩
      simp [none, pendingKeys]
  · cases continues
    exact ⟨⟨read, compared, quiet⟩, fun _ member => member⟩

theorem reading_sound (unwritten : ∀ entry ∈ entries, entry.written = false)
    (compared : Compared polling entries)
    (continues : PollPoint.reading currentBlock entries = some later) :
    later.Sound polling ∧ ∀ key ∈ pendingKeys later.entries, key ∈ pendingKeys entries := by
  unfold PollPoint.reading at continues
  split at continues
  · rename_i read
    exact writing_sound (all_eq_true.mp read) compared (by simp) continues
  · cases continues
    exact ⟨⟨unwritten, compared⟩, fun _ member => member⟩

theorem writing_unpublished (key : BalanceKey)
    (quiet : failed = true → entries.any Entry.increased = false) :
    ((PollPoint.writing currentBlock entries failed).elim 0 fun point =>
      dueAmounts key point.unpublished) = dueAmounts key (entries.filter Entry.written) := by
  unfold PollPoint.writing
  by_cases all : entries.all Entry.written = true
  · have whole : entries.filter Entry.written = entries :=
      filter_eq_self.mpr (all_eq_true.mp all)
    rw [if_pos all, whole]
    by_cases stops : failed = true
    · rw [if_pos stops]
      exact (dueAmounts_of_none (quiet stops)).symm
    · rw [if_neg stops]
      exact emit_unpublished key currentBlock entries
  · rw [if_neg all]
    rfl

theorem reading_unpublished (key : BalanceKey)
    (unwritten : ∀ entry ∈ entries, entry.written = false) :
    ((PollPoint.reading currentBlock entries).elim 0 fun point =>
      dueAmounts key point.unpublished) = 0 := by
  have none : entries.filter Entry.written = [] := by
    refine filter_eq_nil_iff.mpr ?_
    intro entry member
    simp [unwritten entry member]
  unfold PollPoint.reading
  split
  · rw [writing_unpublished key (by simp), none]
    rfl
  · simp [PollPoint.unpublished, none, dueAmounts]

end Phases

/-! ## Statements -/

/-- A poll reads the cache for a key. -/
def PollPoint.Reads (chosen : Nat) (key : BalanceKey) (point : PollPoint) : Prop :=
  ∃ currentBlock entries entry, point = .readCache currentBlock entries ∧
    entries[chosen]? = some entry ∧ entry.key = key

/-- The amounts that a poll has yet to publish. -/
def PollPoint.due (key : BalanceKey) (point : PollPoint) : Multiset Nat :=
  dueAmounts key point.unpublished

/-- What a statement of a poll may do. -/
structure PollPoint.Advances (polling after : Polling) (chosen : Nat) (point : PollPoint)
    (next : Option PollPoint) : Prop where
  cached : after.Cached
  last : ∀ key, after.lastPolled key = polling.lastPolled key ∨
    key ∈ pendingKeys point.entries
  sound : ∀ later, next = some later → later.Sound after
  pending : ∀ later, next = some later → ∀ key ∈ pendingKeys later.entries,
    key ∈ pendingKeys point.entries ∨ point.Reads chosen key
  accounts : ∀ key,
    (after.publishedAmounts key : Multiset Nat) + next.elim 0 (PollPoint.due key) +
        (increases 0 (polling.polledBalances key) : Multiset Nat) =
      (polling.publishedAmounts key : Multiset Nat) + point.due key +
        (increases 0 (after.polledBalances key) : Multiset Nat)

variable {point : PollPoint}

/-- A statement that neither writes nor publishes. -/
theorem PollPoint.advances_quiet {polling after : Polling} {chosen : Nat} {next : Option PollPoint}
    (consistent : polling.Cached) (cache : after.cache = polling.cache)
    (polled : after.polled = polling.polled) (store : after.store = polling.store)
    (continues : ∀ later, next = some later → later.Sound polling ∧
      ∀ key ∈ pendingKeys later.entries, key ∈ pendingKeys point.entries ∨
        point.Reads chosen key) (due : ∀ key, next.elim 0 (PollPoint.due key) = point.due key) :
    point.Advances polling after chosen next := by
  have balances : ∀ key, after.polledBalances key = polling.polledBalances key := by
    intro key
    simp only [Polling.polledBalances, polled]
  have last : ∀ key, after.lastPolled key = polling.lastPolled key := by
    intro key
    simp only [Polling.lastPolled, balances]
  refine ⟨?_, fun key => .inl (last key), ?_, fun later goes => (continues later goes).2, ?_⟩
  · intro key
    rw [last, ← consistent key]
    simp only [Polling.cachedBalance, Polling.cached?, cache]
  · intro later goes
    have sound := (continues later goes).1
    have compared : ∀ {entries : List Entry}, Compared polling entries →
        Compared after entries := by
      intro entries compared
      refine ⟨?_, compared.nodup⟩
      intro entry member pending
      rw [last]
      exact compared.last entry member pending
    cases later with
    | getHead | getBlockNumber | setHead | findCursor | updateCursor => exact sound
    | readCache => exact ⟨sound.1, compared sound.2⟩
    | writeCache => exact ⟨sound.1, compared sound.2.1, sound.2.2⟩
    | lookupProvider | lookupBlock | lookupLogs | publish => exact sound
    | findAddresses | findConfigs | findTokens | getProvider | findChain | multicall => trivial
  · intro key
    rw [due, balances]
    simp only [Polling.publishedAmounts, store]

variable {entry : Entry}

/-- An entry that is written adds its increase to the increases. -/
theorem increases_write (last : entry.previousBalance = polling.lastPolled entry.key)
    (key : BalanceKey) :
    (increases 0 ((polling.write entry).polledBalances key) : Multiset Nat) =
      (increases 0 (polling.polledBalances key) : Multiset Nat) +
        if entry.key = key ∧ entry.increased = true then {entry.increase} else 0 := by
  rw [Polling.polledBalances_write]
  by_cases same : entry.key = key
  · subst same
    have before : (polling.polledBalances entry.key).getLast?.getD 0 = entry.previousBalance :=
      last.symm
    rw [if_pos rfl, increases_append_singleton, before]
    by_cases more : entry.previousBalance < entry.reading.balance
    · have increased : entry.increased = true := decide_eq_true more
      rw [if_pos more, if_pos ⟨rfl, increased⟩]
      exact (Multiset.coe_add _ _).symm
    · have stays : ¬ (entry.key = entry.key ∧ entry.increased = true) := by
        rintro ⟨_, increased⟩
        exact more (of_decide_eq_true increased)
      rw [if_neg more, if_neg stays, append_nil, add_zero]
  · have other : ¬ (entry.key = key ∧ entry.increased = true) := fun both => same both.1
    rw [if_neg same, if_neg other, add_zero]

/-- A published increase. -/
theorem publishedAmounts_publish (polling : Polling) (entry : Entry) (currentBlock : Nat)
    (resolved : Option ResolvedTx) (key : BalanceKey) :
    ((polling.publish ⟨entry.message currentBlock resolved, entry.base,
        entry.reading.time⟩).publishedAmounts key : Multiset Nat) =
      (polling.publishedAmounts key : Multiset Nat) +
        if entry.key = key then {entry.increase} else 0 := by
  by_cases same : entry.key = key
  · subst same
    simp only [Polling.publishedAmounts, Polling.publish, Store.publish, Entry.message, if_pos,
      filter_append, map_append, filter_cons, and_self, decide_true, filter_nil,
      map_cons, map_nil]
    exact (Multiset.coe_add _ _).symm
  · have other : ¬ (entry.key.address = key.address ∧
        entry.key.contractAddress = key.contractAddress) := by
      rintro ⟨address, contract⟩
      exact same (by
        obtain ⟨first, second⟩ := key
        cases address
        cases contract
        rfl)
    simp [Polling.publishedAmounts, Polling.publish, Store.publish, Entry.message, same, other]

variable {chosen currentBlock : Nat}

/-- The entry of a key is read from the cache. -/
theorem PollPoint.advances_readCache (consistent : polling.Cached)
    (sound : (PollPoint.readCache currentBlock entries).Sound polling)
    (found : entries[chosen]? = some entry) (unread : entry.previous = none)
    (free : entry.key ∉ pendingKeys entries) :
    (PollPoint.readCache currentBlock entries).Advances polling polling chosen
      (PollPoint.reading currentBlock
        (entries.set chosen { entry with previous := some (polling.cached? entry.key) })) := by
  obtain ⟨unwritten, compared⟩ := sound
  let read : Entry := { entry with previous := some (polling.cached? entry.key) }
  obtain ⟨first, last, split, replaced⟩ := PoolState.exists_split_set found read
  have member : entry ∈ entries := mem_of_getElem? found
  have whole : ∀ other ∈ entries.set chosen read, other.written = false := by
    intro other inSet
    rcases mem_or_eq_of_mem_set inSet with before | rfl
    · exact unwritten other before
    · exact unwritten entry member
  have keys : pendingKeys (entries.set chosen read) =
      pendingKeys first ++ entry.key :: pendingKeys last := by
    have pending : read.pending = true := by
      simp [Entry.pending, read, unwritten entry member]
    rw [replaced]
    simp [pendingKeys, pending, read]
  have before : pendingKeys entries = pendingKeys first ++ pendingKeys last := by
    have notPending : entry.pending = false := by simp [Entry.pending, unread]
    rw [split]
    simp [pendingKeys, notPending]
  have after : Compared polling (entries.set chosen read) := by
    refine ⟨?_, ?_⟩
    · intro other inSet pending
      rcases mem_or_eq_of_mem_set inSet with old | rfl
      · exact compared.last other old pending
      · exact consistent entry.key
    · rw [keys]
      have distinct := compared.nodup
      rw [before] at distinct free
      exact nodup_middle.mpr (nodup_cons.mpr ⟨free, distinct⟩)
  refine advances_quiet consistent rfl rfl rfl ?_ ?_
  · intro later continues
    obtain ⟨holds, pending⟩ := reading_sound whole after continues
    refine ⟨holds, ?_⟩
    intro key inLater
    have inRead := pending key inLater
    rw [keys] at inRead
    rw [show pendingKeys (PollPoint.readCache currentBlock entries).entries =
      pendingKeys first ++ pendingKeys last from before]
    rcases mem_append.mp inRead with inFirst | inRest
    · exact .inl (mem_append_left _ inFirst)
    · rcases mem_cons.mp inRest with rfl | inLast
      · exact .inr ⟨currentBlock, entries, entry, rfl, found, rfl⟩
      · exact .inl (mem_append_right _ inLast)
  · intro key
    have none : entries.filter Entry.written = [] := by
      refine filter_eq_nil_iff.mpr ?_
      intro other inEntries
      simp [unwritten other inEntries]
    refine (reading_unpublished key whole).trans ?_
    simp [PollPoint.due, PollPoint.unpublished, none, dueAmounts]

/-- An entry is written to the cache; whether writing has thrown matters only when the poll
has found no increase. -/
theorem PollPoint.advances_writeCache {failed later : Bool} (consistent : polling.Cached)
    (sound : (PollPoint.writeCache currentBlock entries failed).Sound polling)
    (found : entries[chosen]? = some entry) (unwritten : entry.written = false)
    (quiet : later = true → entries.any Entry.increased = false) :
    (PollPoint.writeCache currentBlock entries failed).Advances polling (polling.write entry) chosen
      (PollPoint.writing currentBlock (entries.set chosen { entry with written := true }) later) := by
  obtain ⟨read, compared, _⟩ := sound
  let done : Entry := { entry with written := true }
  obtain ⟨first, last, split, replaced⟩ := PoolState.exists_split_set found done
  have member : entry ∈ entries := mem_of_getElem? found
  have pending : entry.pending = true := by simp [Entry.pending, read entry member, unwritten]
  have previous : entry.previousBalance = polling.lastPolled entry.key :=
    compared.last entry member pending
  have keys : pendingKeys (entries.set chosen done) = pendingKeys first ++ pendingKeys last := by
    have notPending : done.pending = false := by simp [Entry.pending, done]
    rw [replaced]
    simp [pendingKeys, notPending]
  have before : pendingKeys entries = pendingKeys first ++ entry.key :: pendingKeys last := by
    rw [split]
    simp [pendingKeys, pending]
  have distinct := compared.nodup
  rw [before] at distinct
  obtain ⟨free, rest⟩ := nodup_cons.mp (nodup_middle.mp distinct)
  have whole : ∀ other ∈ entries.set chosen done, other.previous.isSome = true := by
    intro other inSet
    rcases mem_or_eq_of_mem_set inSet with old | rfl
    · exact read other old
    · exact read entry member
  have still : later = true → (entries.set chosen done).any Entry.increased = false := by
    intro stops
    refine any_eq_false.mpr ?_
    intro other inSet
    rcases mem_or_eq_of_mem_set inSet with old | rfl
    · exact any_eq_false.mp (quiet stops) other old
    · exact any_eq_false.mp (quiet stops) entry member
  have after : Compared (polling.write entry) (entries.set chosen done) := by
    refine ⟨?_, by rw [keys]; exact rest⟩
    intro other inSet otherPending
    have inKeys : other.key ∈ pendingKeys (entries.set chosen done) :=
      mem_map_of_mem (mem_filter.mpr ⟨inSet, otherPending⟩)
    rw [keys] at inKeys
    have differs : entry.key ≠ other.key := by
      intro same
      exact free (same ▸ inKeys)
    rw [Polling.lastPolled_write, if_neg differs]
    rcases mem_or_eq_of_mem_set inSet with old | rfl
    · exact compared.last other old otherPending
    · exact absurd rfl differs
  refine ⟨consistent.write entry, ?_, ?_, ?_, ?_⟩
  · intro key
    rw [Polling.lastPolled_write]
    by_cases same : entry.key = key
    · right
      rw [show pendingKeys (PollPoint.writeCache currentBlock entries failed).entries =
        pendingKeys first ++ entry.key :: pendingKeys last from before, ← same]
      simp
    · exact .inl (if_neg same)
  · exact fun point continues => (writing_sound whole after still continues).1
  · intro point continues key inLater
    left
    have inKeys := (writing_sound whole after still continues).2 key inLater
    rw [keys] at inKeys
    rw [show pendingKeys (PollPoint.writeCache currentBlock entries failed).entries =
      pendingKeys first ++ entry.key :: pendingKeys last from before]
    rcases mem_append.mp inKeys with inFirst | inLast
    · exact mem_append_left _ inFirst
    · exact mem_append_right _ (mem_cons_of_mem _ inLast)
  · intro key
    have next : (PollPoint.writing currentBlock (entries.set chosen done) later).elim 0
        (PollPoint.due key) = dueAmounts key ((entries.set chosen done).filter Entry.written) :=
      writing_unpublished key still
    have new : dueAmounts key ((entries.set chosen done).filter Entry.written) =
        dueAmounts key (entries.filter Entry.written) +
          if entry.key = key ∧ entry.increased = true then {entry.increase} else 0 := by
      have written : done.written = true := rfl
      have same : (done.key = key ∧ done.increased = true) =
          (entry.key = key ∧ entry.increased = true) := rfl
      rw [replaced, split]
      simp only [filter_append, filter_cons, written, unwritten, if_true, dueAmounts_append,
        dueAmounts_cons, same, Bool.false_eq_true, if_false]
      exact add_left_comm _ _ _ |>.trans (add_comm _ _)
    rw [next, new, increases_write previous]
    have stream : (polling.write entry).publishedAmounts key = polling.publishedAmounts key := rfl
    rw [stream]
    simp only [PollPoint.due, PollPoint.unpublished]
    abel

/-- Writing an entry has thrown, in a poll that has found no increase. -/
theorem PollPoint.advances_unwritten {failed : Bool} (consistent : polling.Cached)
    (sound : (PollPoint.writeCache currentBlock entries failed).Sound polling)
    (found : entries[chosen]? = some entry) (quiet : entries.any Entry.increased = false) :
    (PollPoint.writeCache currentBlock entries failed).Advances polling polling chosen
      (PollPoint.writing currentBlock (entries.set chosen { entry with written := true }) true) := by
  obtain ⟨read, compared, _⟩ := sound
  let done : Entry := { entry with written := true }
  obtain ⟨first, last, split, replaced⟩ := PoolState.exists_split_set found done
  have member : entry ∈ entries := mem_of_getElem? found
  have whole : ∀ other ∈ entries.set chosen done, other.previous.isSome = true := by
    intro other inSet
    rcases mem_or_eq_of_mem_set inSet with old | rfl
    · exact read other old
    · exact read entry member
  have idle : ∀ other ∈ entries.set chosen done, ¬ other.increased = true := by
    intro other inSet
    rcases mem_or_eq_of_mem_set inSet with old | rfl
    · exact any_eq_false.mp quiet other old
    · exact any_eq_false.mp quiet entry member
  have fewer : (pendingKeys (entries.set chosen done)).Sublist (pendingKeys entries) := by
    have notPending : done.pending = false := by simp [Entry.pending, done]
    rw [replaced, split]
    refine List.Sublist.map _ ?_
    simp only [filter_append, filter_cons, notPending, Bool.false_eq_true, if_false]
    refine List.Sublist.append_left ?_ _
    split
    · exact sublist_cons_self _ _
    · exact List.Sublist.refl _
  have after : Compared polling (entries.set chosen done) := by
    refine ⟨?_, compared.nodup.sublist fewer⟩
    intro other inSet pending
    rcases mem_or_eq_of_mem_set inSet with old | rfl
    · exact compared.last other old pending
    · simp [Entry.pending, done] at pending
  have still : true = true → (entries.set chosen done).any Entry.increased = false :=
    fun _ => any_eq_false.mpr idle
  refine advances_quiet consistent rfl rfl rfl ?_ ?_
  · intro later continues
    obtain ⟨holds, pending⟩ := writing_sound whole after still continues
    exact ⟨holds, fun key inLater => .inl (fewer.subset (pending key inLater))⟩
  · intro key
    refine (writing_unpublished key still).trans ?_
    have noneBefore : (entries.filter Entry.written).any Entry.increased = false := by
      refine any_eq_false.mpr ?_
      exact fun other chosen => any_eq_false.mp quiet other (mem_of_mem_filter chosen)
    have noneAfter : ((entries.set chosen done).filter Entry.written).any Entry.increased =
        false := by
      refine any_eq_false.mpr ?_
      exact fun other chosen => idle other (mem_of_mem_filter chosen)
    rw [dueAmounts_of_none noneAfter]
    exact (dueAmounts_of_none noneBefore).symm

/-- An increase is published, and the poll goes on to the next. -/
theorem PollPoint.advances_publish {rest : List Entry} {resolved : Option ResolvedTx}
    (consistent : polling.Cached) (increased : entry.increased = true) :
    (PollPoint.publish currentBlock entry rest resolved).Advances polling
      (polling.publish ⟨entry.message currentBlock resolved, entry.base, entry.reading.time⟩) chosen
      (PollPoint.emit currentBlock rest) where
  cached := consistent
  last := fun _ => .inl rfl
  sound := fun _ continues => (emit_sound continues).1
  pending := by
    intro later continues key inLater
    have sound : later.Sound polling ∧ later.entries = [] := emit_sound continues
    rw [sound.2] at inLater
    cases inLater
  accounts := by
    intro key
    have next : (PollPoint.emit currentBlock rest).elim 0 (PollPoint.due key) =
        dueAmounts key rest := emit_unpublished key currentBlock rest
    rw [next, publishedAmounts_publish]
    have share : (PollPoint.publish currentBlock entry rest resolved).due key =
        (if entry.key = key then {entry.increase} else 0) + dueAmounts key rest := by
      rw [PollPoint.due, PollPoint.unpublished, dueAmounts_cons]
      simp [increased]
    have same : (polling.publish ⟨entry.message currentBlock resolved, entry.base,
        entry.reading.time⟩).polledBalances key = polling.polledBalances key := rfl
    rw [share, same, add_assoc ((polling.publishedAmounts key : Multiset Nat))]

/-- A statement after which the poll has ended and had nothing to publish. -/
theorem PollPoint.advances_end {polling after : Polling} {chosen : Nat}
    (consistent : polling.Cached) (cache : after.cache = polling.cache)
    (polled : after.polled = polling.polled) (store : after.store = polling.store)
    (nothing : ∀ key, point.due key = 0) : point.Advances polling after chosen none := by
  refine advances_quiet consistent cache polled store ?_ ?_
  · rintro later ⟨⟩
  · exact fun key => (nothing key).symm

/-- A statement that goes on to a point with the same balances to publish. -/
theorem PollPoint.advances_to {polling after : Polling} {chosen : Nat} {point later : PollPoint}
    (consistent : polling.Cached) (cache : after.cache = polling.cache)
    (polled : after.polled = polling.polled) (store : after.store = polling.store)
    (sound : later.Sound polling)
    (pending : ∀ key ∈ pendingKeys later.entries, key ∈ pendingKeys point.entries)
    (due : ∀ key, later.due key = point.due key) :
    point.Advances polling after chosen (some later) := by
  refine advances_quiet consistent cache polled store ?_ due
  rintro other ⟨⟩
  exact ⟨sound, fun key inLater => .inl (pending key inLater)⟩

/-- The cursor is read or written, and the poll goes on to the cache. -/
theorem PollPoint.advances_reading {polling after : Polling} (consistent : polling.Cached)
    (cache : after.cache = polling.cache) (polled : after.polled = polling.polled)
    (store : after.store = polling.store) (nothing : ∀ key, point.due key = 0)
    (fresh : ∀ entry ∈ entries, entry.previous = none ∧ entry.written = false) :
    point.Advances polling after chosen (PollPoint.reading currentBlock entries) := by
  have unwritten : ∀ entry ∈ entries, entry.written = false :=
    fun entry member => (fresh entry member).2
  have unread : ∀ entry ∈ entries, entry.previous = none :=
    fun entry member => (fresh entry member).1
  refine advances_quiet consistent cache polled store ?_ ?_
  · intro later continues
    obtain ⟨sound, pending⟩ := reading_sound unwritten (.of_unread unread) continues
    refine ⟨sound, ?_⟩
    intro key inLater
    have none := pending key inLater
    rw [pendingKeys_of_unread unread] at none
    cases none
  · intro key
    exact (reading_unpublished key unwritten).trans (nothing key).symm

/-- The decoded balances were neither read nor written. -/
theorem decodeBalances_fresh {answer : PollAnswer} {calls : List BalanceKey} :
    ∀ entry ∈ decodeBalances answer calls, entry.previous = none ∧ entry.written = false := by
  intro entry member
  obtain ⟨key, _, decoded⟩ := mem_filterMap.mp member
  obtain ⟨balance, _, rfl⟩ := map_eq_some_iff.mp decoded
  exact ⟨rfl, rfl⟩

variable {input : Input PollAnswer}

/-- Every healthy statement of a poll. -/
theorem PollPoint.healthy_advances {state : PollingState} {after : Polling}
    {next : Option PollPoint} {pid : Nat} (consistent : state.shared.Cached)
    (sound : point.Sound state.shared) (running : state.process? pid = some (.poll point))
    (healthy : point.healthy state input = true)
    (performed : (point.statement state.shared input.answer).perform state.shared input.ending =
      (after, next)) : point.Advances state.shared after input.answer.chosen next := by
  obtain ⟨ending, answer⟩ := input
  have nothing : point.unpublished = [] → ∀ key, point.due key = 0 := by
    intro none key
    rw [PollPoint.due, none, dueAmounts_nil]
  cases point with
  | findAddresses | findConfigs addresses | findChain calls =>
    rcases ending with _ | _ | _ <;>
      simp only [PollPoint.statement, Statement.perform, Prod.mk.injEq] at performed <;>
      obtain ⟨rfl, rfl⟩ := performed
    · split
      all_goals first
        | exact advances_end consistent rfl rfl rfl (nothing rfl)
        | exact advances_to consistent rfl rfl rfl trivial (fun _ none => none) fun _ => rfl
    · exact advances_end consistent rfl rfl rfl (nothing rfl)
    · exact advances_end consistent rfl rfl rfl (nothing rfl)
  | findTokens | getProvider =>
    rcases ending with _ | _ | _ <;> cases performed
    · exact advances_to consistent rfl rfl rfl trivial (fun _ none => none) fun _ => rfl
    · exact advances_end consistent rfl rfl rfl (nothing rfl)
    · exact advances_end consistent rfl rfl rfl (nothing rfl)
  | multicall calls =>
    rcases ending with _ | _ | _ <;> cases performed
    · refine advances_to consistent rfl rfl rfl decodeBalances_fresh ?_ fun _ => rfl
      intro key pending
      have fresh : ∀ entry ∈ decodeBalances answer calls,
          entry.previous = none ∧ entry.written = false := decodeBalances_fresh
      have unread := pendingKeys_of_unread fun entry member => (fresh entry member).1
      simp only [PollPoint.entries, unread] at pending
      cases pending
    · exact advances_end consistent rfl rfl rfl (nothing rfl)
    · exact advances_end consistent rfl rfl rfl (nothing rfl)
  | getHead entries =>
    rcases ending with _ | _ | _ <;> cases performed
    · simp only [PollPoint.statement]
      split
      all_goals
        exact advances_to consistent rfl rfl rfl sound (fun _ pending => pending) fun _ => rfl
    · exact advances_end consistent rfl rfl rfl (nothing rfl)
    · exact advances_end consistent rfl rfl rfl (nothing rfl)
  | getBlockNumber entries | setHead entries head =>
    rcases ending with _ | _ | _ <;> cases performed <;>
      exact advances_to consistent rfl rfl rfl sound (fun _ pending => pending) fun _ => rfl
  | findCursor entries =>
    rcases ending with _ | _ | _ <;> cases performed
    · exact advances_to consistent rfl rfl rfl sound (fun _ pending => pending) fun _ => rfl
    · exact advances_end consistent rfl rfl rfl (nothing rfl)
    · exact advances_end consistent rfl rfl rfl (nothing rfl)
  | updateCursor entries currentBlock =>
    rcases ending with _ | _ | _ <;> cases performed <;>
      exact advances_reading consistent rfl rfl rfl (nothing rfl) sound
  | readCache currentBlock entries =>
    have unwritten : ∀ key, (PollPoint.readCache currentBlock entries).due key = 0 := by
      have none : entries.filter Entry.written = [] := by
        refine filter_eq_nil_iff.mpr ?_
        intro entry member
        simp [sound.1 entry member]
      intro key
      simp [PollPoint.due, PollPoint.unpublished, none, dueAmounts]
    have stays : PollPoint.Advances state.shared state.shared answer.chosen
        (.readCache currentBlock entries) (some (.readCache currentBlock entries)) :=
      advances_to consistent rfl rfl rfl sound (fun _ pending => pending) fun _ => rfl
    simp only [PollPoint.statement] at performed
    split at performed
    · rename_i key balance done found
      rcases ending with _ | _ | _ <;> cases performed
      · refine advances_readCache consistent sound found rfl ?_
        have free := healthy
        simp only [PollPoint.healthy, found, all_some] at free
        exact of_decide_eq_true (PoolState.every_apply free running)
      · exact advances_end consistent rfl rfl rfl unwritten
      · exact advances_end consistent rfl rfl rfl unwritten
    · rcases ending with _ | _ | _ <;> cases performed
      · exact stays
      · exact advances_end consistent rfl rfl rfl unwritten
      · exact advances_end consistent rfl rfl rfl unwritten
  | writeCache currentBlock entries failed =>
    have goesOn : ending = .done ∨ entries.any Entry.increased = false := by
      simpa [PollPoint.healthy] using healthy
    have stays : PollPoint.Advances state.shared state.shared answer.chosen
        (.writeCache currentBlock entries failed)
        (some (.writeCache currentBlock entries failed)) :=
      advances_to consistent rfl rfl rfl sound (fun _ pending => pending) fun _ => rfl
    simp only [PollPoint.statement] at performed
    split at performed
    · rename_i key balance previous found
      rcases goesOn with rfl | quiet
      · cases performed
        exact advances_writeCache consistent sound found rfl sound.2.2
      · have idle : ∀ key, (PollPoint.writeCache currentBlock entries failed).due key = 0 := by
          intro key
          refine dueAmounts_of_none (any_eq_false.mpr ?_)
          intro other member
          exact any_eq_false.mp quiet other (mem_of_mem_filter member)
        rcases ending with _ | _ | _ <;> cases performed
        · exact advances_writeCache consistent sound found rfl fun _ => quiet
        · exact advances_unwritten consistent sound found quiet
        · exact advances_writeCache consistent sound found rfl fun _ => quiet
    · rcases ending with _ | _ | _ <;> cases performed <;> exact stays
  | lookupProvider currentBlock entry rest =>
    rcases ending with _ | _ | _ <;>
      simp only [PollPoint.statement, Statement.perform, Prod.mk.injEq] at performed <;>
      obtain ⟨rfl, rfl⟩ := performed
    · split
      all_goals
        exact advances_to consistent rfl rfl rfl sound (fun _ none => none) fun _ => rfl
    all_goals
      exact advances_to consistent rfl rfl rfl sound (fun _ none => none) fun _ => rfl
  | lookupBlock currentBlock entry rest blockNumber =>
    rcases ending with _ | _ | _ <;>
      simp only [PollPoint.statement, PollPoint.lookupBefore, Statement.perform,
        Prod.mk.injEq] at performed <;>
      obtain ⟨rfl, rfl⟩ := performed
    · split
      · exact advances_to consistent rfl rfl rfl sound (fun _ none => none) fun _ => rfl
      · split
        all_goals
          exact advances_to consistent rfl rfl rfl sound (fun _ none => none) fun _ => rfl
    all_goals
      exact advances_to consistent rfl rfl rfl sound (fun _ none => none) fun _ => rfl
  | lookupLogs currentBlock entry rest =>
    rcases ending with _ | _ | _ <;> cases performed <;>
      exact advances_to consistent rfl rfl rfl sound (fun _ none => none) fun _ => rfl
  | publish currentBlock entry rest resolved =>
    obtain ⟨rfl, streamed⟩ : ending = .done ∧ answer.streamed = true := by
      simpa [PollPoint.healthy] using healthy
    simp only [PollPoint.statement, streamed, if_true, Statement.perform,
      Prod.mk.injEq] at performed
    obtain ⟨rfl, rfl⟩ := performed
    exact advances_publish consistent sound

/-! ## Runs -/

/-- What a process knows at each of its points. -/
def PollingProcess.Sound (polling : Polling) : PollingProcess → Prop
  | .poll point => point.Sound polling
  | .reconcile _ => True

/-- A process keeps what it knows while the balances polled last stay for its keys. -/
theorem PollingProcess.Sound.extend {polling after : Polling} {process : PollingProcess}
    (sound : process.Sound polling)
    (last : ∀ key ∈ pendingKeys process.entries, after.lastPolled key = polling.lastPolled key) :
    process.Sound after := by
  have compared : ∀ {entries : List Entry}, Compared polling entries →
      (∀ key ∈ pendingKeys entries, after.lastPolled key = polling.lastPolled key) →
      Compared after entries := by
    intro entries compared same
    refine ⟨?_, compared.nodup⟩
    intro entry member pending
    rw [same entry.key (mem_map_of_mem (mem_filter.mpr ⟨member, pending⟩))]
    exact compared.last entry member pending
  cases process with
  | reconcile => trivial
  | poll point =>
    cases point with
    | readCache => exact ⟨sound.1, compared sound.2 last⟩
    | writeCache => exact ⟨sound.1, compared sound.2.1 last, sound.2.2⟩
    | getHead | getBlockNumber | setHead | findCursor | updateCursor | lookupProvider
    | lookupBlock | lookupLogs | publish => exact sound
    | findAddresses | findConfigs | findTokens | getProvider | findChain | multicall => trivial

/-- No two processes are between the reading and the writing of one entry. -/
def pollingOutline : ProofOutline Polling PollingProcess where
  Global := Polling.Cached
  Local := PollingProcess.Sound
  Apart first second := ∀ key ∈ pendingKeys first.entries, key ∉ pendingKeys second.entries
  apart_symm := fun apart key inSecond inFirst => apart key inFirst inSecond

/-- The amounts that a process has yet to publish. -/
def PollingProcess.due (key : BalanceKey) (process : PollingProcess) : Multiset Nat :=
  dueAmounts key process.unpublished

/-- What is published and what is to be published are the increases. -/
def PollingState.Balanced (state : PollingState) : Prop :=
  ∀ key, (state.shared.publishedAmounts key : Multiset Nat) +
      state.tally (PollingProcess.due key) =
    (increases 0 (state.shared.polledBalances key) : Multiset Nat)

/-- What a healthy statement of any process does. -/
structure PollingProcess.Advances (polling after : Polling) (chosen : Nat)
    (process : PollingProcess) (next : Option PollingProcess) : Prop where
  cached : after.Cached
  last : ∀ key, after.lastPolled key = polling.lastPolled key ∨
    key ∈ pendingKeys process.entries
  sound : ∀ later, next = some later → later.Sound after
  pending : ∀ later, next = some later → ∀ key ∈ pendingKeys later.entries,
    key ∈ pendingKeys process.entries ∨
      ∃ point : PollPoint, process = .poll point ∧ point.Reads chosen key
  accounts : ∀ key,
    (after.publishedAmounts key : Multiset Nat) + next.elim 0 (PollingProcess.due key) +
        (increases 0 (polling.polledBalances key) : Multiset Nat) =
      (polling.publishedAmounts key : Multiset Nat) + process.due key +
        (increases 0 (after.polledBalances key) : Multiset Nat)

/-- The reconciliation publishes nothing and does not poll. -/
theorem ReconcilePoint.healthy_advances {polling after : Polling} {point : ReconcilePoint}
    {next : Option ReconcilePoint} (consistent : polling.Cached)
    (healthy : point.healthy polling input.ending = true)
    (performed : (point.statement polling input.answer).perform polling input.ending =
      (after, next)) :
    PollingProcess.Advances polling after input.answer.chosen (.reconcile point)
      (next.map .reconcile) := by
  have same : after.polled = polling.polled ∧ after.store = polling.store := by
    cases point with
    | multicall | writeCache =>
      exact Statement.perform_shared
        (fun after => after.polled = polling.polled ∧ after.store = polling.store)
        performed ⟨rfl, rfl⟩ ⟨rfl, rfl⟩
    | readCache key onChain rest =>
      refine Statement.perform_shared
        (fun after => after.polled = polling.polled ∧ after.store = polling.store)
        performed ⟨rfl, rfl⟩ ?_
      simp only [ReconcilePoint.statement]
      split <;> exact ⟨rfl, rfl⟩
  obtain ⟨polled, store⟩ := same
  have balances : ∀ key, after.polledBalances key = polling.polledBalances key := by
    intro key
    simp only [Polling.polledBalances, polled]
  have last : ∀ key, after.lastPolled key = polling.lastPolled key := by
    intro key
    simp only [Polling.lastPolled, balances]
  have none : ∀ later, next.map PollingProcess.reconcile = some later →
      later.entries = [] ∧ later.Sound after := by
    intro later continues
    obtain ⟨_, _, rfl⟩ := map_eq_some_iff.mp continues
    exact ⟨rfl, trivial⟩
  refine ⟨?_, fun key => .inl (last key), fun later goes => (none later goes).2, ?_, ?_⟩
  · intro key
    rw [last]
    cases point with
    | multicall calls =>
      refine Statement.perform_shared
        (fun after => after.cachedBalance key = polling.lastPolled key) performed
        (consistent key) (consistent key)
    | readCache other onChain rest =>
      refine Statement.perform_shared
        (fun after => after.cachedBalance key = polling.lastPolled key) performed
        (consistent key) ?_
      simp only [ReconcilePoint.statement]
      split <;> exact consistent key
    | writeCache other onChain rest =>
      have written : input.ending = .failed ∨ onChain.balance = polling.lastPolled other := by
        simpa [ReconcilePoint.healthy] using healthy
      obtain ⟨rfl, ended⟩ | ⟨_, rfl, _⟩ := Statement.perform_cases performed
      · have balance : onChain.balance = polling.lastPolled other := by
          refine written.resolve_left ?_
          rcases ended with ⟨ending, _⟩ | ⟨ending, _⟩ <;> simp [ending]
        have stored : (polling.setCache other onChain).cachedBalance key =
            if key = other then onChain.balance else polling.cachedBalance key :=
          polling.cachedBalance_setCache other onChain key
        refine stored.trans ?_
        by_cases hit : key = other
        · rw [if_pos hit, balance, hit]
        · rw [if_neg hit, consistent key]
      · exact consistent key
  · intro later continues key inLater
    rw [(none later continues).1] at inLater
    cases inLater
  · intro key
    have ended : (next.map PollingProcess.reconcile).elim 0 (PollingProcess.due key) = 0 := by
      cases next <;> rfl
    rw [ended, balances]
    simp only [Polling.publishedAmounts, store]
    rfl

theorem PollingProcess.healthy_advances {state : PollingState} {after : Polling}
    {process : PollingProcess} {next : Option PollingProcess} {pid : Nat}
    (consistent : state.shared.Cached) (sound : process.Sound state.shared)
    (running : state.process? pid = some process) (healthy : process.healthy state input = true)
    (performed : (process.statement state.shared input.answer).perform state.shared input.ending =
      (after, next)) : process.Advances state.shared after input.answer.chosen next := by
  cases process with
  | poll point =>
    obtain ⟨later, moved, rfl⟩ : ∃ later,
        (point.statement state.shared input.answer).perform state.shared input.ending =
          (after, later) ∧ next = later.map .poll := by
      obtain ⟨ending, answer⟩ := input
      rcases ending with _ | _ | _ <;> cases performed <;> exact ⟨_, rfl, rfl⟩
    have advances := PollPoint.healthy_advances consistent sound running healthy moved
    refine ⟨advances.cached, advances.last, ?_, ?_, ?_⟩
    · intro process continues
      obtain ⟨point, goes, rfl⟩ := map_eq_some_iff.mp continues
      exact advances.sound point goes
    · intro process continues key inLater
      obtain ⟨point, goes, rfl⟩ := map_eq_some_iff.mp continues
      exact (advances.pending point goes key inLater).imp_right fun reads => ⟨_, rfl, reads⟩
    · intro key
      have share : (later.map PollingProcess.poll).elim 0 (PollingProcess.due key) =
          later.elim 0 (PollPoint.due key) := by
        cases later <;> rfl
      rw [share]
      exact advances.accounts key
  | reconcile point =>
    obtain ⟨later, moved, rfl⟩ : ∃ later,
        (point.statement state.shared input.answer).perform state.shared input.ending =
          (after, later) ∧ next = later.map .reconcile := by
      obtain ⟨ending, answer⟩ := input
      rcases ending with _ | _ | _ <;> cases performed <;> exact ⟨_, rfl, rfl⟩
    exact ReconcilePoint.healthy_advances consistent healthy moved

/-- What begins from outside. -/
theorem Polling.start_keeps {polling after : Polling} {begun : PollingStart}
    {process : Option PollingProcess} (consistent : polling.Cached)
    (healthy : begun.healthy polling = true)
    (started : polling.start begun = some (after, process)) :
    after.Cached ∧ after.polled = polling.polled ∧
      after.store.stream = polling.store.stream ∧
      ∀ point, process = some point → point.Sound after ∧ point.entries = [] ∧
        point.unpublished = [] := by
  cases begun with
  | poll | reconcile =>
    cases started
    refine ⟨consistent, rfl, rfl, ?_⟩
    rintro point ⟨⟩
    exact ⟨trivial, rfl, rfl⟩
  | expire key =>
    cases started
    refine ⟨?_, rfl, rfl, by simp⟩
    intro other
    have zero : polling.cachedBalance key = 0 := of_decide_eq_true healthy
    have last : (polling.expire key).lastPolled other = polling.lastPolled other := rfl
    rw [Polling.cachedBalance_expire, last]
    by_cases same : other = key
    · rw [if_pos same, ← consistent other, same, zero]
    · rw [if_neg same, consistent other]
  | expireHead | moveCursor | configure =>
    cases started
    exact ⟨consistent, rfl, rfl, by simp⟩

/-- Every healthy action keeps what is published and to be published in balance. -/
theorem balanced_step {state next : PollingState} {action : PollingAction}
    (balanced : PollingState.Balanced state) (healthy : PollingState.Healthy state action)
    (holds : pollingOutline.Holds state)
    (transition : balancePolling.system.step state action = some next) :
    PollingState.Balanced next := by
  intro key
  cases action with
  | launch begun =>
    obtain ⟨shared, process, started, rfl⟩ := ProcessPool.step_launch transition
    obtain ⟨_, polled, stream, own⟩ := Polling.start_keeps holds.global healthy started
    have idle : process.elim 0 (PollingProcess.due key) = 0 := by
      cases process with
      | none => rfl
      | some point =>
        obtain ⟨_, _, nothing⟩ := own point rfl
        simp only [elim_some, PollingProcess.due, nothing]
        rfl
    rw [PoolState.tally_spawn, idle, add_zero, PoolState.shared_spawn]
    simp only [Polling.publishedAmounts, Polling.polledBalances, polled, stream]
    exact balanced key
  | crash pid =>
    obtain ⟨before, running, rfl⟩ := ProcessPool.step_crash transition
    have idle : before.due key = 0 := by
      refine dueAmounts_of_none ?_
      simpa [PollingState.Healthy, PollingState.healthy, running] using healthy
    have moved : (state.update state.shared pid none).tally (PollingProcess.due key) +
        before.due key = state.tally (PollingProcess.due key) +
          (none : Option PollingProcess).elim 0 (PollingProcess.due key) :=
      PoolState.tally_update running state.shared none
    rw [idle, add_zero, elim_none, add_zero] at moved
    rw [moved, PoolState.shared_update]
    exact balanced key
  | advance pid input =>
    obtain ⟨before, shared, process, running, moved, rfl⟩ := ProcessPool.step_advance transition
    have fit : before.healthy state input = true := by
      simpa [PollingState.Healthy, PollingState.healthy, running] using healthy
    have advances := PollingProcess.healthy_advances holds.global
      (holds.locals pid before running) running fit (Option.some.inj moved)
    have shares : (state.update shared pid process).tally (PollingProcess.due key) +
        before.due key = state.tally (PollingProcess.due key) +
          process.elim 0 (PollingProcess.due key) :=
      PoolState.tally_update running shared process
    have accounts := advances.accounts key
    rw [PoolState.shared_update]
    rw [← balanced key] at accounts
    -- The share of the acting process and the sum before cancel on both sides.
    refine add_right_cancel (b := before.due key +
      ((state.shared.publishedAmounts key : Multiset Nat) +
        state.tally (PollingProcess.due key))) ?_
    calc _ = (shared.publishedAmounts key : Multiset Nat) +
          ((state.update shared pid process).tally (PollingProcess.due key) + before.due key) +
          ((state.shared.publishedAmounts key : Multiset Nat) +
            state.tally (PollingProcess.due key)) := by abel
      _ = (shared.publishedAmounts key : Multiset Nat) + process.elim 0 (PollingProcess.due key) +
          ((state.shared.publishedAmounts key : Multiset Nat) +
            state.tally (PollingProcess.due key)) +
          state.tally (PollingProcess.due key) := by
        rw [shares]
        abel
      _ = _ := by
        rw [accounts]
        abel

/-- In every healthy run, each increase of a balance from one poll to the next is published
once with its amount, and nothing else is. -/
theorem increases_published_once {state : PollingState}
    (reached : balancePolling.system.Reachable PollingState.Healthy state) :
    PollingState.PublishedOnce state := by
  have joint : pollingOutline.HoldsWith PollingState.Balanced state := by
    refine ProofOutline.reachable_with reached ?_ ?_ ?_ ?_
    · rintro polling ⟨cache, stream, polled, _⟩
      refine ⟨?_, ?_⟩
      · intro key
        simp [Polling.cachedBalance, Polling.cached?, cache, Polling.lastPolled,
          Polling.polledBalances, polled]
      · intro key
        simp [Polling.publishedAmounts, stream, Polling.polledBalances, polled, increases,
          PoolState.tally]
    · intro before begun shared process holds _ healthy started
      obtain ⟨cached, polled, _, own⟩ := Polling.start_keeps holds.global healthy started
      refine ⟨cached, fun point continues => (own point continues).1, ?_, ?_⟩
      · intro other point _ running
        refine (holds.locals other point running).extend ?_
        intro key _
        simp only [Polling.lastPolled, Polling.polledBalances, polled]
      · intro point other right continues _ _ key inPoint
        rw [(own point continues).2.1] at inPoint
        cases inPoint
    · intro before pid process input shared next holds _ healthy running moved
      have fit : process.healthy before input = true := by
        simpa [PollingState.Healthy, PollingState.healthy, running] using healthy
      have advances := PollingProcess.healthy_advances holds.global
        (holds.locals pid process running) running fit (Option.some.inj moved)
      refine ⟨advances.cached, advances.sound, ?_, ?_⟩
      · intro other point different runs
        refine (holds.locals other point runs).extend ?_
        intro key inOther
        refine (advances.last key).resolve_right ?_
        exact fun inActing => holds.apart pid other process point (Ne.symm different) running runs
          key inActing inOther
      · intro point other right continues different runs key inPoint
        rcases advances.pending point continues key inPoint with inActing | ⟨poll, rfl, reads⟩
        · exact holds.apart pid other process right (Ne.symm different) running runs key inActing
        · obtain ⟨currentBlock, entries, entry, rfl, found, rfl⟩ := reads
          have free : before.every (fun _ process => entry.key ∉ pendingKeys process.entries) =
              true := by
            simpa [PollingProcess.healthy, PollPoint.healthy, found] using fit
          exact of_decide_eq_true (PoolState.every_apply free runs)
    · intro before action next holds balanced healthy transition
      exact balanced_step balanced healthy holds transition
  intro key
  have together := joint.covered key
  refine ⟨?_, ?_⟩
  · refine Multiset.coe_le.mp ?_
    rw [← together]
    exact Multiset.le_add_right _ _
  · intro rests
    have none : state.tally (PollingProcess.due key) = 0 := by
      refine PoolState.tally_eq_zero ?_
      intro process member running same
      cases running with
      | poll => cases rests process member _ same
      | reconcile => rfl
    rw [none, add_zero] at together
    exact Multiset.coe_eq_coe.mp together

/-! ## Two polls of a forwarder -/

/-- The forwarder 7 is polled for the native currency. -/
def samplePolling : Polling where
  addresses := [⟨7, 1, true⟩]
  monitoringModes := []
  chainKnown := true
  head := none
  cursor := none
  cache := []
  discrepancies := []
  store := ⟨[], [], [⟨7, 1, 1, 1⟩], [⟨1, zeroAddress, true⟩], some 12, []⟩
  polled := []
  publications := []

theorem samplePolling_initial : balancePolling.system.Initial ⟨samplePolling, []⟩ :=
  ⟨⟨rfl, rfl, rfl, rfl⟩, rfl⟩

/-- A statement that succeeds; each balance is as given, and block 9 sends the forwarder 3. -/
def polls (pid balance : Nat) : PollingAction :=
  .advance pid ⟨.done, ⟨fun _ => some balance, 0, 9, some [⟨4, 2, some 7, 3⟩], [], 0, true⟩⟩

/-- A first poll finds a balance of 5. -/
def firstPoll : List PollingAction :=
  [.launch .poll] ++ List.replicate 13 (polls 0 5)

def sampleKey : BalanceKey := ⟨7, zeroAddress⟩

/-- A second poll finds a balance of 8: the amounts 5 and 3 are published. -/
theorem increases_published_once_sample :
    ∃ state : PollingState, state.shared.publishedAmounts sampleKey = [5, 3] ∧
      PollingState.PublishedOnce state := by
  obtain ⟨state, reached, passed⟩ : ∃ state,
      balancePolling.system.Reachable PollingState.Healthy state ∧
      state.shared.publishedAmounts sampleKey = [5, 3] :=
    exists_reachable samplePolling_initial
      (firstPoll ++ [.launch .poll] ++ List.replicate 13 (polls 1 8)) (by decide +kernel)
  exact ⟨state, passed, increases_published_once reached⟩

/-- Between the two polls the reconciliation writes the balance of 8 to the cache: the second
poll finds no increase, and the 3 are never published. -/
theorem increase_lost :
    ¬ ∀ state : PollingState, balancePolling.system.Reachable Unrestricted state →
      PollingState.PublishedOnce state := by
  intro always
  obtain ⟨state, reached, ended, published, due⟩ : ∃ state,
      balancePolling.system.Reachable Unrestricted state ∧
      (∀ process ∈ state.processes, process = none) ∧
        state.shared.publishedAmounts sampleKey = [5] ∧
        increases 0 (state.shared.polledBalances sampleKey) = [5, 3] :=
    exists_reachable samplePolling_initial
      (firstPoll ++ [.launch (.reconcile [sampleKey])] ++ List.replicate 3 (polls 1 8) ++
        [.launch .poll] ++ List.replicate 10 (polls 2 8)) (by decide +kernel)
  have rests : PollingState.Rests state := by
    intro process member running same
    cases ended process member
    cases same
  have permuted := (always state reached sampleKey).2 rests
  rw [published, due] at permuted
  have lengths := permuted.length_eq
  simp at lengths

end CryptoVaultHub.Indexer
