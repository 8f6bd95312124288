import CryptoVaultHub.Indexer.BlockProcessor

/-!
# Materialised balances

`materializeForChain` nets the events of a batch by address and token and adds an entry for
each key to `materialized_balances`. `processBlock` leaves the token id of a row NULL, which no
unique key takes for a duplicate, so that the balance of a key is spread over all its rows.
-/

namespace CryptoVaultHub.Indexer

open List

/-! ## The tables -/

/-- What a balance is kept for. -/
structure AssetKey where
  address : Address
  tokenId : Option Nat
deriving DecidableEq

/-- `processBlock` sets no token id. -/
def IndexedEvent.tokenId (_ : IndexedEvent) : Option Nat := none

/-- The balance that an event changes: that of its recipient or that of its sender. -/
def IndexedEvent.key (event : IndexedEvent) : AssetKey :=
  ⟨if event.isInbound then event.toAddress else event.fromAddress, event.tokenId⟩

def IndexedEvent.change (event : IndexedEvent) : Int :=
  if event.isInbound then event.amount else -event.amount

/-- An entry of `balanceMap`. -/
structure BalanceEntry where
  key : AssetKey
  owner : MonitoredAddr
  netAmount : Int
  lastBlock : Nat
deriving DecidableEq

/-- A row of `materialized_balances`. -/
structure BalanceRow where
  key : AssetKey
  owner : MonitoredAddr
  balance : Int
  lastUpdatedBlock : Nat
deriving DecidableEq

/-- The entry of a key, with an event added to it. -/
def BalanceEntry.add (event : IndexedEvent) (entry : BalanceEntry) : BalanceEntry :=
  if entry.key = event.key then
    { entry with
      netAmount := entry.netAmount + event.change
      lastBlock := max entry.lastBlock event.blockNumber }
  else entry

/-- One event in `balanceMap`. An outgoing event opens an entry only for a client. -/
def addEvent (entries : List BalanceEntry) (event : IndexedEvent) : List BalanceEntry :=
  if entries.any fun entry => entry.key = event.key then entries.map (BalanceEntry.add event)
  else if event.isInbound ∨ event.owner.clientId ≠ 0 then
    entries ++ [⟨event.key, event.owner, event.change, event.blockNumber⟩]
  else entries

def balanceMap (events : List IndexedEvent) : List BalanceEntry := events.foldl addEvent []

/-- The entries that are written: those of a client. -/
def clientEntries (events : List IndexedEvent) : List BalanceEntry :=
  (balanceMap events).filter fun entry => entry.owner.clientId ≠ 0

/-- `INSERT ... ON DUPLICATE KEY UPDATE`; a NULL token id makes no duplicate. -/
def upsertBalance (rows : List BalanceRow) (entry : BalanceEntry) : List BalanceRow :=
  if entry.key.tokenId.isSome ∧ rows.any fun row => row.key = entry.key then
    rows.map fun row =>
      if row.key = entry.key then
        { row with
          balance := row.balance + entry.netAmount, lastUpdatedBlock := entry.lastBlock }
      else row
  else rows ++ [⟨entry.key, entry.owner, entry.netAmount, entry.lastBlock⟩]

/-- The balance of a key over all its rows. -/
def balanceOf (rows : List BalanceRow) (key : AssetKey) : Int :=
  ((rows.filter fun row => row.key = key).map BalanceRow.balance).sum

/-- What entries add to a balance. -/
def netOf (entries : List BalanceEntry) (key : AssetKey) : Int :=
  ((entries.filter fun entry => entry.key = key).map BalanceEntry.netAmount).sum

/-- The fold of events for a balance: inflows minus outflows. -/
def foldOf (events : List IndexedEvent) (key : AssetKey) : Int :=
  ((events.filter fun event => event.key = key).map IndexedEvent.change).sum

/-! ## One batch -/

variable {entries : List BalanceEntry} {events : List IndexedEvent} {event : IndexedEvent}
  {rows : List BalanceRow} {key : AssetKey}

theorem foldOf_cons (event : IndexedEvent) (events : List IndexedEvent) (key : AssetKey) :
    foldOf (event :: events) key = (if event.key = key then event.change else 0) +
      foldOf events key := by
  simp only [foldOf, filter_cons, decide_eq_true_eq]
  split
  · rw [map_cons, sum_cons]
  · rw [zero_add]

theorem foldOf_append (first last : List IndexedEvent) (key : AssetKey) :
    foldOf (first ++ last) key = foldOf first key + foldOf last key := by
  simp [foldOf]

theorem netOf_cons (entry : BalanceEntry) (entries : List BalanceEntry) (key : AssetKey) :
    netOf (entry :: entries) key = (if entry.key = key then entry.netAmount else 0) +
      netOf entries key := by
  simp only [netOf, filter_cons, decide_eq_true_eq]
  split
  · rw [map_cons, sum_cons]
  · rw [zero_add]

theorem netOf_append (first last : List BalanceEntry) (key : AssetKey) :
    netOf (first ++ last) key = netOf first key + netOf last key := by
  simp [netOf]

theorem netOf_eq_zero (absent : ∀ entry ∈ entries, entry.key ≠ key) : netOf entries key = 0 := by
  have none : (entries.filter fun entry => entry.key = key) = [] := by
    refine filter_eq_nil_iff.mpr ?_
    intro entry member
    simpa using absent entry member
  rw [netOf, none]
  rfl

theorem balanceOf_append (first last : List BalanceRow) (key : AssetKey) :
    balanceOf (first ++ last) key = balanceOf first key + balanceOf last key := by
  simp [balanceOf]

theorem balanceOf_upsertBalance {entry : BalanceEntry} (token : entry.key.tokenId = none) :
    balanceOf (upsertBalance rows entry) key =
      balanceOf rows key + if entry.key = key then entry.netAmount else 0 := by
  have appends : upsertBalance rows entry =
      rows ++ [⟨entry.key, entry.owner, entry.netAmount, entry.lastBlock⟩] := by
    rw [upsertBalance, token]
    simp
  rw [appends, balanceOf_append]
  by_cases same : entry.key = key
  · simp [balanceOf, same]
  · simp [balanceOf, same]

/-- The map keeps one entry for each key, and each of a token id that is NULL. -/
structure Netted (entries : List BalanceEntry) : Prop where
  keys : (entries.map BalanceEntry.key).Nodup
  tokens : ∀ entry ∈ entries, entry.key.tokenId = none

theorem BalanceEntry.key_add (event : IndexedEvent) (entry : BalanceEntry) :
    (entry.add event).key = entry.key := by
  rw [BalanceEntry.add]
  split <;> rfl

theorem BalanceEntry.owner_add (event : IndexedEvent) (entry : BalanceEntry) :
    (entry.add event).owner = entry.owner := by
  rw [BalanceEntry.add]
  split <;> rfl

theorem map_add_keys (event : IndexedEvent) (entries : List BalanceEntry) :
    (entries.map (BalanceEntry.add event)).map BalanceEntry.key =
      entries.map BalanceEntry.key := by
  rw [map_map]
  exact map_congr_left fun entry _ => entry.key_add event

theorem Netted.addEvent (netted : Netted entries) : Netted (addEvent entries event) := by
  rw [Indexer.addEvent]
  split
  · refine ⟨?_, ?_⟩
    · rw [map_add_keys]
      exact netted.keys
    · intro entry member
      obtain ⟨old, before, rfl⟩ := mem_map.mp member
      rw [old.key_add]
      exact netted.tokens old before
  · rename_i absent
    split
    · refine ⟨?_, ?_⟩
      · rw [map_append, nodup_append]
        refine ⟨netted.keys, by simp, ?_⟩
        rintro key member other new rfl
        obtain ⟨entry, before, same⟩ := mem_map.mp member
        simp only [map_cons, map_nil, mem_singleton] at new
        refine absent (any_eq_true.mpr ⟨entry, before, ?_⟩)
        rw [decide_eq_true_eq, same, new]
      · intro entry member
        rcases mem_append.mp member with old | new
        · exact netted.tokens entry old
        · rw [mem_singleton.mp new]
          rfl
    · exact netted

/-- Entries of other keys stay. -/
theorem map_add_of_absent (absent : ∀ entry ∈ entries, entry.key ≠ event.key) :
    entries.map (BalanceEntry.add event) = entries := by
  refine (map_congr_left ?_).trans (map_id entries)
  intro entry member
  rw [BalanceEntry.add, if_neg (absent entry member)]
  rfl

/-- An event adds its change to the entry of its key. -/
theorem netOf_map_add (unique : (entries.map BalanceEntry.key).Nodup)
    (inside : ∃ entry ∈ entries, entry.key = event.key) :
    netOf (entries.map (BalanceEntry.add event)) key =
      netOf entries key + if event.key = key then event.change else 0 := by
  induction entries with
  | nil =>
    obtain ⟨entry, member, _⟩ := inside
    cases member
  | cons first rest ih =>
    obtain ⟨apart, unique⟩ := nodup_cons.mp unique
    rw [map_cons, netOf_cons, netOf_cons, BalanceEntry.key_add]
    by_cases here : first.key = event.key
    · have others : ∀ entry ∈ rest, entry.key ≠ event.key := by
        intro entry member same
        exact apart (mem_map.mpr ⟨entry, member, same.trans here.symm⟩)
      rw [map_add_of_absent others, BalanceEntry.add, if_pos here, here]
      split <;> ring
    · obtain ⟨entry, member, same⟩ := inside
      have inRest : ∃ entry ∈ rest, entry.key = event.key := by
        rcases mem_cons.mp member with rfl | later
        · exact absurd same here
        · exact ⟨entry, later, same⟩
      rw [ih unique inRest, BalanceEntry.add, if_neg here]
      ring

/-- Every entry of the key is of a client. -/
def OfClient (entries : List BalanceEntry) (key : AssetKey) : Prop :=
  ∀ entry ∈ entries, entry.key = key → entry.owner.clientId ≠ 0

theorem OfClient.addEvent (clients : OfClient entries key)
    (client : event.key = key → event.owner.clientId ≠ 0) :
    OfClient (addEvent entries event) key := by
  rw [Indexer.addEvent]
  intro entry member same
  split at member
  · obtain ⟨old, before, rfl⟩ := mem_map.mp member
    rw [old.key_add] at same
    rw [old.owner_add]
    exact clients old before same
  · split at member
    · rcases mem_append.mp member with old | new
      · exact clients entry old same
      · obtain rfl := mem_singleton.mp new
        exact client same
    · exact clients entry member same

theorem netOf_addEvent (netted : Netted entries)
    (client : event.key = key → event.owner.clientId ≠ 0) :
    netOf (addEvent entries event) key =
      netOf entries key + if event.key = key then event.change else 0 := by
  rw [addEvent]
  split
  · rename_i present
    obtain ⟨entry, member, same⟩ := any_eq_true.mp present
    exact netOf_map_add netted.keys ⟨entry, member, of_decide_eq_true same⟩
  · split
    · rw [netOf_append, netOf_cons]
      simp [netOf]
    · rename_i noClient
      by_cases same : event.key = key
      · exact absurd (.inr (client same)) noClient
      · simp [same]

/-- The entries of a batch for a key add up to its events, if these are of clients. -/
theorem foldl_addEvent (netted : Netted entries) (clients : OfClient entries key)
    (client : ∀ event ∈ events, event.key = key → event.owner.clientId ≠ 0) :
    Netted (events.foldl addEvent entries) ∧ OfClient (events.foldl addEvent entries) key ∧
      netOf (events.foldl addEvent entries) key = netOf entries key + foldOf events key := by
  induction events generalizing entries with
  | nil => exact ⟨netted, clients, by simp [foldOf]⟩
  | cons event rest ih =>
    have here := client event mem_cons_self
    have nettedNow : Netted (addEvent entries event) := netted.addEvent
    obtain ⟨nettedAll, clientsAll, sum⟩ := ih nettedNow
      (clients.addEvent here) fun other member => client other (mem_cons_of_mem _ member)
    refine ⟨nettedAll, clientsAll, ?_⟩
    rw [foldl_cons, sum, netOf_addEvent netted here, foldOf_cons]
    ring

theorem netted_nil : Netted [] := ⟨nodup_nil, by simp⟩

theorem netOf_filter_client (clients : OfClient entries key) :
    netOf (entries.filter fun entry => entry.owner.clientId ≠ 0) key = netOf entries key := by
  rw [netOf, netOf, filter_filter]
  congr 2
  refine filter_congr ?_
  intro entry member
  by_cases same : entry.key = key
  · simp [same, clients entry member same]
  · simp [same]

/-- What a batch writes for a key. -/
theorem netOf_clientEntries
    (client : ∀ event ∈ events, event.key = key → event.owner.clientId ≠ 0) :
    netOf (clientEntries events) key = foldOf events key := by
  obtain ⟨_, clients, sum⟩ := foldl_addEvent netted_nil
    (by simp [OfClient] : OfClient [] key) client
  rw [clientEntries, balanceMap, netOf_filter_client clients, sum]
  simp [netOf]

theorem Netted.foldl (netted : Netted entries) :
    Netted (events.foldl Indexer.addEvent entries) := by
  induction events generalizing entries with
  | nil => exact netted
  | cons event rest ih => exact ih netted.addEvent

theorem tokenId_clientEntries {entry : BalanceEntry} (member : entry ∈ clientEntries events) :
    entry.key.tokenId = none :=
  netted_nil.foldl.tokens entry (mem_filter.mp member).1

/-- Entries without a token id are added to the balances of their keys. -/
theorem balanceOf_foldl_upsertBalance (tokens : ∀ entry ∈ entries, entry.key.tokenId = none) :
    balanceOf (entries.foldl upsertBalance rows) key = balanceOf rows key + netOf entries key := by
  induction entries generalizing rows with
  | nil => simp [netOf]
  | cons entry rest ih =>
    rw [foldl_cons,
      ih fun other member => tokens other (mem_cons_of_mem _ member),
      balanceOf_upsertBalance (tokens entry mem_cons_self), netOf_cons]
    ring

end CryptoVaultHub.Indexer
