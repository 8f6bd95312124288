import CryptoVaultHub.Notification.Records
import CryptoVaultHub.Semantics.Statement

/-!
# The entries of the event streams

`consumeLoop` reads new entries of the streams, `recoverPendingMessages` claims entries that were
read and never acknowledged, and both handle their batch one entry after the other:
`processStreamEntry` makes the deliveries, then the entry is acknowledged. Each batch is a process,
so the loop and any number of recoveries overlap. How long an entry was idle is left open.
-/

namespace CryptoVaultHub.Notification

abbrev EntryId := Nat

/-! ## Records -/

/-- What an entry is about: an event, with its `clientId` if it names one, or an alert of a gas
tank. -/
inductive Content where
  | event (clientId : Option ClientId)
  | alert (projectId : ProjectId) (chainId : Nat)
deriving DecidableEq

structure StreamEntry where
  id : EntryId
  eventType : String
  content : Content
deriving DecidableEq

structure GasTankAlertConfig where
  projectId : ProjectId
  chainId : Nat
  webhookEnabled : Bool
deriving DecidableEq

/-- A row that `createDeliveries` inserted, with the entry that it did it for. -/
structure EntryDelivery where
  entryId : EntryId
  webhookId : WebhookId
  clientId : ClientId
  eventType : String
deriving DecidableEq

/-- An entry that left the pending entries, with the webhooks that matched it then. -/
structure Acknowledgement where
  entryId : EntryId
  matched : List WebhookId
deriving DecidableEq

/-- The streams with the pending entries of the group, and the tables. -/
structure Streams where
  webhooks : List Webhook
  configs : List GasTankAlertConfig
  projects : List (ProjectId × ClientId)
  unread : List StreamEntry
  pending : List StreamEntry
  nextEntry : EntryId
  deliveries : List EntryDelivery
  acknowledged : List Acknowledgement

namespace Streams

def config? (streams : Streams) (projectId : ProjectId) (chainId : Nat) :
    Option GasTankAlertConfig :=
  streams.configs.find? fun config => config.projectId = projectId && config.chainId = chainId

def clientId? (streams : Streams) (projectId : ProjectId) : Option ClientId :=
  (streams.projects.find? fun project => project.1 = projectId).map Prod.snd

/-- How many deliveries a webhook has for an entry. -/
def count (streams : Streams) (entryId : EntryId) (webhookId : WebhookId) : Nat :=
  streams.deliveries.countP fun delivery =>
    delivery.entryId = entryId && delivery.webhookId = webhookId

end Streams

/-! ## Program points -/

/-- The points of `processStreamEntry` and of the XACK after it. `made` are the webhooks that have
their delivery. -/
inductive EntryPoint where
  | findConfig (projectId : ProjectId) (chainId : Nat)
  | findProject (projectId : ProjectId)
  | findMatching (clientId : ClientId)
  | create (clientId : ClientId) (made : List WebhookId) (webhook : Webhook)
      (later : List Webhook)
  | add (clientId : ClientId) (made : List WebhookId) (later : List Webhook)
  | xack (made : List WebhookId)
deriving DecidableEq

/-- A batch in progress: the entry that is handled, and those behind it. -/
structure Batch where
  entry : StreamEntry
  point : EntryPoint
  rest : List StreamEntry
deriving DecidableEq

/-- The first statement for an entry; one without a client is only acknowledged. -/
def StreamEntry.begin (entry : StreamEntry) : EntryPoint :=
  match entry.content with
  | .event none => .xack []
  | .event (some clientId) => .findMatching clientId
  | .alert projectId chainId => .findConfig projectId chainId

/-- Handle the next entry. -/
def handleNext : List StreamEntry → Option Batch
  | [] => none
  | entry :: rest => some ⟨entry, entry.begin, rest⟩

/-- The next webhook of the loop of `createDeliveries`. -/
def EntryPoint.of (clientId : ClientId) (made : List WebhookId) : List Webhook → EntryPoint
  | [] => .xack made
  | webhook :: later => .create clientId made webhook later

/-! ## Statements -/

inductive EntryEffect where
  | skip
  | insert (delivery : EntryDelivery)
  | xack (acknowledgement : Acknowledgement)

/-- An XACK of an entry that is not pending has no effect. -/
def EntryEffect.apply (streams : Streams) : EntryEffect → Streams
  | .skip => streams
  | .insert delivery => { streams with deliveries := streams.deliveries ++ [delivery] }
  | .xack acknowledgement =>
    if streams.pending.any fun entry => entry.id = acknowledgement.entryId then
      { streams with
        pending := streams.pending.filter fun entry => entry.id ≠ acknowledgement.entryId
        acknowledged := streams.acknowledged ++ [acknowledgement] }
    else streams

/-- The effect of a statement and the point behind it; after the XACK there is none. -/
def EntryPoint.step (streams : Streams) (entry : StreamEntry) :
    EntryPoint → EntryEffect × Option EntryPoint
  | .findConfig projectId chainId =>
    (.skip,
      match streams.config? projectId chainId with
      | none => some (.xack [])
      | some config =>
        if config.webhookEnabled then some (.findProject projectId) else some (.xack []))
  | .findProject projectId =>
    (.skip,
      match streams.clientId? projectId with
      | none => some (.xack [])
      | some clientId => some (.findMatching clientId))
  | .findMatching clientId =>
    (.skip, some (.of clientId []
      (findMatchingWebhooks streams.webhooks clientId entry.eventType)))
  | .create clientId made webhook later =>
    (.insert ⟨entry.id, webhook.id, clientId, entry.eventType⟩,
      some (.add clientId (made ++ [webhook.id]) later))
  | .add clientId made later => (.skip, some (.of clientId made later))
  | .xack made => (.xack ⟨entry.id, made⟩, none)

/-- What throws is logged, and the next entry is handled. -/
def Batch.statement (streams : Streams) (batch : Batch) (_ : Unit) : Statement Streams Batch :=
  let (effect, next) := batch.point.step streams batch.entry
  { after := effect.apply streams
    next :=
      match next with
      | none => handleNext batch.rest
      | some point => some { batch with point := point }
    thrown := handleNext batch.rest }

/-! ## What begins from outside -/

/-- An event is published, XREADGROUP gives new entries to the loop, XCLAIM gives pending ones to a
recovery, or webhooks, alert configurations and projects change. -/
inductive EntryStart where
  | publish (eventType : String) (content : Content)
  | xreadgroup (ids : List EntryId)
  | xclaim (ids : List EntryId)
  | configure (webhooks : List Webhook) (configs : List GasTankAlertConfig)
      (projects : List (ProjectId × ClientId))

def EntryStart.apply (streams : Streams) : EntryStart → Option (Streams × Option Batch)
  | .publish eventType content =>
    some ({ streams with
        unread := streams.unread ++ [⟨streams.nextEntry, eventType, content⟩]
        nextEntry := streams.nextEntry + 1 }, none)
  | .xreadgroup ids =>
    let entries := streams.unread.filter fun entry => ids.contains entry.id
    some ({ streams with
        unread := streams.unread.filter fun entry => !ids.contains entry.id
        pending := streams.pending ++ entries }, handleNext entries)
  | .xclaim ids =>
    some (streams, handleNext (streams.pending.filter fun entry => ids.contains entry.id))
  | .configure webhooks configs projects =>
    if (webhooks.map Webhook.id).Nodup then
      some ({ streams with
        webhooks := webhooks
        configs := configs
        projects := projects }, none)
    else none

/-- No entry has been published, and the identifiers of webhooks are unique. -/
def Streams.Initial (streams : Streams) : Prop :=
  (streams.webhooks.map Webhook.id).Nodup ∧ streams.unread = [] ∧ streams.pending = [] ∧
    streams.deliveries = [] ∧ streams.acknowledged = []

abbrev Consumers := PoolState Streams Batch

end CryptoVaultHub.Notification
