import CryptoVaultHub.Semantics.JobQueue

/-!
# The records of the notification service

The rows of `webhooks` and `webhook_deliveries`, the queue `webhook-delivery`, and the POST requests
that endpoints were given, with the statements that change them. No statement of the service names
the status that it expects a delivery to have, and none deletes a delivery.
-/

namespace CryptoVaultHub.Notification

abbrev ClientId := Nat
abbrev ProjectId := Nat
abbrev WebhookId := Nat
abbrev DeliveryId := Nat
abbrev JobId := Nat

/-! ## Webhooks -/

/-- `RetryConfig`, without what only delays a retry. -/
structure RetryConfig where
  retryMaxAttempts : Nat
  retryOnStatusCodes : List String
  failOnStatusCodes : List String
deriving DecidableEq

/-- `shouldRetry`; without a status the request got no answer. -/
def RetryConfig.shouldRetry (config : RetryConfig) (httpStatus : Option Nat)
    (attemptNumber : Nat) : Bool :=
  if config.retryMaxAttempts ≤ attemptNumber then false
  else
    match httpStatus with
    | none => true
    | some status =>
      if config.failOnStatusCodes.contains (toString status) then false
      else if config.retryOnStatusCodes.contains (toString status) then true
      else 500 ≤ status

structure Webhook where
  id : WebhookId
  clientId : ClientId
  projectId : ProjectId
  url : String
  events : List String
  isActive : Bool
  label : Option String
  retry : RetryConfig
deriving DecidableEq

/-- Whether an entry of `events` subscribes to a type: the type itself, `*`, or a prefix before
`.*`. -/
def subscribes (eventType entry : String) : Bool :=
  entry = eventType || entry = "*" ||
    (entry.endsWith ".*" && eventType.startsWith (entry.dropEnd 2).toString)

/-- `findMatchingWebhooks`. -/
def findMatchingWebhooks (webhooks : List Webhook) (clientId : ClientId) (eventType : String) :
    List Webhook :=
  (webhooks.filter fun webhook => webhook.clientId = clientId && webhook.isActive).filter
    fun webhook => webhook.events.any (subscribes eventType)

/-! ## Deliveries -/

inductive DeliveryStatus where
  | queued
  | sent
  | failed
deriving DecidableEq

/-- The columns of a delivery that its INSERT gives. -/
structure Draft where
  webhookId : WebhookId
  clientId : ClientId
  eventType : String
  payload : String
  maxAttempts : Nat
  isManualResend : Bool
  originalDeliveryId : Option DeliveryId
deriving DecidableEq

structure Delivery where
  id : DeliveryId
  draft : Draft
  status : DeliveryStatus
  httpStatus : Option Nat
  attempts : Nat
  maxAttempts : Nat
deriving DecidableEq

/-- What an UPDATE of a delivery sets; the columns that it leaves out are absent. -/
structure Change where
  status : DeliveryStatus
  httpStatus : Option (Option Nat) := none
  attempts : Option Nat := none
  maxAttempts : Option Nat := none
deriving DecidableEq

def Change.apply (change : Change) (delivery : Delivery) : Delivery :=
  { delivery with
    status := change.status
    httpStatus := change.httpStatus.getD delivery.httpStatus
    attempts := change.attempts.getD delivery.attempts
    maxAttempts := change.maxAttempts.getD delivery.maxAttempts }

/-- The data of a job of the queue; `isRetry` says that `handleFailure` added it. -/
structure JobData where
  deliveryId : DeliveryId
  webhookId : WebhookId
  isRetry : Bool
deriving DecidableEq

/-- A POST request to an endpoint, by an automatic retry or not, with the status of its answer. -/
structure Post where
  deliveryId : DeliveryId
  isRetry : Bool
  httpStatus : Option Nat
deriving DecidableEq

/-- `response.status >= 200 && response.status < 300`. -/
def isSuccess (httpStatus : Nat) : Bool := 200 ≤ httpStatus && httpStatus < 300

def Post.succeeded (post : Post) : Bool := post.httpStatus.any isSuccess

/-- The tables and the queue, with the requests that were sent so far, the earliest first. -/
structure Store where
  webhooks : List Webhook
  deliveries : List Delivery
  nextDelivery : DeliveryId
  queue : JobQueue JobId JobData
  nextJob : JobId
  nextToken : Nat
  posts : List Post

namespace Store

/-- No event has been published. -/
def initial (webhooks : List Webhook) : Store := ⟨webhooks, [], 1, .empty, 1, 0, []⟩

def webhook? (store : Store) (id : WebhookId) : Option Webhook :=
  store.webhooks.find? fun webhook => webhook.id = id

def delivery? (store : Store) (id : DeliveryId) : Option Delivery :=
  store.deliveries.find? fun delivery => delivery.id = id

end Store

/-! ## Statements -/

/-- `removeOnComplete` and `removeOnFail` of every job. -/
def keepCompleted : Nat := 100

def keepFailed : Nat := 500

inductive Effect where
  | skip
  | insert (draft : Draft)
  | update (id : DeliveryId) (change : Change)
  | post (sent : Post)
  | addJob (data : JobData)
  | completeJob (id : JobId) (token : Nat)
  | failJob (id : JobId) (token : Nat)

/-- The job that `deliveryQueue.add` makes; a retry is delayed. -/
def deliveryJob (id : JobId) (data : JobData) : Job JobId JobData :=
  ⟨id, data, 1, 0, if data.isRetry then .delayed else .waiting⟩

def Effect.apply (store : Store) : Effect → Store
  | .skip => store
  | .insert draft =>
    { store with
      deliveries := store.deliveries ++
        [⟨store.nextDelivery, draft, .queued, none, 0, draft.maxAttempts⟩]
      nextDelivery := store.nextDelivery + 1 }
  | .update id change =>
    { store with
      deliveries := store.deliveries.map fun delivery =>
        if delivery.id = id then change.apply delivery else delivery }
  | .post sent => { store with posts := store.posts ++ [sent] }
  | .addJob data =>
    { store with
      queue := store.queue.add (deliveryJob store.nextJob data)
      nextJob := store.nextJob + 1 }
  | .completeJob id token => { store with queue := store.queue.complete id token keepCompleted }
  | .failJob id token => { store with queue := store.queue.fail id token keepFailed }

end CryptoVaultHub.Notification
