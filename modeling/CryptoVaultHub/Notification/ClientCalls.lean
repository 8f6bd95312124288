import CryptoVaultHub.Notification.Services

/-!
# The webhook calls of a client

What client-api passes on for a client, through the controller of the notification service to its
tables. The caller's identity arrives as a query parameter, in the body, or not at all, and each
handler decides what it does with it. Attempts are kept with the delivery that they belong to.
-/

namespace CryptoVaultHub.Notification

/-! ## Tables -/

/-- A row of `webhook_delivery_attempts`. -/
structure Attempt where
  attemptNumber : Nat
  requestUrl : String
  responseStatus : Option Nat
  succeeded : Bool
deriving DecidableEq

/-- A delivery with its `attempts_log`. -/
structure LoggedDelivery where
  row : Delivery
  attempts : List Attempt
deriving DecidableEq

namespace LoggedDelivery

def id (delivery : LoggedDelivery) : DeliveryId := delivery.row.id

def webhookId (delivery : LoggedDelivery) : WebhookId := delivery.row.draft.webhookId

def clientId (delivery : LoggedDelivery) : ClientId := delivery.row.draft.clientId

end LoggedDelivery

structure Tables where
  webhooks : List Webhook
  deliveries : List LoggedDelivery
  nextDelivery : DeliveryId
deriving DecidableEq

namespace Tables

def webhook? (tables : Tables) (id : WebhookId) : Option Webhook :=
  tables.webhooks.find? fun webhook => webhook.id = id

def delivery? (tables : Tables) (id : DeliveryId) : Option LoggedDelivery :=
  tables.deliveries.find? fun delivery => delivery.id = id

/-- Change the row of a webhook. -/
def modifyWebhook (tables : Tables) (id : WebhookId) (change : Webhook → Webhook) : Tables :=
  { tables with
    webhooks := tables.webhooks.map fun webhook =>
      if webhook.id = id then change webhook else webhook }

/-- Change the row of a delivery. -/
def modifyDelivery (tables : Tables) (id : DeliveryId)
    (change : LoggedDelivery → LoggedDelivery) : Tables :=
  { tables with
    deliveries := tables.deliveries.map fun delivery =>
      if delivery.id = id then change delivery else delivery }

/-- The row that an INSERT gives. -/
def created (tables : Tables) (draft : Draft) : LoggedDelivery :=
  ⟨⟨tables.nextDelivery, draft, .queued, none, 0, draft.maxAttempts⟩, []⟩

def insertDelivery (tables : Tables) (draft : Draft) : Tables :=
  { tables with
    deliveries := tables.deliveries ++ [tables.created draft]
    nextDelivery := tables.nextDelivery + 1 }

/-- The deliveries of a webhook go with it, `ON DELETE CASCADE`. -/
def removeWebhook (tables : Tables) (id : WebhookId) : Tables :=
  { tables with
    webhooks := tables.webhooks.filter fun webhook => webhook.id ≠ id
    deliveries := tables.deliveries.filter fun delivery => delivery.webhookId ≠ id }

end Tables

def LoggedDelivery.update (change : Change) (delivery : LoggedDelivery) : LoggedDelivery :=
  { delivery with row := change.apply delivery.row }

def LoggedDelivery.recordAttempt (attempt : Attempt) (delivery : LoggedDelivery) :
    LoggedDelivery :=
  { delivery with attempts := delivery.attempts ++ [attempt] }

/-! ## Responses -/

/-- What the service sends out: a POST request to an endpoint, or a job that will send one. -/
inductive Outgoing where
  | post (delivery : LoggedDelivery) (webhook : Webhook)
  | job (delivery : LoggedDelivery)
deriving DecidableEq

/-- `formatWebhook` without the secret. -/
structure WebhookView where
  id : WebhookId
  clientId : ClientId
  url : String
  events : List String
  isActive : Bool
  label : Option String
deriving DecidableEq

def formatWebhook (webhook : Webhook) : WebhookView :=
  ⟨webhook.id, webhook.clientId, webhook.url, webhook.events, webhook.isActive, webhook.label⟩

/-- `formatDelivery`. -/
structure DeliveryView where
  id : DeliveryId
  webhookId : WebhookId
  clientId : ClientId
  eventType : String
  payload : String
  status : DeliveryStatus
  httpStatus : Option Nat
  attempts : Nat
  maxAttempts : Nat
  isManualResend : Bool
  originalDeliveryId : Option DeliveryId
deriving DecidableEq

def formatDelivery (delivery : Delivery) : DeliveryView where
  id := delivery.id
  webhookId := delivery.draft.webhookId
  clientId := delivery.draft.clientId
  eventType := delivery.draft.eventType
  payload := delivery.draft.payload
  status := delivery.status
  httpStatus := delivery.httpStatus
  attempts := delivery.attempts
  maxAttempts := delivery.maxAttempts
  isManualResend := delivery.draft.isManualResend
  originalDeliveryId := delivery.draft.originalDeliveryId

structure DeliveryDetail where
  delivery : DeliveryView
  webhookLabel : Option String
  webhookUrl : Option String
  attempts : List Attempt
deriving DecidableEq

inductive Response where
  | webhook (view : WebhookView)
  | deleted
  | delivery (view : DeliveryView)
  | deliveries (views : List DeliveryView)
  | detail (detail : Option DeliveryDetail)
  | resent (id original : DeliveryId)
  | retried (results : List (DeliveryId × Bool))
  | failure (error : String)
  | notFound (message : String)
  | badRequest (message : String)
  | internalError
deriving DecidableEq

/-- What a handler leaves, answers and sends. -/
structure Handled where
  tables : Tables
  response : Response
  outgoing : List Outgoing

/-- What a call meets outside the tables: the answer of the endpoint to the request of a delivery,
whether the service runs in production, and whether the INSERT of `resendDelivery` is accepted,
which gives no `projectId`. -/
structure Environment where
  answer : DeliveryId → Answer
  production : Bool
  acceptsResend : Bool

/-! ## Services -/

structure WebhookUpdates where
  url : Option String
  events : Option (List String)
  isActive : Option Bool
  label : Option String
deriving DecidableEq

def WebhookUpdates.apply (updates : WebhookUpdates) (webhook : Webhook) : Webhook :=
  { webhook with
    url := updates.url.getD webhook.url
    events := updates.events.getD webhook.events
    isActive := updates.isActive.getD webhook.isActive
    label := updates.label.or webhook.label }

/-- `updateWebhook`; a client has one webhook of a URL. -/
def updateWebhook (tables : Tables) (id : WebhookId) (updates : WebhookUpdates) : Handled :=
  match tables.webhook? id with
  | none => ⟨tables, .notFound s!"Webhook {id} not found", []⟩
  | some webhook =>
    let updated := updates.apply webhook
    if tables.webhooks.any fun other =>
        other.id ≠ id && other.clientId = updated.clientId && other.url = updated.url then
      ⟨tables, .internalError, []⟩
    else ⟨tables.modifyWebhook id updates.apply, .webhook (formatWebhook updated), []⟩

def deleteWebhook (tables : Tables) (id : WebhookId) : Handled :=
  match tables.webhook? id with
  | none => ⟨tables, .notFound s!"Webhook {id} not found", []⟩
  | some _ => ⟨tables.removeWebhook id, .deleted, []⟩

/-- `handleFailure`, after the attempt was recorded. -/
def handleFailure (tables : Tables) (delivery : LoggedDelivery) (webhook : Webhook)
    (httpStatus : Option Nat) : Tables × List Outgoing :=
  let attemptNumber := delivery.row.attempts + 1
  let change (status : DeliveryStatus) : Change :=
    { status := status
      httpStatus := some httpStatus
      attempts := some attemptNumber }
  if webhook.retry.shouldRetry httpStatus attemptNumber then
    (tables.modifyDelivery delivery.id (LoggedDelivery.update (change .queued)), [.job delivery])
  else (tables.modifyDelivery delivery.id (LoggedDelivery.update (change .failed)), [])

/-- `deliverWebhook`. -/
def deliverWebhook (tables : Tables) (environment : Environment) (id : DeliveryId)
    (webhookId : WebhookId) : Tables × List Outgoing :=
  match tables.delivery? id with
  | none => (tables, [])
  | some delivery =>
    match tables.webhook? webhookId with
    | none => (tables.modifyDelivery id (LoggedDelivery.update { status := .failed }), [])
    | some webhook =>
      if webhook.isActive then
        let attemptNumber := delivery.row.attempts + 1
        let sent := Outgoing.post delivery webhook
        match environment.answer id with
        | some httpStatus =>
          let succeeded := isSuccess httpStatus
          let recorded := tables.modifyDelivery id (LoggedDelivery.recordAttempt
            ⟨attemptNumber, webhook.url, some httpStatus, succeeded⟩)
          if succeeded then
            (recorded.modifyDelivery id (LoggedDelivery.update
              { status := .sent
                httpStatus := some (some httpStatus)
                attempts := some attemptNumber }), [sent])
          else
            let (failed, jobs) := handleFailure recorded delivery webhook (some httpStatus)
            (failed, sent :: jobs)
        | none =>
          let recorded := tables.modifyDelivery id (LoggedDelivery.recordAttempt
            ⟨attemptNumber, webhook.url, none, false⟩)
          let (failed, jobs) := handleFailure recorded delivery webhook none
          (failed, sent :: jobs)
      else (tables.modifyDelivery id (LoggedDelivery.update { status := .failed }), [])

/-- `testWebhook`, which is given the caller. -/
def testWebhookFor (tables : Tables) (environment : Environment) (id : WebhookId)
    (clientId : ClientId) : Handled :=
  match tables.webhook? id with
  | none => ⟨tables, .notFound s!"Webhook {id} not found", []⟩
  | some webhook =>
    if webhook.clientId ≠ clientId then
      ⟨tables, .notFound s!"Webhook {id} not found for this client", []⟩
    else if environment.production && !webhook.url.toLower.startsWith "https://" then
      ⟨tables, .badRequest "Webhook URL must use HTTPS in production", []⟩
    else
      let draft : Draft :=
        { webhookId := webhook.id
          clientId := webhook.clientId
          eventType := "webhook.test"
          payload := ""
          maxAttempts := 1
          isManualResend := false
          originalDeliveryId := none }
      let created := tables.created draft
      let answer := environment.answer created.id
      let succeeded := answer.any isSuccess
      let attempt : Attempt := ⟨1, webhook.url, answer, succeeded⟩
      let change : Change :=
        { status := if succeeded then .sent else .failed
          httpStatus := some answer
          attempts := some 1 }
      let recorded := (tables.insertDelivery draft).modifyDelivery created.id
        (LoggedDelivery.recordAttempt attempt)
      ⟨recorded.modifyDelivery created.id (LoggedDelivery.update change),
        .delivery (formatDelivery (change.apply created.row)), [.post created webhook]⟩

def DeliveryStatus.name : DeliveryStatus → String
  | .queued => "queued"
  | .sent => "sent"
  | .failed => "failed"

/-- The `where` of `listDeliveries`. -/
def isListed (webhookId : WebhookId) (status : Option String) (delivery : LoggedDelivery) : Bool :=
  delivery.webhookId = webhookId &&
    status.all fun name => name = "" || delivery.row.status.name = name

/-- `listDeliveries`, the latest first. -/
def listDeliveries (tables : Tables) (webhookId : WebhookId) (status : Option String) :
    List DeliveryView :=
  ((tables.deliveries.filter (isListed webhookId status)).reverse.take 100).map
    fun delivery => formatDelivery delivery.row

/-- `getDeliveryDetail`. -/
def getDeliveryDetail (tables : Tables) (id : DeliveryId) : Option DeliveryDetail :=
  (tables.delivery? id).map fun delivery =>
    let webhook := tables.webhook? delivery.webhookId
    { delivery := formatDelivery delivery.row
      webhookLabel := webhook.bind Webhook.label
      webhookUrl := webhook.map Webhook.url
      attempts := delivery.attempts }

/-- The loop of `retryDeliveriesBulk` over the deliveries that were found for the client. -/
def retryEach (environment : Environment) (owned : List (DeliveryId × WebhookId)) :
    List DeliveryId → Tables → Tables × List (DeliveryId × Bool) × List Outgoing
  | [], tables => (tables, [], [])
  | id :: rest, tables =>
    match owned.find? fun pair => pair.1 = id with
    | none =>
      let (after, results, outgoing) := retryEach environment owned rest tables
      (after, (id, false) :: results, outgoing)
    | some (_, webhookId) =>
      let (delivered, sent) := deliverWebhook tables environment id webhookId
      let (after, results, outgoing) := retryEach environment owned rest delivered
      (after, (id, true) :: results, sent ++ outgoing)

/-- `retryDeliveriesBulk`. -/
def retryDeliveriesBulk (tables : Tables) (environment : Environment) (clientId : ClientId)
    (ids : List DeliveryId) : Handled :=
  let capped := ids.take 100
  let owned := (tables.deliveries.filter fun delivery =>
    capped.contains delivery.id && delivery.clientId = clientId).map
      fun delivery => (delivery.id, delivery.webhookId)
  let (after, results, outgoing) := retryEach environment owned capped tables
  ⟨after, .retried results, outgoing⟩

/-- `resendDelivery`, which is given the caller. -/
def resendDeliveryFor (tables : Tables) (environment : Environment) (id : DeliveryId)
    (clientId : ClientId) : Handled :=
  match tables.delivery? id with
  | none => ⟨tables, .notFound s!"Delivery {id} not found", []⟩
  | some delivery =>
    if delivery.clientId ≠ clientId then
      ⟨tables, .notFound s!"Delivery {id} not found for this client", []⟩
    else if environment.acceptsResend then
      let draft : Draft :=
        { delivery.row.draft with
          maxAttempts := delivery.row.maxAttempts
          isManualResend := true
          originalDeliveryId := some id }
      let created := tables.created draft
      ⟨tables.insertDelivery draft, .resent created.id id, [.job created]⟩
    else ⟨tables, .internalError, []⟩

/-! ## The controller -/

/-- The calls that client-api passes on with the identity of their client. -/
inductive ClientCall where
  | updateWebhook (id : WebhookId) (updates : WebhookUpdates)
  | deleteWebhook (id : WebhookId)
  | testWebhook (id : WebhookId)
  | listDeliveries (webhookId : WebhookId) (status : Option String)
  | getDeliveryDetail (id : DeliveryId)
  | retryDelivery (id : DeliveryId)
  | resendDelivery (id : DeliveryId)
  | retryDeliveriesBulk (ids : List DeliveryId)
deriving DecidableEq

/-- The handlers; those of an update, a deletion, a list, a detail and a retry leave the identity
aside that they are passed. -/
def ClientCall.handle (call : ClientCall) (clientId : ClientId) (environment : Environment)
    (tables : Tables) : Handled :=
  match call with
  | .updateWebhook id updates => Notification.updateWebhook tables id updates
  | .deleteWebhook id => Notification.deleteWebhook tables id
  | .testWebhook id => testWebhookFor tables environment id clientId
  | .listDeliveries webhookId status =>
    ⟨tables, .deliveries (Notification.listDeliveries tables webhookId status), []⟩
  | .getDeliveryDetail id =>
    match Notification.getDeliveryDetail tables id with
    | none => ⟨tables, .failure "Delivery not found", []⟩
    | some detail => ⟨tables, .detail (some detail), []⟩
  | .retryDelivery id =>
    match Notification.getDeliveryDetail tables id with
    | none => ⟨tables, .notFound "Delivery not found", []⟩
    | some detail =>
      let (after, outgoing) :=
        deliverWebhook tables environment id detail.delivery.webhookId
      ⟨after, .detail (Notification.getDeliveryDetail after id), outgoing⟩
  | .resendDelivery id => resendDeliveryFor tables environment id clientId
  | .retryDeliveriesBulk ids =>
    if ids.isEmpty then ⟨tables, .notFound "clientId and ids[] are required", []⟩
    else Notification.retryDeliveriesBulk tables environment clientId ids

/-- A call and what it meets. -/
abbrev Request := ClientCall × Environment

/-- A sequence of calls of one client: the tables at its end, the responses, and what was sent. -/
def handleAll (clientId : ClientId) : List Request → Tables →
    Tables × List Response × List Outgoing
  | [], tables => (tables, [], [])
  | (call, environment) :: rest, tables =>
    let handled := call.handle clientId environment tables
    let (after, responses, outgoing) := handleAll clientId rest handled.tables
    (after, handled.response :: responses, handled.outgoing ++ outgoing)

/-! ## What else changes the tables -/

/-- A webhook is registered, a delivery of an event is made, a delivery is sent by the worker, a
dead letter is resent, or a client makes a call. -/
inductive TableAction where
  | createWebhook (webhook : Webhook)
  | createDelivery (event : Event) (webhook : Webhook)
  | deliverWebhook (id : DeliveryId) (webhookId : WebhookId) (environment : Environment)
  | resend (id : DeliveryId) (maxAttempts : Nat)
  | call (clientId : ClientId) (request : Request)

/-- The tables of the service, which are empty at first. -/
def webhookTables : TransitionSystem Tables TableAction where
  Initial tables := tables = ⟨[], [], 1⟩
  step tables action :=
    match action with
    | .createWebhook webhook =>
      if tables.webhooks.any fun other => other.id = webhook.id ||
          (other.clientId = webhook.clientId && other.url = webhook.url) then
        none
      else some { tables with webhooks := tables.webhooks ++ [webhook] }
    | .createDelivery event webhook =>
      if findMatchingWebhooks tables.webhooks event.clientId event.eventType |>.contains webhook
      then
        some (tables.insertDelivery
          { webhookId := webhook.id
            clientId := event.clientId
            eventType := event.eventType
            payload := event.payload
            maxAttempts := webhook.retry.retryMaxAttempts
            isManualResend := false
            originalDeliveryId := none })
      else none
    | .deliverWebhook id webhookId environment =>
      some (deliverWebhook tables environment id webhookId).1
    | .resend id maxAttempts =>
      some (tables.modifyDelivery id (LoggedDelivery.update
        { status := .queued
          attempts := some 0
          maxAttempts := some maxAttempts }))
    | .call clientId (call, environment) =>
      some (call.handle clientId environment tables).tables

end CryptoVaultHub.Notification
