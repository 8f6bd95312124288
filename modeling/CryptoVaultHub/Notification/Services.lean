import CryptoVaultHub.Notification.Records
import CryptoVaultHub.Semantics.Statement

/-!
# The services that deliver webhooks

Every call of `createDeliveries`, of `deliverWebhook` (by the worker of the queue, or by a retry of
the client), of the two `resend`s and of `testWebhook` is a process. Its points are the statements
of the source in order. A bulk retry is one call of `deliverWebhook` for each of the deliveries that
it finds.
-/

namespace CryptoVaultHub.Notification

/-! ## Program points -/

/-- Who calls `deliverWebhook`: the worker, for a job that it holds the lock of, or a client. -/
inductive Source where
  | hand
  | job (id : JobId) (token : Nat) (isRetry : Bool)
deriving DecidableEq

structure Call where
  source : Source
  deliveryId : DeliveryId
  webhookId : WebhookId
deriving DecidableEq

/-- The points of `deliverWebhook`, with the rows that it has read, and the two ways in which the
worker ends its job. -/
inductive DeliverPoint where
  | findDelivery
  | findWebhook (delivery : Delivery)
  | reject
  | post (delivery : Delivery) (webhook : Webhook)
  | recordAttempt (delivery : Delivery) (webhook : Webhook) (httpStatus : Nat)
  | markSent (delivery : Delivery) (webhook : Webhook) (httpStatus : Nat)
  | recordError (delivery : Delivery) (webhook : Webhook)
  | markFailed (delivery : Delivery) (httpStatus : Option Nat)
  | markQueued (delivery : Delivery) (httpStatus : Option Nat)
  | addRetry (delivery : Delivery)
  | finish
  | fail
deriving DecidableEq

/-- What `createDeliveries` is called for. -/
structure Event where
  clientId : ClientId
  eventType : String
  payload : String
deriving DecidableEq

inductive CreatePoint where
  | findMatching (event : Event)
  | create (event : Event) (webhook : Webhook) (rest : List Webhook)
  | add (event : Event) (deliveryId : DeliveryId) (webhook : Webhook) (rest : List Webhook)
deriving DecidableEq

/-- `resendDelivery` of the manual resend, which has read the original. -/
inductive ManualResendPoint where
  | create (original : Delivery)
  | add (deliveryId : DeliveryId) (original : Delivery)
deriving DecidableEq

/-- `resend` of the dead letters, which has found the delivery failed. -/
inductive DeadLetterPoint where
  | findWebhook (deadLetter : Delivery)
  | reset (deadLetter : Delivery) (maxAttempts : Nat)
  | add (deadLetter : Delivery)
deriving DecidableEq

inductive TestPoint where
  | create (webhook : Webhook)
  | post (deliveryId : DeliveryId)
  | recordAttempt (deliveryId : DeliveryId) (httpStatus : Nat)
  | update (deliveryId : DeliveryId) (httpStatus : Nat)
  | recordError (deliveryId : DeliveryId)
  | markFailed (deliveryId : DeliveryId)
deriving DecidableEq

inductive Process where
  | deliver (call : Call) (point : DeliverPoint)
  | createDeliveries (point : CreatePoint)
  | resendDelivery (point : ManualResendPoint)
  | resend (point : DeadLetterPoint)
  | testWebhook (point : TestPoint)
deriving DecidableEq

/-! ## Steps -/

/-- One statement and where the process continues when it throws or not. -/
structure Step where
  effect : Effect
  next : Option Process
  thrown : Option Process := none

/-- What a statement reads outside the records: the answer of an endpoint, if there is one. -/
abbrev Answer := Option Nat

namespace Call

/-- Whether `handleFailure` added the job of the call. -/
def isRetry (call : Call) : Bool :=
  match call.source with
  | .hand => false
  | .job _ _ isRetry => isRetry

/-- `deliverWebhook` returned or threw: only a worker has something left to do. -/
def ends (call : Call) (point : DeliverPoint) : Option Process :=
  match call.source with
  | .hand => none
  | .job _ _ _ => some (.deliver call point)

/-- The branch of `handleFailure` for a failure. -/
def handleFailure (call : Call) (delivery : Delivery) (webhook : Webhook)
    (httpStatus : Option Nat) : Process :=
  if webhook.retry.shouldRetry httpStatus (delivery.attempts + 1) then
    .deliver call (.markQueued delivery httpStatus)
  else .deliver call (.markFailed delivery httpStatus)

/-- `deliverWebhook`. What throws from the request to the update to 'sent' is caught and handled as
a failure without a status; what throws in `handleFailure` is not caught. -/
def deliverWebhook (store : Store) (answer : Answer) (call : Call) : DeliverPoint → Step
  | .findDelivery =>
    { effect := .skip
      next :=
        match store.delivery? call.deliveryId with
        | none => call.ends .finish
        | some delivery => some (.deliver call (.findWebhook delivery))
      thrown := call.ends .fail }
  | .findWebhook delivery =>
    { effect := .skip
      next :=
        match store.webhook? call.webhookId with
        | none => some (.deliver call .reject)
        | some webhook =>
          if webhook.isActive then some (.deliver call (.post delivery webhook))
          else some (.deliver call .reject)
      thrown := call.ends .fail }
  | .reject =>
    { effect := .update call.deliveryId { status := .failed }
      next := call.ends .finish
      thrown := call.ends .fail }
  | .post delivery webhook =>
    { effect := .post ⟨call.deliveryId, call.isRetry, answer⟩
      next :=
        match answer with
        | none => some (.deliver call (.recordError delivery webhook))
        | some httpStatus => some (.deliver call (.recordAttempt delivery webhook httpStatus))
      thrown := some (.deliver call (.recordError delivery webhook)) }
  | .recordAttempt delivery webhook httpStatus =>
    { effect := .skip
      next :=
        if isSuccess httpStatus then some (.deliver call (.markSent delivery webhook httpStatus))
        else some (call.handleFailure delivery webhook (some httpStatus))
      thrown := some (.deliver call (.recordError delivery webhook)) }
  | .markSent delivery webhook httpStatus =>
    { effect := .update call.deliveryId
        { status := .sent
          httpStatus := some (some httpStatus)
          attempts := some (delivery.attempts + 1) }
      next := call.ends .finish
      thrown := some (.deliver call (.recordError delivery webhook)) }
  | .recordError delivery webhook =>
    { effect := .skip
      next := some (call.handleFailure delivery webhook none)
      thrown := call.ends .fail }
  | .markFailed delivery httpStatus =>
    { effect := .update call.deliveryId
        { status := .failed
          httpStatus := some httpStatus
          attempts := some (delivery.attempts + 1) }
      next := call.ends .finish
      thrown := call.ends .fail }
  | .markQueued delivery httpStatus =>
    { effect := .update call.deliveryId
        { status := .queued
          httpStatus := some httpStatus
          attempts := some (delivery.attempts + 1) }
      next := some (.deliver call (.addRetry delivery))
      thrown := call.ends .fail }
  | .addRetry delivery =>
    { effect := .addJob ⟨call.deliveryId, delivery.draft.webhookId, true⟩
      next := call.ends .finish
      thrown := call.ends .fail }
  | .finish =>
    match call.source with
    | .hand => { effect := .skip, next := none }
    | .job id token _ => { effect := .completeJob id token, next := none }
  | .fail =>
    match call.source with
    | .hand => { effect := .skip, next := none }
    | .job id token _ => { effect := .failJob id token, next := none }

end Call

/-- The next webhook of the loop of `createDeliveries`. -/
def createNext (event : Event) : List Webhook → Option Process
  | [] => none
  | webhook :: rest => some (.createDeliveries (.create event webhook rest))

def createDeliveries (store : Store) : CreatePoint → Step
  | .findMatching event =>
    { effect := .skip
      next := createNext event
        (findMatchingWebhooks store.webhooks event.clientId event.eventType) }
  | .create event webhook rest =>
    { effect := .insert
        { webhookId := webhook.id
          clientId := event.clientId
          eventType := event.eventType
          payload := event.payload
          maxAttempts := webhook.retry.retryMaxAttempts
          isManualResend := false
          originalDeliveryId := none }
      next := some (.createDeliveries (.add event store.nextDelivery webhook rest)) }
  | .add event deliveryId webhook rest =>
    { effect := .addJob ⟨deliveryId, webhook.id, false⟩
      next := createNext event rest }

def resendDelivery (store : Store) : ManualResendPoint → Step
  | .create original =>
    { effect := .insert
        { original.draft with
          maxAttempts := original.maxAttempts
          isManualResend := true
          originalDeliveryId := some original.id }
      next := some (.resendDelivery (.add store.nextDelivery original)) }
  | .add deliveryId original =>
    { effect := .addJob ⟨deliveryId, original.draft.webhookId, false⟩
      next := none }

/-- `resend` of the dead letters. -/
def resend (store : Store) : DeadLetterPoint → Step
  | .findWebhook deadLetter =>
    { effect := .skip
      next :=
        let maxAttempts := ((store.webhook? deadLetter.draft.webhookId).map fun webhook =>
          webhook.retry.retryMaxAttempts).getD 5
        some (.resend (.reset deadLetter maxAttempts)) }
  | .reset deadLetter maxAttempts =>
    { effect := .update deadLetter.id
        { status := .queued
          attempts := some 0
          maxAttempts := some maxAttempts }
      next := some (.resend (.add deadLetter)) }
  | .add deadLetter =>
    { effect := .addJob ⟨deadLetter.id, deadLetter.draft.webhookId, false⟩
      next := none }

/-- `testWebhook`, whose delivery never has a job. -/
def testWebhook (store : Store) (answer : Answer) : TestPoint → Step
  | .create webhook =>
    { effect := .insert
        { webhookId := webhook.id
          clientId := webhook.clientId
          eventType := "webhook.test"
          payload := ""
          maxAttempts := 1
          isManualResend := false
          originalDeliveryId := none }
      next := some (.testWebhook (.post store.nextDelivery)) }
  | .post deliveryId =>
    { effect := .post ⟨deliveryId, false, answer⟩
      next :=
        match answer with
        | none => some (.testWebhook (.recordError deliveryId))
        | some httpStatus => some (.testWebhook (.recordAttempt deliveryId httpStatus))
      thrown := some (.testWebhook (.recordError deliveryId)) }
  | .recordAttempt deliveryId httpStatus =>
    { effect := .skip
      next := some (.testWebhook (.update deliveryId httpStatus))
      thrown := some (.testWebhook (.recordError deliveryId)) }
  | .update deliveryId httpStatus =>
    { effect := .update deliveryId
        { status := if isSuccess httpStatus then .sent else .failed
          httpStatus := some (some httpStatus)
          attempts := some 1 }
      next := none
      thrown := some (.testWebhook (.recordError deliveryId)) }
  | .recordError deliveryId =>
    { effect := .skip
      next := some (.testWebhook (.markFailed deliveryId)) }
  | .markFailed deliveryId =>
    { effect := .update deliveryId
        { status := .failed
          httpStatus := some none
          attempts := some 1 }
      next := none }

/-- The step of a process at its current point. -/
def Process.step (store : Store) (answer : Answer) : Process → Step
  | .deliver call point => call.deliverWebhook store answer point
  | .createDeliveries point => Notification.createDeliveries store point
  | .resendDelivery point => Notification.resendDelivery store point
  | .resend point => Notification.resend store point
  | .testWebhook point => Notification.testWebhook store answer point

def Process.statement (store : Store) (process : Process) (answer : Answer) :
    Statement Store Process :=
  let step := process.step store answer
  { after := step.effect.apply store
    next := step.next
    thrown := step.thrown }

/-! ## What begins from outside -/

/-- Requests, changes of the webhooks, and what the queue does by itself: give a waiting job to a
worker, move a delayed job, and put back or give up an active job whose lock ran out. -/
inductive Start where
  | publish (event : Event)
  | retry (deliveryId : DeliveryId)
  | resendDelivery (deliveryId : DeliveryId) (clientId : ClientId)
  | resend (deliveryId : DeliveryId)
  | test (webhookId : WebhookId) (clientId : Option ClientId)
  | configure (webhooks : List Webhook)
  | take (id : JobId)
  | promote (id : JobId)
  | stall (id : JobId) (token : Nat)
  | stallOut (id : JobId) (token : Nat)

def start (store : Store) : Start → Option (Store × Option Process)
  | .publish event => some (store, some (.createDeliveries (.findMatching event)))
  | .retry deliveryId =>
    match store.delivery? deliveryId with
    | none => none
    | some delivery =>
      some (store, some (.deliver ⟨.hand, deliveryId, delivery.draft.webhookId⟩ .findDelivery))
  | .resendDelivery deliveryId clientId =>
    match store.delivery? deliveryId with
    | none => none
    | some delivery =>
      if delivery.draft.clientId = clientId then
        some (store, some (.resendDelivery (.create delivery)))
      else none
  | .resend deliveryId =>
    match store.delivery? deliveryId with
    | none => none
    | some delivery =>
      if delivery.status = .failed then some (store, some (.resend (.findWebhook delivery)))
      else none
  | .test webhookId clientId =>
    match store.webhook? webhookId with
    | none => none
    | some webhook =>
      if clientId.all fun owner => webhook.clientId = owner then
        some (store, some (.testWebhook (.create webhook)))
      else none
  | .configure webhooks => some ({ store with webhooks := webhooks }, none)
  | .take id =>
    match store.queue.getJob id with
    | none => none
    | some job =>
      if job.state = .waiting then
        let token := store.nextToken
        some ({ store with
            queue := store.queue.move id .waiting (.active token)
            nextToken := store.nextToken + 1 },
          some (.deliver ⟨.job id token job.data.isRetry, job.data.deliveryId,
            job.data.webhookId⟩ .findDelivery))
      else none
  | .promote id => some ({ store with queue := store.queue.move id .delayed .waiting }, none)
  | .stall id token =>
    some ({ store with queue := store.queue.move id (.active token) .waiting }, none)
  | .stallOut id token =>
    some ({ store with queue := store.queue.stallOut id token keepFailed }, none)

/-- The services over their records, from any webhooks and no delivery. -/
def notifications : ProcessPool Store Process (Input Answer) Start :=
  .ofStatements (fun store => store = .initial store.webhooks) Process.statement start

abbrev Pool := PoolState Store Process

end CryptoVaultHub.Notification
