import Mathlib

/-!
# From the event bus to the webhooks

The bus writes an event to a Redis stream and to a Kafka topic, and is content when one of the two
takes it. The notification service listens to one of them: to Kafka if it has a Kafka consumer, even
where its subscription failed, and else to Redis. Each side has a table of event types of its own,
and Redis carries every value as text.
-/

namespace CryptoVaultHub.EventBus

open List

/-! ## Values -/

inductive Json where
  | null
  | boolean (value : Bool)
  | number (value : Rat)
  | string (value : String)
  | array (items : List Json)
  | object (fields : List (String × Json))

def Json.truthy : Json → Bool
  | .null => false
  | .boolean value => value
  | .number value => value ≠ 0
  | .string value => value ≠ ""
  | .array _ | .object _ => true

abbrev Fields := List (String × Json)

namespace Fields

def get (fields : Fields) (key : String) : Option Json :=
  (fields.find? fun field => field.1 = key).map Prod.snd

/-- `fields.first || fields.second`, where it is truthy. -/
def either (fields : Fields) (first second : String) : Option Json :=
  ((fields.get first).filter Json.truthy).or ((fields.get second).filter Json.truthy)

/-- The assignment of one property. -/
def assign (fields : Fields) (key : String) (value : Json) : Fields :=
  if fields.any fun field => field.1 = key then
    fields.map fun field => if field.1 = key then (key, value) else field
  else fields ++ [(key, value)]

def client (fields : Fields) : Option Json := fields.either "clientId" "client_id"

def project (fields : Fields) : Option Json := fields.either "projectId" "project_id"

end Fields

/-- What is published: an object. -/
structure EventData where
  fields : Fields
  distinct : (fields.map Prod.fst).Nodup

/-- `JSON.stringify`, `JSON.parse` and `BigInt`, where they do not throw. -/
structure Runtime where
  stringify : Json → String
  parse : String → Option Json
  bigInt : Json → Option Int

/-! ## Tables -/

inductive Topic where
  | depositsDetected
  | depositsConfirmed
  | depositsSwept
  | withdrawalsLifecycle
  | coSignLifecycle
  | gasTankAlerts
  | reorgDetected
  | reconciliationDiscrepancy
  | forwarderDeploy
  | sanctionsSync
deriving DecidableEq

def streamToTopic : List (String × Topic) :=
  [("deposits:detected", .depositsDetected),
    ("deposits:confirmation", .depositsConfirmed),
    ("deposits:swept", .depositsSwept),
    ("withdrawals:submitted", .withdrawalsLifecycle),
    ("withdrawals:confirmed", .withdrawalsLifecycle),
    ("withdrawals:failed", .withdrawalsLifecycle),
    ("cosign:pending", .coSignLifecycle),
    ("cosign:signed", .coSignLifecycle),
    ("cosign:expired", .coSignLifecycle),
    ("gas_tank:alerts", .gasTankAlerts),
    ("chain:reorg", .reorgDetected),
    ("reconciliation:discrepancies", .reconciliationDiscrepancy),
    ("forwarder:deploy", .forwarderDeploy),
    ("sanctions:sync", .sanctionsSync)]

def streamEventMap : List (String × String) :=
  [("deposits:detected", "deposit.detected"),
    ("deposits:confirmation", "deposit.confirmed"),
    ("deposits:swept", "deposit.swept"),
    ("deposits:sweep_pending", "deposit.sweep_pending"),
    ("withdrawals:submitted", "withdrawal.submitted"),
    ("withdrawals:broadcasting", "withdrawal.broadcasting"),
    ("withdrawals:confirmed", "withdrawal.confirmed"),
    ("withdrawals:failed", "withdrawal.failed"),
    ("gas_tank:alerts", "gas_tank.low_balance")]

/-- The topics that are subscribed to, with their event types. -/
def kafkaToEvent : List (Topic × String) :=
  [(.depositsDetected, "deposit.detected"),
    (.depositsConfirmed, "deposit.confirmed"),
    (.depositsSwept, "deposit.swept"),
    (.withdrawalsLifecycle, "withdrawal.lifecycle")]

/-! ## Publishing -/

/-- The configuration of the bus, and whether its producer is connected. -/
structure Bus where
  enableRedisStreams : Bool
  enableKafka : Bool
  connected : Bool

/-- Which calls fail. -/
structure Failures where
  xadd : Bool
  connect : Bool
  send : Bool
  subscribe : Bool

/-- What is left of a publication: its entry in the stream, its message, and which of the
transports that were tried has rejected it. -/
structure Published where
  entry : Option (List String)
  message : Option (Topic × String)
  rejected : List Bool

/-- `publish` throws where every transport that it tried has rejected the event. -/
def Published.accepted (published : Published) : Bool :=
  published.rejected = [] || published.rejected.any (!·)

/-- `typeof v === 'string' ? v : JSON.stringify(v)`. -/
def Runtime.wire (runtime : Runtime) : Json → String
  | .string value => value
  | value => runtime.stringify value

variable (runtime : Runtime) (bus : Bus) (failures : Failures) (stream : String) (data : EventData)

/-- The arguments of XADD behind the identifier. -/
def streamFields : List String :=
  data.fields.flatMap fun field => [field.1, runtime.wire field.2]

/-- XADD wants at least one field. -/
def publishToRedisStream : Option (List String) :=
  let fields := streamFields runtime data
  if failures.xadd ∨ fields = [] then none else some fields

/-- The producer's `publish`, which returns without an error when it cannot connect. -/
def producerPublish (topic : Topic) : Option (Topic × String) × Bool :=
  if !bus.connected && failures.connect then (none, false)
  else if failures.send then (none, true)
  else (some (topic, runtime.stringify (.object data.fields)), false)

def publish : Published :=
  let entry := if bus.enableRedisStreams then publishToRedisStream runtime failures data else none
  let produced := do
    let topic ← if bus.enableKafka then streamToTopic.lookup stream else none
    return producerPublish runtime bus failures data topic
  { entry := entry
    message := produced.bind Prod.fst
    rejected := (if bus.enableRedisStreams then [entry.isNone] else []) ++
      (produced.map Prod.snd).toList }

/-! ## Handling -/

/-- The arguments of `createDeliveries`. -/
structure DeliveryCall where
  clientId : Int
  eventType : String
  data : Json
  projectId : Option Int

/-- The alert that is handed to the consumer of gas tank alerts. -/
structure RawAlert where
  projectId : Option Json
  chainId : Option Json
  address : Option Json
  balanceWei : Option Json
  thresholdWei : Option Json
  timestamp : Option Json

inductive Handled where
  | skipped
  | thrown
  | delegated (alert : RawAlert)
  | delivered (call : DeliveryCall)

namespace Handled

/-- An event that throws is only tried again. -/
def processed : Handled → Bool
  | .thrown => false
  | .skipped | .delegated _ | .delivered _ => true

/-- The event type and the data of the webhooks. -/
def webhook? : Handled → Option (String × Json)
  | .delivered call => some (call.eventType, call.data)
  | .skipped | .thrown | .delegated _ => none

end Handled

/-- The end of both handlers, from the fields that name the client and the data to deliver. -/
def createDeliveries (fields : Fields) (eventType : String) (payload : Json) : Handled :=
  match fields.client with
  | none => .skipped
  | some client =>
    match runtime.bigInt client, fields.project.map runtime.bigInt with
    | none, _ | some _, some none => .thrown
    | some clientId, none => .delivered ⟨clientId, eventType, payload, none⟩
    | some clientId, some (some projectId) =>
      .delivered ⟨clientId, eventType, payload, some projectId⟩

/-- The flat list of an entry, as an object. -/
def readPairs (fields : Fields) : List String → Fields
  | key :: value :: rest => readPairs (fields.assign key (.string value)) rest
  | [_] | [] => fields

/-- The field `payload`, parsed, where it is not empty. -/
def parsedPayload (fields : Fields) : Option Json :=
  match fields.get "payload" with
  | some (.string text) => if text = "" then none else runtime.parse text
  | _ => none

def processStreamEntry (entry : List String) (eventType : String) : Handled :=
  let fields := readPairs [] entry
  if eventType = "gas_tank.low_balance" then
    .delegated {
      projectId := (fields.get "projectId").or (fields.get "project_id")
      chainId := (fields.get "chainId").or (fields.get "chain_id")
      address := fields.get "address"
      balanceWei := (fields.get "balanceWei").or (fields.get "balance_wei")
      thresholdWei := (fields.get "thresholdWei").or (fields.get "threshold_wei")
      timestamp := fields.get "timestamp" }
  else
    createDeliveries runtime fields eventType
      ((parsedPayload runtime fields).getD (.object fields))

/-- The handler of `startKafkaConsumer`, and the parsing before it. -/
def handleMessage (text : String) (eventType : String) : Handled :=
  match runtime.parse text with
  | some (.object fields) => createDeliveries runtime fields eventType (.object fields)
  | _ => .skipped

/-- The transport that the consumer chose at its start. -/
inductive Mode where
  | kafka
  | redis
deriving DecidableEq

/-- What becomes of a publication; a consumer whose subscription failed reads nothing. -/
def consume (published : Published) : Mode → Option Handled
  | .redis => do
    let entry ← published.entry
    let eventType ← streamEventMap.lookup stream
    return processStreamEntry runtime entry eventType
  | .kafka =>
    if failures.subscribe then none
    else do
      let (topic, text) ← published.message
      let eventType ← kafkaToEvent.lookup topic
      return handleMessage runtime text eventType

/-! ## The property -/

/-- An event is processed in both modes, and both deliver the same. -/
structure Carried : Prop where
  processed : ∀ mode, ∃ handled,
    consume runtime failures stream (publish runtime bus failures stream data) mode = some handled ∧
      handled.processed = true
  same : ∀ {left right},
    consume runtime failures stream (publish runtime bus failures stream data) .kafka = some left →
    consume runtime failures stream (publish runtime bus failures stream data) .redis =
      some right → left.webhook? = right.webhook?

/-! ## The condition -/

def depositStreams : List String := ["deposits:detected", "deposits:confirmation", "deposits:swept"]

def withdrawalStreams : List String :=
  ["withdrawals:submitted", "withdrawals:confirmed", "withdrawals:failed"]

/-- The fields as Redis carries them. -/
def wired : Fields := data.fields.map fun field => (field.1, .string (runtime.wire field.2))

/-- The fields name a client and no project, or one, by numbers. -/
def Callable (fields : Fields) : Prop :=
  (∃ client, fields.client = some client ∧ (runtime.bigInt client).isSome) ∧
    ∀ project, fields.project = some project → (runtime.bigInt project).isSome

/-- A field `payload` that parses holds the whole event, or all values are texts. -/
def SameData : Prop :=
  match parsedPayload runtime (wired runtime data) with
  | some payload => payload = .object data.fields
  | none => ∀ field ∈ data.fields, ∃ text, field.2 = .string text

/-- Every transport that is tried rejects the event. -/
structure AllReject : Prop where
  tried : bus.enableRedisStreams = true ∨
    (bus.enableKafka = true ∧ (streamToTopic.lookup stream).isSome)
  redis : bus.enableRedisStreams = true → failures.xadd = true ∨ data.fields = []
  kafka : bus.enableKafka = true → (streamToTopic.lookup stream).isSome →
    (bus.connected = true ∨ failures.connect = false) ∧ failures.send = true

/-- Both transports are used and neither fails, and the event is about no client, or it is one of a
deposit that reads the same on both sides. -/
structure CarriedWhen : Prop where
  redis : bus.enableRedisStreams = true ∧ failures.xadd = false ∧ data.fields ≠ []
  kafka : bus.enableKafka = true ∧ (bus.connected = true ∨ failures.connect = false) ∧
    failures.send = false ∧ failures.subscribe = false
  agree : (stream ∈ depositStreams ++ withdrawalStreams ∧ data.fields.client = none ∧
      (wired runtime data).client = none) ∨
    (stream ∈ depositStreams ∧ Callable runtime data.fields ∧
      Callable runtime (wired runtime data) ∧ SameData runtime data)

variable {runtime bus failures stream data}

/-! ## The tables -/

/-- The event type on the side of Kafka. -/
def kafkaEvent? (stream : String) : Option String :=
  (streamToTopic.lookup stream).bind fun topic => kafkaToEvent.lookup topic

/-- What the tables say about a stream that the service maps. -/
inductive TableRow (stream eventType : String) : Prop where
  | deposit (listed : stream ∈ depositStreams) (kafka : kafkaEvent? stream = some eventType)
      (plain : eventType ≠ "gas_tank.low_balance")
  | withdrawal (listed : stream ∈ withdrawalStreams) (other : stream ∉ depositStreams)
      (kafka : kafkaEvent? stream = some "withdrawal.lifecycle")
      (different : eventType ≠ "withdrawal.lifecycle") (plain : eventType ≠ "gas_tank.low_balance")
  | missing (kafka : kafkaEvent? stream = none)
      (unlisted : stream ∉ depositStreams ++ withdrawalStreams)

theorem mem_of_lookup {Key Value : Type} [BEq Key] [LawfulBEq Key] {table : List (Key × Value)}
    {key : Key} {value : Value} (found : table.lookup key = some value) : (key, value) ∈ table := by
  induction table with
  | nil => cases found
  | cons entry rest ih =>
    rw [lookup_cons] at found
    split at found
    · rename_i same
      cases found
      rw [eq_of_beq same]
      exact mem_cons_self
    · exact mem_cons_of_mem _ (ih found)

variable {eventType : String}

/-- Streams of deposits and withdrawals have topics that are subscribed to, and the event types of
the withdrawals differ. -/
theorem tableRow (mapped : streamEventMap.lookup stream = some eventType) :
    TableRow stream eventType := by
  have member := mem_of_lookup mapped
  simp only [streamEventMap, mem_cons, Prod.mk.injEq, not_mem_nil, or_false] at member
  rcases member with ⟨rfl, rfl⟩ | ⟨rfl, rfl⟩ | ⟨rfl, rfl⟩ | ⟨rfl, rfl⟩ | ⟨rfl, rfl⟩ | ⟨rfl, rfl⟩ |
    ⟨rfl, rfl⟩ | ⟨rfl, rfl⟩ | ⟨rfl, rfl⟩
  · exact .deposit (by decide) (by decide) (by decide)
  · exact .deposit (by decide) (by decide) (by decide)
  · exact .deposit (by decide) (by decide) (by decide)
  · exact .missing (by decide) (by decide)
  · exact .withdrawal (by decide) (by decide) (by decide) (by decide) (by decide)
  · exact .missing (by decide) (by decide)
  · exact .withdrawal (by decide) (by decide) (by decide) (by decide) (by decide)
  · exact .withdrawal (by decide) (by decide) (by decide) (by decide) (by decide)
  · exact .missing (by decide) (by decide)

/-! ## The entry of a stream -/

variable {fields : Fields}

theorem assign_of_new {key : String} {value : Json} (new : key ∉ fields.map Prod.fst) :
    fields.assign key value = fields ++ [(key, value)] := by
  have absent : fields.any (fun field => field.1 = key) = false := by
    rw [any_eq_false]
    intro field member same
    exact new (mem_map.mpr ⟨field, member, of_decide_eq_true same⟩)
  simp [Fields.assign, absent]

/-- The flat list of fields, read back. -/
theorem readPairs_flat (read rest : Fields)
    (distinct : ((read ++ rest).map Prod.fst).Nodup) :
    readPairs read (rest.flatMap fun field => [field.1, runtime.wire field.2]) =
      read ++ rest.map fun field => (field.1, .string (runtime.wire field.2)) := by
  induction rest generalizing read with
  | nil => simp [readPairs]
  | cons field rest ih =>
    have new : field.1 ∉ read.map Prod.fst := by
      rw [map_append, map_cons, nodup_middle, nodup_cons] at distinct
      exact fun member => distinct.1 (mem_append_left _ member)
    have further : (((read ++ [(field.1, Json.string (runtime.wire field.2))]) ++ rest).map
        Prod.fst).Nodup := by
      simpa using distinct
    rw [flatMap_cons, cons_append, cons_append, nil_append, readPairs,
      assign_of_new new, ih _ further, map_cons, append_assoc]
    rfl

theorem readPairs_streamFields : readPairs [] (streamFields runtime data) = wired runtime data := by
  have read := @readPairs_flat runtime [] data.fields data.distinct
  simpa [streamFields, wired] using read

theorem streamFields_eq_nil : streamFields runtime data = [] ↔ data.fields = [] := by
  cases fields : data.fields <;> simp [streamFields, fields]

/-! ## The transports -/

theorem publish_entry {entry : List String} :
    (publish runtime bus failures stream data).entry = some entry ↔
      (bus.enableRedisStreams = true ∧ failures.xadd = false ∧ data.fields ≠ []) ∧
        streamFields runtime data = entry := by
  cases enabled : bus.enableRedisStreams <;> cases failing : failures.xadd <;>
    by_cases empty : data.fields = [] <;>
    simp [publish, publishToRedisStream, enabled, failing, streamFields_eq_nil, empty]

theorem publish_message {topic : Topic} {text : String} :
    (publish runtime bus failures stream data).message = some (topic, text) ↔
      (bus.enableKafka = true ∧ (bus.connected = true ∨ failures.connect = false) ∧
        failures.send = false) ∧ streamToTopic.lookup stream = some topic ∧
        runtime.stringify (.object data.fields) = text := by
  cases enabled : bus.enableKafka <;> cases connected : bus.connected <;>
    cases connect : failures.connect <;> cases send : failures.send <;>
    cases found : streamToTopic.lookup stream <;>
    simp [publish, producerPublish, enabled, connected, connect, send, found]

theorem consume_redis {handled : Handled} :
    consume runtime failures stream (publish runtime bus failures stream data) .redis =
        some handled ↔
      (bus.enableRedisStreams = true ∧ failures.xadd = false ∧ data.fields ≠ []) ∧
        ∃ eventType, streamEventMap.lookup stream = some eventType ∧
          processStreamEntry runtime (streamFields runtime data) eventType = handled := by
  simp only [consume, Option.bind_eq_bind, Option.bind_eq_some_iff, publish_entry, Option.pure_def,
    Option.some.injEq]
  constructor
  · rintro ⟨entry, ⟨ready, rfl⟩, rest⟩
    exact ⟨ready, rest⟩
  · rintro ⟨ready, rest⟩
    exact ⟨_, ⟨ready, rfl⟩, rest⟩

theorem consume_kafka {handled : Handled}
    (readable : runtime.parse (runtime.stringify (.object data.fields)) =
      some (.object data.fields)) :
    consume runtime failures stream (publish runtime bus failures stream data) .kafka =
        some handled ↔
      (bus.enableKafka = true ∧ (bus.connected = true ∨ failures.connect = false) ∧
        failures.send = false ∧ failures.subscribe = false) ∧
        ∃ eventType, kafkaEvent? stream = some eventType ∧
          createDeliveries runtime data.fields eventType (.object data.fields) = handled := by
  have handles : ∀ eventType, handleMessage runtime (runtime.stringify (.object data.fields))
      eventType = createDeliveries runtime data.fields eventType (.object data.fields) := by
    intro eventType
    simp only [handleMessage, readable]
  cases subscribe : failures.subscribe with
  | true => simp [consume, subscribe]
  | false =>
    simp only [consume, subscribe, Bool.false_eq_true, if_false, Option.bind_eq_bind,
      Option.bind_eq_some_iff, Prod.exists, publish_message, kafkaEvent?, Option.pure_def,
      Option.some.injEq, and_true]
    constructor
    · rintro ⟨topic, text, ⟨ready, found, rfl⟩, eventType, listed, rfl⟩
      exact ⟨ready, eventType, ⟨topic, found, listed⟩, (handles eventType).symm⟩
    · rintro ⟨ready, eventType, ⟨topic, found, listed⟩, rfl⟩
      exact ⟨topic, _, ⟨ready, found, rfl⟩, eventType, listed, handles eventType⟩

/-! ## The handlers -/

/-- Without a client nothing is delivered. -/
theorem createDeliveries_skipped {payload : Json} (unnamed : fields.client = none) :
    createDeliveries runtime fields eventType payload = .skipped := by
  rw [createDeliveries, unnamed]

/-- A call is made if the fields allow it. -/
theorem createDeliveries_webhook {payload : Json} (callable : Callable runtime fields) :
    (createDeliveries runtime fields eventType payload).webhook? = some (eventType, payload) ∧
      (createDeliveries runtime fields eventType payload).processed = true := by
  obtain ⟨⟨client, named, number⟩, projects⟩ := callable
  obtain ⟨clientId, clientNumber⟩ := Option.isSome_iff_exists.mp number
  cases project : fields.project with
  | none =>
    simp [createDeliveries, named, clientNumber, project, Handled.webhook?, Handled.processed]
  | some value =>
    obtain ⟨projectId, projectNumber⟩ := Option.isSome_iff_exists.mp (projects value project)
    simp [createDeliveries, named, clientNumber, project, projectNumber, Handled.webhook?,
      Handled.processed]

/-- What is processed had no client, or its fields allowed the call. -/
theorem callable_of_processed {payload : Json}
    (processed : (createDeliveries runtime fields eventType payload).processed = true) :
    fields.client = none ∨ Callable runtime fields := by
  cases named : fields.client with
  | none => exact .inl rfl
  | some client =>
    right
    cases clientNumber : runtime.bigInt client with
    | none => simp [createDeliveries, named, clientNumber, Handled.processed] at processed
    | some clientId =>
      refine ⟨⟨client, named, by rw [clientNumber]; rfl⟩, fun project found => ?_⟩
      cases projectNumber : runtime.bigInt project with
      | none =>
        simp [createDeliveries, named, clientNumber, found, projectNumber,
          Handled.processed] at processed
      | some projectId => rfl

/-- Redis delivers the data of the event. -/
theorem sameData_iff : SameData runtime data ↔
    (parsedPayload runtime (wired runtime data)).getD (.object (wired runtime data)) =
      .object data.fields := by
  rw [SameData]
  cases parsedPayload runtime (wired runtime data) with
  | some payload => rfl
  | none =>
    rw [Option.getD_none, Json.object.injEq, wired]
    constructor
    · intro texts
      refine (map_congr_left fun field member => ?_).trans (map_id _)
      obtain ⟨text, same⟩ := texts field member
      obtain ⟨key, value⟩ := field
      cases same
      rfl
    · intro same field member
      obtain ⟨index, there⟩ := getElem?_of_mem member
      have equal := congrArg (fun fields => fields[index]?) same
      simp only [getElem?_map, there, Option.map_some, Option.some.injEq] at equal
      exact ⟨_, (congrArg Prod.snd equal).symm⟩

theorem processStreamEntry_eq (other : eventType ≠ "gas_tank.low_balance") :
    processStreamEntry runtime (streamFields runtime data) eventType =
      createDeliveries runtime (wired runtime data) eventType
        ((parsedPayload runtime (wired runtime data)).getD (.object (wired runtime data))) := by
  rw [processStreamEntry, readPairs_streamFields, if_neg other]

/-! ## Carried events -/

theorem publishToRedisStream_isNone : (publishToRedisStream runtime failures data).isNone = true ↔
    failures.xadd = true ∨ data.fields = [] := by
  by_cases rejected : failures.xadd = true ∨ streamFields runtime data = []
  · simp [publishToRedisStream, rejected, ← @streamFields_eq_nil runtime]
  · simp [publishToRedisStream, rejected, ← @streamFields_eq_nil runtime]

theorem producerPublish_rejected {topic : Topic} :
    (producerPublish runtime bus failures data topic).2 = true ↔
      (bus.connected = true ∨ failures.connect = false) ∧ failures.send = true := by
  cases connected : bus.connected <;> cases connect : failures.connect <;>
    cases send : failures.send <;> simp [producerPublish, connected, connect, send]

theorem accepted_iff : (publish runtime bus failures stream data).accepted = true ↔
    ¬ AllReject bus failures stream data := by
  have rejects : AllReject bus failures stream data ↔
      (publish runtime bus failures stream data).rejected ≠ [] ∧
        ∀ rejected ∈ (publish runtime bus failures stream data).rejected, rejected = true := by
    have fields : AllReject bus failures stream data ↔
        (bus.enableRedisStreams = true ∨
          (bus.enableKafka = true ∧ (streamToTopic.lookup stream).isSome)) ∧
        (bus.enableRedisStreams = true → failures.xadd = true ∨ data.fields = []) ∧
        (bus.enableKafka = true → (streamToTopic.lookup stream).isSome →
          (bus.connected = true ∨ failures.connect = false) ∧ failures.send = true) :=
      ⟨fun reject => ⟨reject.tried, reject.redis, reject.kafka⟩,
        fun reject => ⟨reject.1, reject.2.1, reject.2.2⟩⟩
    rw [fields]
    simp only [← @publishToRedisStream_isNone runtime, publish]
    cases bus.enableRedisStreams <;> cases bus.enableKafka <;>
      cases streamToTopic.lookup stream with
      | none => simp
      | some topic => simp [← @producerPublish_rejected runtime bus failures data topic]
  rw [rejects, Published.accepted]
  simp only [Bool.or_eq_true, decide_eq_true_eq, any_eq_true, Bool.not_eq_true', ne_eq,
    not_and, not_forall, Bool.not_eq_true, exists_prop]
  exact or_iff_not_imp_left

/-- What both sides process and deliver alike. -/
theorem agree_of_same {onKafka onRedis : String}
    (handled : (createDeliveries runtime data.fields onKafka
      (.object data.fields)).processed = true)
    (processed : (createDeliveries runtime (wired runtime data) onRedis
      ((parsedPayload runtime (wired runtime data)).getD
        (.object (wired runtime data)))).processed = true)
    (same : (createDeliveries runtime data.fields onKafka (.object data.fields)).webhook? =
      (createDeliveries runtime (wired runtime data) onRedis
        ((parsedPayload runtime (wired runtime data)).getD
          (.object (wired runtime data)))).webhook?) :
    (data.fields.client = none ∧ (wired runtime data).client = none) ∨
      (onKafka = onRedis ∧ Callable runtime data.fields ∧ Callable runtime (wired runtime data) ∧
        SameData runtime data) := by
  rcases callable_of_processed handled with unnamed | callable <;>
    rcases callable_of_processed processed with wiredUnnamed | wiredCallable
  · exact .inl ⟨unnamed, wiredUnnamed⟩
  · rw [createDeliveries_skipped unnamed, (createDeliveries_webhook wiredCallable).1] at same
    cases same
  · rw [createDeliveries_skipped wiredUnnamed, (createDeliveries_webhook callable).1] at same
    cases same
  · rw [(createDeliveries_webhook callable).1, (createDeliveries_webhook wiredCallable).1] at same
    obtain ⟨events, payloads⟩ := Prod.mk.inj (Option.some.inj same)
    exact .inr ⟨events, callable, wiredCallable, sameData_iff.mpr payloads.symm⟩

/-- An event that is carried was taken by both transports, and reads the same on both sides. -/
theorem CarriedWhen.of_carried (mapped : streamEventMap.lookup stream = some eventType)
    (readable : runtime.parse (runtime.stringify (.object data.fields)) =
      some (.object data.fields)) (carried : Carried runtime bus failures stream data) :
    CarriedWhen runtime bus failures stream data := by
  obtain ⟨onKafka, consumed, handled⟩ := carried.processed .kafka
  obtain ⟨onRedis, read, processed⟩ := carried.processed .redis
  have same := carried.same consumed read
  obtain ⟨kafka, kafkaEvent, listed, rfl⟩ := (consume_kafka readable).mp consumed
  obtain ⟨redis, redisEvent, known, rfl⟩ := consume_redis.mp read
  cases mapped.symm.trans known
  refine ⟨redis, kafka, ?_⟩
  cases tableRow mapped with
  | missing none => cases none.symm.trans listed
  | deposit deposits event plain =>
    cases event.symm.trans listed
    rw [processStreamEntry_eq plain] at processed same
    rcases agree_of_same handled processed same with unnamed | ⟨_, agrees⟩
    · exact .inl ⟨mem_append_left _ deposits, unnamed⟩
    · exact .inr ⟨deposits, agrees⟩
  | withdrawal withdrawals other event different plain =>
    cases event.symm.trans listed
    rw [processStreamEntry_eq plain] at processed same
    rcases agree_of_same handled processed same with unnamed | ⟨equal, _⟩
    · exact .inl ⟨mem_append_right _ withdrawals, unnamed⟩
    · exact absurd equal.symm different

/-- What both sides take and read alike is carried. -/
theorem CarriedWhen.carried (mapped : streamEventMap.lookup stream = some eventType)
    (readable : runtime.parse (runtime.stringify (.object data.fields)) =
      some (.object data.fields)) (carries : CarriedWhen runtime bus failures stream data) :
    Carried runtime bus failures stream data := by
  obtain ⟨redis, kafka, agree⟩ := carries
  have subscribed : ∃ kafkaEvent, kafkaEvent? stream = some kafkaEvent ∧
      eventType ≠ "gas_tank.low_balance" ∧ (stream ∈ depositStreams → kafkaEvent = eventType) := by
    cases tableRow mapped with
    | missing none unlisted =>
      rcases agree with ⟨listed, _⟩ | ⟨listed, _⟩
      · exact absurd listed unlisted
      · exact absurd (mem_append_left _ listed) unlisted
    | deposit deposits event plain => exact ⟨eventType, event, plain, fun _ => rfl⟩
    | withdrawal withdrawals other event different plain =>
      exact ⟨_, event, plain, fun deposits => absurd deposits other⟩
  obtain ⟨kafkaEvent, listed, plain, deposits⟩ := subscribed
  have consumed := (@consume_kafka runtime bus failures stream data _ readable).mpr
    ⟨kafka, kafkaEvent, listed, rfl⟩
  have read := (@consume_redis runtime bus failures stream data _).mpr
    ⟨redis, eventType, mapped, processStreamEntry_eq plain⟩
  rcases agree with ⟨_, unnamed, wiredUnnamed⟩ | ⟨member, callable, wiredCallable, data⟩
  · rw [createDeliveries_skipped unnamed] at consumed
    rw [createDeliveries_skipped wiredUnnamed] at read
    constructor
    · rintro (_ | _)
      · exact ⟨.skipped, consumed, rfl⟩
      · exact ⟨.skipped, read, rfl⟩
    · intro left right onKafka onRedis
      cases consumed.symm.trans onKafka
      cases read.symm.trans onRedis
      rfl
  · obtain ⟨webhook, processed⟩ := createDeliveries_webhook callable
    obtain ⟨wiredWebhook, wiredProcessed⟩ := createDeliveries_webhook wiredCallable
    constructor
    · rintro (_ | _)
      · exact ⟨_, consumed, processed⟩
      · exact ⟨_, read, wiredProcessed⟩
    · intro left right onKafka onRedis
      cases consumed.symm.trans onKafka
      cases read.symm.trans onRedis
      rw [webhook, wiredWebhook, deposits member, sameData_iff.mp data]

/-- An event on a stream that the notification service maps, once `publish` accepts it, is processed
in both modes with the same event type and data, if and only if every transport rejects it, or both
transports are used and neither fails and it is about no client, or about a deposit and reads the
same on both sides. -/
theorem event_carried_iff {eventType : String}
    (mapped : streamEventMap.lookup stream = some eventType)
    (readable : runtime.parse (runtime.stringify (.object data.fields)) =
      some (.object data.fields)) :
    ((publish runtime bus failures stream data).accepted = true →
        Carried runtime bus failures stream data) ↔
      (AllReject bus failures stream data ∨ CarriedWhen runtime bus failures stream data) := by
  rw [accepted_iff]
  constructor
  · intro carried
    by_cases rejected : AllReject bus failures stream data
    · exact .inl rejected
    · exact .inr (.of_carried mapped readable (carried rejected))
  · rintro (rejected | carries) accepted
    · exact absurd rejected accepted
    · exact carries.carried mapped readable

/-! ## A deposit -/

def depositText : String := "\x7b\"clientId\":\"7\",\"amount\":\"1000\"\x7d"

/-- Numbers of decimal digits, and one object that is written and read. -/
def toyRuntime : Runtime where
  stringify _ := depositText
  parse text :=
    if text = depositText then
      some (.object [("clientId", .string "7"), ("amount", .string "1000")])
    else none
  bigInt
    | .string text =>
      if text.toList.all Char.isDigit then
        some (text.toList.foldl (fun value digit => 10 * value + (digit.toNat - 48 : Int)) 0)
      else none
    | _ => none

def depositData : EventData := ⟨[("clientId", .string "7"), ("amount", .string "1000")], by decide⟩

def dualWrite : Bus := ⟨true, true, false⟩

def noFailures : Failures := ⟨false, false, false, false⟩

/-- The producer cannot connect. -/
def kafkaUnavailable : Failures := ⟨false, true, true, true⟩

/-- With both transports up, a detected deposit is carried. -/
theorem event_carried_sample :
    (publish toyRuntime dualWrite noFailures "deposits:detected" depositData).accepted = true ∧
      Carried toyRuntime dualWrite noFailures "deposits:detected" depositData := by
  have mapped : streamEventMap.lookup "deposits:detected" = some "deposit.detected" := by decide
  have accepted :
      (publish toyRuntime dualWrite noFailures "deposits:detected" depositData).accepted = true := by
    decide
  refine ⟨accepted, (event_carried_iff mapped rfl).mpr (.inr ⟨⟨rfl, rfl, by simp [depositData]⟩,
    ⟨rfl, .inr rfl, rfl, rfl⟩, .inr ⟨by decide, ?_, ?_, ?_⟩⟩) accepted⟩
  · exact ⟨⟨.string "7", rfl, by decide +kernel⟩, fun _ found => by cases found⟩
  · exact ⟨⟨.string "7", rfl, by decide +kernel⟩, fun _ found => by cases found⟩
  · intro field member
    simp only [depositData, mem_cons, not_mem_nil, or_false] at member
    rcases member with rfl | rfl
    · exact ⟨"7", rfl⟩
    · exact ⟨"1000", rfl⟩

/-- While Kafka is unavailable the bus is content with Redis, and a consumer of Kafka handles
nothing. -/
theorem event_not_carried :
    ¬ ∀ (runtime : Runtime) (bus : Bus) (failures : Failures) (stream : String) (data : EventData)
      (eventType : String), streamEventMap.lookup stream = some eventType →
        runtime.parse (runtime.stringify (.object data.fields)) = some (.object data.fields) →
        (failures.xadd = false ∨
          (failures.connect = false ∧ failures.send = false ∧ failures.subscribe = false)) →
        (publish runtime bus failures stream data).accepted = true →
          Carried runtime bus failures stream data := by
  intro always
  have mapped : streamEventMap.lookup "deposits:detected" = some "deposit.detected" := by decide
  have carried := always toyRuntime dualWrite kafkaUnavailable _ depositData _ mapped rfl (.inl rfl)
    (by decide)
  obtain ⟨handled, consumed, _⟩ := carried.processed .kafka
  cases consumed

end CryptoVaultHub.EventBus
