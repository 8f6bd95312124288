import CryptoVaultHub.Notification.ClientCalls

/-!
# Isolation of clients

A call is compared with the same call on the rows of its client alone. A handler that is given a row
of another client shows it, changes it or sends it, or at least tells it from one that is not there;
a call that names no such row does the same with and without the rows of the others.
-/

namespace CryptoVaultHub.Notification

open TransitionSystem List

/-! ## The property -/

/-- The rows of the clients that are kept. -/
def Tables.restrict (keep : ClientId → Bool) (tables : Tables) : Tables :=
  { tables with
    webhooks := tables.webhooks.filter fun webhook => keep webhook.clientId
    deliveries := tables.deliveries.filter fun delivery => keep delivery.clientId }

/-- The rows of a client. -/
def Tables.only (client : ClientId) (tables : Tables) : Tables :=
  tables.restrict fun owner => owner = client

/-- The rows of the other clients. -/
def Tables.others (client : ClientId) (tables : Tables) : List Webhook × List LoggedDelivery :=
  let rest := tables.restrict fun owner => owner ≠ client
  (rest.webhooks, rest.deliveries)

/-- What is sent is a delivery of the client, to an endpoint of the client. -/
def Outgoing.BelongsTo (client : ClientId) : Outgoing → Prop
  | .post delivery webhook => delivery.clientId = client ∧ webhook.clientId = client
  | .job delivery => delivery.clientId = client

/-- Calls of a client change and send no row of another client, and their responses are those that
they have where there are no rows of other clients. -/
structure Isolated (client : ClientId) (tables : Tables) (requests : List Request) : Prop where
  unchanged : (handleAll client requests tables).1.others client = tables.others client
  unsent : ∀ out ∈ (handleAll client requests tables).2.2, out.BelongsTo client
  independent : (handleAll client requests tables).2.1 =
    (handleAll client requests (tables.only client)).2.1

/-! ## Its condition -/

/-- The call names a row of another client. -/
def ClientCall.trespasses (client : ClientId) (tables : Tables) : ClientCall → Bool
  | .updateWebhook id _ | .deleteWebhook id | .testWebhook id =>
    (tables.webhook? id).any fun webhook => webhook.clientId ≠ client
  | .listDeliveries webhookId status =>
    tables.deliveries.any fun delivery =>
      isListed webhookId status delivery && delivery.clientId ≠ client
  | .getDeliveryDetail id | .retryDelivery id | .resendDelivery id =>
    (tables.delivery? id).any fun delivery => delivery.clientId ≠ client
  | .retryDeliveriesBulk _ => false

/-- No call names a row of another client, in the tables that it meets. -/
def keepsToOwn (client : ClientId) : List Request → Tables → Bool
  | [], _ => true
  | (call, environment) :: rest, tables =>
    !call.trespasses client tables &&
      keepsToOwn client rest (call.handle client environment tables).tables

/-! ## Tables -/

/-- Identifiers are unique, and a delivery belongs to the client of its webhook. -/
structure Tables.Valid (tables : Tables) : Prop where
  webhooks : (tables.webhooks.map Webhook.id).Nodup
  deliveries : (tables.deliveries.map LoggedDelivery.id).Nodup
  numbered : ∀ delivery ∈ tables.deliveries, delivery.id < tables.nextDelivery
  owned : ∀ delivery ∈ tables.deliveries, ∃ webhook ∈ tables.webhooks,
    webhook.id = delivery.webhookId ∧ webhook.clientId = delivery.clientId

/-- Looking up a key among the rows that are kept. -/
theorem find?_filter_of_nodup {Row : Type} {key : Row → Nat} {rows : List Row}
    (distinct : (rows.map key).Nodup) (keep : Row → Bool) (id : Nat) :
    (rows.filter keep).find? (fun row => key row = id) =
      (rows.find? fun row => key row = id).filter keep := by
  induction rows with
  | nil => rfl
  | cons row rest ih =>
    rw [map_cons, nodup_cons] at distinct
    have later := ih distinct.2
    by_cases here : key row = id
    · have absent : rest.find? (fun other => key other = id) = none := by
        apply find?_eq_none.mpr
        intro other listed same
        apply distinct.1
        rw [here, ← of_decide_eq_true same]
        exact mem_map_of_mem listed
      cases kept : keep row with
      | true => simp [kept, here, Option.filter]
      | false => simp [kept, here, Option.filter, later, absent]
    · cases kept : keep row with
      | true => simp [kept, here, later]
      | false => simp [kept, here, later]

namespace Tables

variable {tables : Tables} {keep : ClientId → Bool} {client : ClientId}

theorem webhook?_restrict (valid : tables.Valid) (keep : ClientId → Bool) (id : WebhookId) :
    (tables.restrict keep).webhook? id =
      (tables.webhook? id).filter fun webhook => keep webhook.clientId :=
  find?_filter_of_nodup valid.webhooks (fun webhook => keep webhook.clientId) id

theorem delivery?_restrict (valid : tables.Valid) (keep : ClientId → Bool) (id : DeliveryId) :
    (tables.restrict keep).delivery? id =
      (tables.delivery? id).filter fun delivery => keep delivery.clientId :=
  find?_filter_of_nodup valid.deliveries (fun delivery => keep delivery.clientId) id

theorem webhook?_some {id : WebhookId} {webhook : Webhook}
    (found : tables.webhook? id = some webhook) : webhook ∈ tables.webhooks ∧ webhook.id = id := by
  have named := find?_some found
  exact ⟨mem_of_find?_eq_some found, of_decide_eq_true named⟩

variable {delivery : LoggedDelivery}

theorem delivery?_some {id : DeliveryId} (found : tables.delivery? id = some delivery) :
    delivery ∈ tables.deliveries ∧ delivery.id = id := by
  have named := find?_some found
  exact ⟨mem_of_find?_eq_some found, of_decide_eq_true named⟩

theorem Valid.webhook_eq (valid : tables.Valid) {first second : Webhook}
    (inFirst : first ∈ tables.webhooks) (inSecond : second ∈ tables.webhooks)
    (same : first.id = second.id) : first = second :=
  inj_on_of_nodup_map valid.webhooks inFirst inSecond same

theorem Valid.delivery_eq (valid : tables.Valid) {first second : LoggedDelivery}
    (inFirst : first ∈ tables.deliveries) (inSecond : second ∈ tables.deliveries)
    (same : first.id = second.id) : first = second :=
  inj_on_of_nodup_map valid.deliveries inFirst inSecond same

/-- The webhook of a delivery has its client. -/
theorem Valid.webhook?_of_delivery (valid : tables.Valid) (listed : delivery ∈ tables.deliveries)
    {webhook : Webhook} (found : tables.webhook? delivery.webhookId = some webhook) :
    webhook.clientId = delivery.clientId := by
  obtain ⟨owner, inside, named, same⟩ := valid.owned delivery listed
  obtain ⟨member, also⟩ := webhook?_some found
  rw [valid.webhook_eq member inside (also.trans named.symm)]
  exact same

/-- Rows that a change leaves with their owner. -/
theorem filter_map_owner {Row : Type} {owner : Row → ClientId} {change : Row → Row}
    (same : ∀ row, owner (change row) = owner row) (rows : List Row) :
    (rows.map change).filter (fun row => keep (owner row)) =
      (rows.filter fun row => keep (owner row)).map change := by
  rw [filter_map]
  congr 1
  apply filter_congr
  intro row _
  simp [same]

/-- A change of one row among rows that do not contain it. -/
theorem map_of_absent {Row : Type} {key : Row → Nat} {rows : List Row} {id : Nat}
    (absent : ∀ row ∈ rows, key row ≠ id) (change : Row → Row) :
    (rows.map fun row => if key row = id then change row else row) = rows := by
  conv_rhs => rw [← map_id rows]
  apply map_congr_left
  intro row listed
  rw [if_neg (absent row listed), id_eq]

theorem Valid.delivery?_of_mem (valid : tables.Valid) (listed : delivery ∈ tables.deliveries) :
    tables.delivery? delivery.id = some delivery := by
  cases found : tables.delivery? delivery.id with
  | none => simpa using find?_eq_none.mp found delivery listed
  | some other =>
    obtain ⟨inside, same⟩ := delivery?_some found
    rw [valid.delivery_eq inside listed same]

theorem Valid.webhook?_of_mem (valid : tables.Valid) {webhook : Webhook}
    (listed : webhook ∈ tables.webhooks) : tables.webhook? webhook.id = some webhook := by
  cases found : tables.webhook? webhook.id with
  | none => simpa using find?_eq_none.mp found webhook listed
  | some other =>
    obtain ⟨inside, same⟩ := webhook?_some found
    rw [valid.webhook_eq inside listed same]

end Tables

/-! ## Changes of a client's own rows -/

/-- A change of rows of the client, which is the same where there are no other rows. -/
structure Confined (client : ClientId) (before after alone : Tables) : Prop where
  valid : after.Valid
  alone : alone = after.only client
  others : after.others client = before.others client

section Changes

variable {tables middle after alone : Tables} {client : ClientId}

theorem Confined.refl (valid : tables.Valid) :
    Confined client tables tables (tables.only client) := ⟨valid, rfl, rfl⟩

theorem Confined.trans {first : Tables} (earlier : Confined client tables middle first)
    (later : Confined client middle after alone) : Confined client tables after alone :=
  ⟨later.valid, later.alone, later.others.trans earlier.others⟩

/-- A change of a delivery that leaves its owner. -/
structure Keeps (change : LoggedDelivery → LoggedDelivery) : Prop where
  id : ∀ delivery, (change delivery).id = delivery.id
  webhookId : ∀ delivery, (change delivery).webhookId = delivery.webhookId
  clientId : ∀ delivery, (change delivery).clientId = delivery.clientId

theorem keeps_update (change : Change) : Keeps (LoggedDelivery.update change) :=
  ⟨fun _ => rfl, fun _ => rfl, fun _ => rfl⟩

theorem keeps_recordAttempt (attempt : Attempt) : Keeps (LoggedDelivery.recordAttempt attempt) :=
  ⟨fun _ => rfl, fun _ => rfl, fun _ => rfl⟩

variable {change : LoggedDelivery → LoggedDelivery}

theorem Keeps.only_id (keeps : Keeps change) (id : DeliveryId) :
    Keeps fun delivery => if delivery.id = id then change delivery
      else delivery := by
  constructor
  · intro delivery
    split
    · exact keeps.id delivery
    · rfl
  · intro delivery
    split
    · exact keeps.webhookId delivery
    · rfl
  · intro delivery
    split
    · exact keeps.clientId delivery
    · rfl

theorem Tables.Valid.modifyDelivery (valid : tables.Valid) (id : DeliveryId) (keeps : Keeps change) :
    (tables.modifyDelivery id change).Valid := by
  have same := keeps.only_id id
  constructor
  · exact valid.webhooks
  · have ids : ((tables.modifyDelivery id change).deliveries.map LoggedDelivery.id) =
        tables.deliveries.map LoggedDelivery.id := by
      simp only [Tables.modifyDelivery, map_map]
      exact map_congr_left fun delivery _ => same.id delivery
    rw [ids]
    exact valid.deliveries
  · intro delivery listed
    obtain ⟨before, inside, rfl⟩ := mem_map.mp listed
    rw [same.id]
    exact valid.numbered before inside
  · intro delivery listed
    obtain ⟨before, inside, rfl⟩ := mem_map.mp listed
    rw [same.webhookId, same.clientId]
    exact valid.owned before inside

theorem restrict_modifyDelivery (tables : Tables) (keep : ClientId → Bool) (id : DeliveryId)
    (keeps : Keeps change) :
    (tables.modifyDelivery id change).restrict keep =
      (tables.restrict keep).modifyDelivery id change := by
  have moved : (tables.modifyDelivery id change).deliveries.filter
      (fun delivery => keep delivery.clientId) =
        ((tables.restrict keep).modifyDelivery id change).deliveries :=
    Tables.filter_map_owner (keeps.only_id id).clientId tables.deliveries
  simp only [Tables.restrict, moved]
  rfl

theorem confined_modifyDelivery (valid : tables.Valid) {id : DeliveryId}
    (own : ∀ delivery, tables.delivery? id = some delivery → delivery.clientId = client)
    (keeps : Keeps change) :
    Confined client tables (tables.modifyDelivery id change)
      ((tables.only client).modifyDelivery id change) := by
  constructor
  · exact valid.modifyDelivery id keeps
  · exact (restrict_modifyDelivery tables _ id keeps).symm
  · simp only [Tables.others, restrict_modifyDelivery tables _ id keeps]
    refine Prod.ext rfl ?_
    apply Tables.map_of_absent
    intro delivery kept named
    obtain ⟨inside, foreign⟩ := mem_filter.mp kept
    have found := valid.delivery?_of_mem inside
    rw [named] at found
    exact of_decide_eq_true foreign (own delivery found)

theorem restrict_modifyWebhook (tables : Tables) (keep : ClientId → Bool) (id : WebhookId)
    (updates : WebhookUpdates) :
    (tables.modifyWebhook id updates.apply).restrict keep =
      (tables.restrict keep).modifyWebhook id updates.apply := by
  have same : ∀ webhook : Webhook,
      (if webhook.id = id then updates.apply webhook else webhook).clientId =
        webhook.clientId := by
    intro webhook
    split <;> rfl
  have moved : (tables.modifyWebhook id updates.apply).webhooks.filter
      (fun webhook => keep webhook.clientId) =
        ((tables.restrict keep).modifyWebhook id updates.apply).webhooks :=
    Tables.filter_map_owner same tables.webhooks
  simp only [Tables.restrict, moved]
  rfl

theorem Tables.Valid.modifyWebhook (valid : tables.Valid) (id : WebhookId)
    (updates : WebhookUpdates) : (tables.modifyWebhook id updates.apply).Valid := by
  have same : ∀ webhook : Webhook,
      (if webhook.id = id then updates.apply webhook else webhook).id = webhook.id ∧
        (if webhook.id = id then updates.apply webhook else webhook).clientId =
          webhook.clientId := by
    intro webhook
    split <;> exact ⟨rfl, rfl⟩
  constructor
  · have ids : (tables.modifyWebhook id updates.apply).webhooks.map Webhook.id =
        tables.webhooks.map Webhook.id := by
      simp only [Tables.modifyWebhook, map_map]
      exact map_congr_left fun webhook _ => (same webhook).1
    rw [ids]
    exact valid.webhooks
  · exact valid.deliveries
  · exact valid.numbered
  · intro delivery listed
    obtain ⟨webhook, inside, named, owner⟩ := valid.owned delivery listed
    refine ⟨_, mem_map_of_mem inside, ?_, ?_⟩
    · exact (same webhook).1.trans named
    · exact (same webhook).2.trans owner

theorem confined_modifyWebhook (valid : tables.Valid) {id : WebhookId}
    (own : ∀ webhook, tables.webhook? id = some webhook → webhook.clientId = client)
    (updates : WebhookUpdates) :
    Confined client tables (tables.modifyWebhook id updates.apply)
      ((tables.only client).modifyWebhook id updates.apply) := by
  constructor
  · exact valid.modifyWebhook id updates
  · exact (restrict_modifyWebhook tables _ id updates).symm
  · simp only [Tables.others, restrict_modifyWebhook tables _ id updates]
    refine Prod.ext ?_ rfl
    apply Tables.map_of_absent
    intro webhook kept named
    obtain ⟨inside, foreign⟩ := mem_filter.mp kept
    have found := valid.webhook?_of_mem inside
    rw [named] at found
    exact of_decide_eq_true foreign (own webhook found)

theorem Tables.Valid.insertDelivery (valid : tables.Valid) {draft : Draft} {webhook : Webhook}
    (listed : webhook ∈ tables.webhooks) (named : webhook.id = draft.webhookId)
    (same : webhook.clientId = draft.clientId) : (tables.insertDelivery draft).Valid := by
  constructor
  · exact valid.webhooks
  · simp only [Tables.insertDelivery, map_append]
    apply List.Nodup.append valid.deliveries (nodup_singleton _)
    intro id old new
    obtain ⟨delivery, inside, rfl⟩ := mem_map.mp old
    exact Nat.ne_of_lt (valid.numbered delivery inside) (mem_singleton.mp new)
  · intro delivery inserted
    obtain old | new := mem_append.mp inserted
    · exact Nat.lt_succ_of_lt (valid.numbered delivery old)
    · rw [mem_singleton.mp new]
      exact Nat.lt_succ_self _
  · intro delivery inserted
    obtain old | new := mem_append.mp inserted
    · exact valid.owned delivery old
    · rw [mem_singleton.mp new]
      exact ⟨webhook, listed, named, same⟩

/-- A delivery of a webhook of the client. -/
theorem confined_insertDelivery (valid : tables.Valid) {draft : Draft} {webhook : Webhook}
    (listed : webhook ∈ tables.webhooks) (named : webhook.id = draft.webhookId)
    (same : webhook.clientId = draft.clientId) (own : draft.clientId = client) :
    Confined client tables (tables.insertDelivery draft)
      ((tables.only client).insertDelivery draft) := by
  have owner : (tables.created draft).clientId = client := own
  constructor
  · exact valid.insertDelivery listed named same
  · simp only [Tables.only, Tables.restrict, Tables.insertDelivery, filter_append]
    simp only [Tables.created] at owner ⊢
    simp [owner]
  · simp only [Tables.others, Tables.restrict, Tables.insertDelivery, filter_append]
    simp [owner]

theorem Tables.Valid.removeWebhook (valid : tables.Valid) (id : WebhookId) :
    (tables.removeWebhook id).Valid := by
  constructor
  · exact valid.webhooks.sublist (filter_sublist.map _)
  · exact valid.deliveries.sublist (filter_sublist.map _)
  · exact fun delivery listed => valid.numbered delivery (mem_filter.mp listed).1
  · intro delivery listed
    obtain ⟨inside, other⟩ := mem_filter.mp listed
    obtain ⟨webhook, member, named, same⟩ := valid.owned delivery inside
    refine ⟨webhook, mem_filter.mpr ⟨member, ?_⟩, named, same⟩
    rw [named]
    exact other

/-- A webhook of the client goes with its deliveries, which are all deliveries of the client. -/
theorem confined_removeWebhook (valid : tables.Valid) {id : WebhookId}
    (own : ∀ webhook, tables.webhook? id = some webhook → webhook.clientId = client) :
    Confined client tables (tables.removeWebhook id) ((tables.only client).removeWebhook id) := by
  have owned : ∀ webhook ∈ tables.webhooks, webhook.id = id → webhook.clientId = client := by
    intro webhook listed named
    have found := valid.webhook?_of_mem listed
    rw [named] at found
    exact own webhook found
  constructor
  · exact valid.removeWebhook id
  · simp only [Tables.only, Tables.restrict, Tables.removeWebhook]
    rw [filter_comm, filter_comm (l := tables.deliveries)]
  · simp only [Tables.others, Tables.restrict, Tables.removeWebhook, filter_filter]
    refine Prod.ext ?_ ?_
    · apply filter_congr
      intro webhook listed
      by_cases named : webhook.id = id
      · simp [named, owned webhook listed named]
      · simp [named]
    · apply filter_congr
      intro delivery listed
      by_cases named : delivery.webhookId = id
      · obtain ⟨webhook, member, same, owner⟩ := valid.owned delivery listed
        simp [named, ← owner, owned webhook member (same.trans named)]
      · simp [named]

end Changes

/-! ## Handlers -/

section Handlers

variable {tables : Tables} {client : ClientId} {environment : Environment}

/-- What is left and sent, with and without the rows of other clients. -/
structure Delivers (client : ClientId) (before : Tables) (result alone : Tables × List Outgoing) :
    Prop where
  confined : Confined client before result.1 alone.1
  same : alone.2 = result.2
  sent : ∀ out ∈ result.2, out.BelongsTo client

theorem only_webhook? (valid : tables.Valid) {id : WebhookId}
    (own : ∀ webhook, tables.webhook? id = some webhook → webhook.clientId = client) :
    (tables.only client).webhook? id = tables.webhook? id := by
  rw [Tables.only, Tables.webhook?_restrict valid]
  cases found : tables.webhook? id with
  | none => rfl
  | some webhook => simp [Option.filter, own webhook found]

variable {id : DeliveryId}

theorem only_delivery? (valid : tables.Valid)
    (own : ∀ delivery, tables.delivery? id = some delivery → delivery.clientId = client) :
    (tables.only client).delivery? id = tables.delivery? id := by
  rw [Tables.only, Tables.delivery?_restrict valid]
  cases found : tables.delivery? id with
  | none => rfl
  | some delivery => simp [Option.filter, own delivery found]

/-- A delivery of the client, with its webhook. -/
def Owns (client : ClientId) (tables : Tables) (id : DeliveryId) (webhookId : WebhookId) : Prop :=
  ∃ delivery, tables.delivery? id = some delivery ∧ delivery.clientId = client ∧
    delivery.webhookId = webhookId

variable {webhookId : WebhookId}

theorem Owns.clientId (owns : Owns client tables id webhookId) :
    ∀ delivery, tables.delivery? id = some delivery → delivery.clientId = client := by
  obtain ⟨delivery, found, own, _⟩ := owns
  intro other also
  rwa [← Option.some.inj (found.symm.trans also)]

theorem Owns.webhook (valid : tables.Valid) (owns : Owns client tables id webhookId) :
    ∀ webhook, tables.webhook? webhookId = some webhook → webhook.clientId = client := by
  obtain ⟨delivery, found, own, rfl⟩ := owns
  intro webhook exists_
  rw [valid.webhook?_of_delivery (Tables.delivery?_some found).1 exists_]
  exact own

/-- A delivery stays one of the client when some delivery changes. -/
theorem Owns.modify (owns : Owns client tables id webhookId) (changed : DeliveryId)
    {change : LoggedDelivery → LoggedDelivery} (keeps : Keeps change) :
    Owns client (tables.modifyDelivery changed change) id webhookId := by
  obtain ⟨delivery, found, own, named⟩ := owns
  have same := keeps.only_id changed
  refine ⟨_, ?_, (same.clientId delivery).trans own, (same.webhookId delivery).trans named⟩
  simp only [Tables.delivery?, Tables.modifyDelivery]
  rw [find?_map]
  have untouched : ((fun delivery : LoggedDelivery => decide (delivery.id = id)) ∘ fun delivery =>
      if delivery.id = changed then change delivery else delivery) =
        fun delivery => decide (delivery.id = id) := by
    ext delivery
    simp only [Function.comp_apply, same.id]
  rw [untouched]
  exact congrArg _ found

theorem handleFailure_delivers (valid : tables.Valid) {delivery : LoggedDelivery}
    (owns : Owns client tables delivery.id delivery.webhookId) (own : delivery.clientId = client)
    (webhook : Webhook) (httpStatus : Option Nat) :
    Delivers client tables (handleFailure tables delivery webhook httpStatus)
      (handleFailure (tables.only client) delivery webhook httpStatus) := by
  simp only [handleFailure]
  split
  · refine ⟨confined_modifyDelivery valid owns.clientId (keeps_update _), rfl, ?_⟩
    intro out sent
    rw [mem_singleton.mp sent]
    exact own
  · exact ⟨confined_modifyDelivery valid owns.clientId (keeps_update _), rfl, by simp⟩

/-- The attempt is recorded, then its failure is handled. -/
theorem failure_delivers (valid : tables.Valid) {delivery : LoggedDelivery}
    (owns : Owns client tables delivery.id delivery.webhookId) (own : delivery.clientId = client)
    {webhook : Webhook} (endpoint : webhook.clientId = client) (attempt : Attempt)
    (httpStatus : Option Nat) :
    Delivers client tables
      (let recorded := tables.modifyDelivery delivery.id (LoggedDelivery.recordAttempt attempt)
       let (failed, jobs) := handleFailure recorded delivery webhook httpStatus
       (failed, .post delivery webhook :: jobs))
      (let recorded := (tables.only client).modifyDelivery delivery.id
         (LoggedDelivery.recordAttempt attempt)
       let (failed, jobs) := handleFailure recorded delivery webhook httpStatus
       (failed, .post delivery webhook :: jobs)) := by
  have recorded := confined_modifyDelivery valid owns.clientId (keeps_recordAttempt attempt)
  have failed := handleFailure_delivers recorded.valid
    (owns.modify delivery.id (keeps_recordAttempt attempt)) own webhook httpStatus
  rw [← recorded.alone] at failed
  refine ⟨recorded.trans failed.confined,
    congrArg (fun jobs => Outgoing.post delivery webhook :: jobs) failed.same, ?_⟩
  intro out sent
  obtain rfl | job := mem_cons.mp sent
  · exact ⟨own, endpoint⟩
  · exact failed.sent out job

theorem deliverWebhook_delivers (valid : tables.Valid) (owns : Owns client tables id webhookId)
    (environment : Environment) :
    Delivers client tables (deliverWebhook tables environment id webhookId)
      (deliverWebhook (tables.only client) environment id webhookId) := by
  have endpoint := owns.webhook valid
  have lookup := only_webhook? valid endpoint
  have mine := only_delivery? valid owns.clientId
  have owned := owns
  obtain ⟨delivery, found, own, rfl⟩ := owned
  obtain ⟨_, rfl⟩ := Tables.delivery?_some found
  have settles : ∀ change, Delivers client tables
      (tables.modifyDelivery delivery.id (LoggedDelivery.update change), [])
      ((tables.only client).modifyDelivery delivery.id (LoggedDelivery.update change), []) :=
    fun change =>
      ⟨confined_modifyDelivery valid owns.clientId (keeps_update change), rfl, by simp⟩
  simp only [deliverWebhook, mine, found, lookup]
  cases exists_ : tables.webhook? delivery.webhookId with
  | none => exact settles { status := .failed }
  | some webhook =>
    by_cases active : webhook.isActive = true
    · simp only [active, if_true]
      cases answered : environment.answer delivery.id with
      | none => exact failure_delivers valid owns own (endpoint webhook exists_) _ none
      | some httpStatus =>
        by_cases succeeded : isSuccess httpStatus = true
        · simp only [succeeded, if_true]
          have recorded := confined_modifyDelivery valid owns.clientId
            (keeps_recordAttempt ⟨delivery.row.attempts + 1, webhook.url, some httpStatus, true⟩)
          have updated := confined_modifyDelivery recorded.valid
            (owns.modify delivery.id (keeps_recordAttempt _)).clientId
            (keeps_update { status := .sent
                            httpStatus := some (some httpStatus)
                            attempts := some (delivery.row.attempts + 1) })
          rw [← recorded.alone] at updated
          refine ⟨recorded.trans updated, rfl, ?_⟩
          intro out sent
          rw [mem_singleton.mp sent]
          exact ⟨own, endpoint webhook exists_⟩
        · simp only [succeeded, if_false, Bool.false_eq_true]
          exact failure_delivers valid owns own (endpoint webhook exists_) _ (some httpStatus)
    · simp only [active, if_false, Bool.false_eq_true]
      exact settles { status := .failed }

/-- `deliverWebhook` changes rows of deliveries, one after the other. -/
theorem deliverWebhook_modifies (Property : Tables → Prop)
    (stable : ∀ tables id change, Keeps change → Property tables →
      Property (tables.modifyDelivery id change)) (holds : Property tables)
    (environment : Environment) (id : DeliveryId) (webhookId : WebhookId) :
    Property (deliverWebhook tables environment id webhookId).1 := by
  have fails : ∀ tables (delivery : LoggedDelivery) webhook httpStatus, Property tables →
      Property (handleFailure tables delivery webhook httpStatus).1 := by
    intro tables delivery webhook httpStatus holds
    simp only [handleFailure]
    split <;> exact stable _ _ _ (keeps_update _) holds
  have records : ∀ attempt, Property
      (tables.modifyDelivery id (LoggedDelivery.recordAttempt attempt)) :=
    fun attempt => stable _ _ _ (keeps_recordAttempt attempt) holds
  simp only [deliverWebhook]
  split
  · exact holds
  · split
    · exact stable _ _ _ (keeps_update _) holds
    · split
      · split
        · split
          · exact stable _ _ _ (keeps_update _) (records _)
          · exact fails _ _ _ _ (records _)
        · exact fails _ _ _ _ (records _)
      · exact stable _ _ _ (keeps_update _) holds

theorem Owns.deliverWebhook (owns : Owns client tables id webhookId) (environment : Environment)
    (delivered : DeliveryId) (endpoint : WebhookId) :
    Owns client (Notification.deliverWebhook tables environment delivered endpoint).1 id
      webhookId :=
  deliverWebhook_modifies (fun tables => Owns client tables id webhookId)
    (fun _ changed _ keeps owns => Owns.modify owns changed keeps) owns environment delivered
    endpoint

/-- A handler with and without the rows of other clients. -/
structure Agrees (client : ClientId) (before : Tables) (handled alone : Handled) : Prop where
  confined : Confined client before handled.tables alone.tables
  response : alone.response = handled.response
  same : alone.outgoing = handled.outgoing
  sent : ∀ out ∈ handled.outgoing, out.BelongsTo client

/-- A handler that only answers. -/
theorem agrees_of_reads (valid : tables.Valid) (response : Response) :
    Agrees client tables ⟨tables, response, []⟩ ⟨tables.only client, response, []⟩ :=
  ⟨.refl valid, rfl, rfl, by simp⟩

theorem updateWebhook_agrees (valid : tables.Valid) {id : WebhookId}
    (own : ∀ webhook, tables.webhook? id = some webhook → webhook.clientId = client)
    (updates : WebhookUpdates) :
    Agrees client tables (updateWebhook tables id updates)
      (updateWebhook (tables.only client) id updates) := by
  have lookup := only_webhook? valid own
  simp only [updateWebhook, lookup]
  cases found : tables.webhook? id with
  | none => exact agrees_of_reads valid _
  | some webhook =>
    have mine : (updates.apply webhook).clientId = client := own webhook found
    have duplicate : ((tables.only client).webhooks.any fun other =>
        other.id ≠ id && other.clientId = (updates.apply webhook).clientId &&
          other.url = (updates.apply webhook).url) =
        tables.webhooks.any fun other =>
          other.id ≠ id && other.clientId = (updates.apply webhook).clientId &&
            other.url = (updates.apply webhook).url := by
      simp only [Tables.only, Tables.restrict, any_filter, mine]
      congr 1
      ext other
      by_cases same : other.clientId = client <;> simp [same]
    simp only [duplicate]
    split
    · exact agrees_of_reads valid _
    · exact ⟨confined_modifyWebhook valid own updates, rfl, rfl, by simp⟩

theorem deleteWebhook_agrees (valid : tables.Valid) {id : WebhookId}
    (own : ∀ webhook, tables.webhook? id = some webhook → webhook.clientId = client) :
    Agrees client tables (deleteWebhook tables id) (deleteWebhook (tables.only client) id) := by
  have lookup := only_webhook? valid own
  simp only [deleteWebhook, lookup]
  cases found : tables.webhook? id with
  | none => exact agrees_of_reads valid _
  | some webhook => exact ⟨confined_removeWebhook valid own, rfl, rfl, by simp⟩

theorem testWebhook_agrees (valid : tables.Valid) {id : WebhookId}
    (own : ∀ webhook, tables.webhook? id = some webhook → webhook.clientId = client)
    (environment : Environment) :
    Agrees client tables (testWebhookFor tables environment id client)
      (testWebhookFor (tables.only client) environment id client) := by
  have lookup := only_webhook? valid own
  simp only [testWebhookFor, lookup]
  cases found : tables.webhook? id with
  | none => exact agrees_of_reads valid _
  | some webhook =>
    have mine := own webhook found
    dsimp only
    rw [if_neg (not_not_intro mine), if_neg (not_not_intro mine)]
    split
    · exact agrees_of_reads valid _
    · obtain ⟨listed, _⟩ := Tables.webhook?_some found
      generalize drafted : Draft.mk webhook.id webhook.clientId "webhook.test" "" 1 false none =
        draft
      have inserted : Confined client tables (tables.insertDelivery draft)
          ((tables.only client).insertDelivery draft) := by
        subst drafted
        exact confined_insertDelivery valid listed rfl rfl mine
      have created : Owns client (tables.insertDelivery draft) (tables.created draft).id
          webhook.id := by
        have member : tables.created draft ∈ (tables.insertDelivery draft).deliveries :=
          mem_append_right _ (mem_singleton_self _)
        refine ⟨_, inserted.valid.delivery?_of_mem member, ?_, ?_⟩
        · subst drafted
          exact mine
        · subst drafted
          rfl
      have recorded := confined_modifyDelivery inserted.valid created.clientId
        (keeps_recordAttempt ⟨1, webhook.url, environment.answer (tables.created draft).id,
          (environment.answer (tables.created draft).id).any isSuccess⟩)
      have updated := confined_modifyDelivery recorded.valid
        (created.modify _ (keeps_recordAttempt _)).clientId
        (keeps_update
          { status := if (environment.answer (tables.created draft).id).any isSuccess then .sent
              else .failed
            httpStatus := some (environment.answer (tables.created draft).id)
            attempts := some 1 })
      rw [← recorded.alone, ← inserted.alone] at updated
      rw [← inserted.alone] at recorded
      refine ⟨(inserted.trans recorded).trans updated, rfl, rfl, ?_⟩
      intro out sent
      rw [mem_singleton.mp sent]
      refine ⟨?_, mine⟩
      subst drafted
      exact mine

theorem only_getDeliveryDetail (valid : tables.Valid)
    (own : ∀ delivery, tables.delivery? id = some delivery → delivery.clientId = client) :
    getDeliveryDetail (tables.only client) id = getDeliveryDetail tables id := by
  simp only [getDeliveryDetail, only_delivery? valid own]
  apply Option.map_congr
  intro delivery found
  have owns : Owns client tables id delivery.webhookId := ⟨delivery, found, own delivery found, rfl⟩
  rw [only_webhook? valid (owns.webhook valid)]

theorem retryDelivery_agrees (valid : tables.Valid)
    (own : ∀ delivery, tables.delivery? id = some delivery → delivery.clientId = client)
    (environment : Environment) :
    Agrees client tables (ClientCall.handle (.retryDelivery id) client environment tables)
      (ClientCall.handle (.retryDelivery id) client environment (tables.only client)) := by
  simp only [ClientCall.handle, only_getDeliveryDetail valid own]
  cases found : tables.delivery? id with
  | none =>
    simp only [getDeliveryDetail, found, Option.map_none]
    exact agrees_of_reads valid _
  | some delivery =>
    have owns : Owns client tables id delivery.webhookId :=
      ⟨delivery, found, own delivery found, rfl⟩
    have delivers := deliverWebhook_delivers valid owns environment
    have later := owns.deliverWebhook environment id delivery.webhookId
    have detail := only_getDeliveryDetail delivers.confined.valid later.clientId
    rw [← delivers.confined.alone] at detail
    have webhookId : ∀ detail, getDeliveryDetail tables id = some detail →
        detail.delivery.webhookId = delivery.webhookId := by
      intro detail shown
      simp only [getDeliveryDetail, found, Option.map_some, Option.some.injEq] at shown
      rw [← shown]
      rfl
    cases shown : getDeliveryDetail tables id with
    | none => simp [getDeliveryDetail, found] at shown
    | some first =>
      simp only [webhookId first shown]
      exact ⟨delivers.confined, congrArg Response.detail detail, delivers.same, delivers.sent⟩

theorem retryEach_agrees (environment : Environment) {owned : List (DeliveryId × WebhookId)}
    (ids : List DeliveryId) (valid : tables.Valid)
    (owns : ∀ pair ∈ owned, Owns client tables pair.1 pair.2) :
    Confined client tables (retryEach environment owned ids tables).1
        (retryEach environment owned ids (tables.only client)).1 ∧
      (retryEach environment owned ids (tables.only client)).2 =
        (retryEach environment owned ids tables).2 ∧
      ∀ out ∈ (retryEach environment owned ids tables).2.2, out.BelongsTo client := by
  induction ids generalizing tables with
  | nil => exact ⟨.refl valid, rfl, by simp [retryEach]⟩
  | cons id rest ih =>
    cases found : owned.find? fun pair => pair.1 = id with
    | none =>
      obtain ⟨confined, same, sent⟩ := ih valid owns
      simp only [retryEach, found]
      exact ⟨confined, congrArg (fun rest => ((id, false) :: rest.1, rest.2)) same, sent⟩
    | some pair =>
      have named : pair.1 = id := by
        have matched := find?_some found
        exact of_decide_eq_true matched
      have mine := owns pair (mem_of_find?_eq_some found)
      rw [named] at mine
      have delivers := deliverWebhook_delivers valid mine environment
      have later : ∀ other ∈ owned,
          Owns client (deliverWebhook tables environment id pair.2).1 other.1 other.2 :=
        fun other listed => (owns other listed).deliverWebhook environment id pair.2
      obtain ⟨confined, same, sent⟩ := ih delivers.confined.valid later
      simp only [retryEach, found]
      rw [← delivers.confined.alone] at confined same
      refine ⟨delivers.confined.trans confined, ?_, ?_⟩
      · rw [delivers.same]
        exact congrArg (fun rest => ((id, true) :: rest.1,
          (deliverWebhook tables environment id pair.2).2 ++ rest.2)) same
      · intro out listed
        obtain now | after := mem_append.mp listed
        · exact delivers.sent out now
        · exact sent out after

theorem retryDeliveriesBulk_agrees (valid : tables.Valid) (environment : Environment)
    (ids : List DeliveryId) :
    Agrees client tables (retryDeliveriesBulk tables environment client ids)
      (retryDeliveriesBulk (tables.only client) environment client ids) := by
  have found : ((tables.only client).deliveries.filter fun delivery =>
      (ids.take 100).contains delivery.id && delivery.clientId = client) =
        tables.deliveries.filter fun delivery =>
          (ids.take 100).contains delivery.id && delivery.clientId = client := by
    simp only [Tables.only, Tables.restrict, filter_filter]
    apply filter_congr
    intro delivery _
    by_cases own : delivery.clientId = client <;> simp [own]
  simp only [retryDeliveriesBulk, found]
  generalize owning : ((tables.deliveries.filter fun delivery =>
    (ids.take 100).contains delivery.id && delivery.clientId = client).map fun delivery =>
      (delivery.id, delivery.webhookId)) = owned
  have owns : ∀ pair ∈ owned, Owns client tables pair.1 pair.2 := by
    intro pair listed
    subst owning
    obtain ⟨delivery, kept, rfl⟩ := mem_map.mp listed
    obtain ⟨inside, mine⟩ := mem_filter.mp kept
    refine ⟨delivery, valid.delivery?_of_mem inside, ?_, rfl⟩
    exact of_decide_eq_true (Bool.and_eq_true_iff.mp mine).2
  obtain ⟨confined, same, sent⟩ := retryEach_agrees environment (ids.take 100) valid owns
  exact ⟨confined, congrArg (fun rest => Response.retried rest.1) same,
    congrArg Prod.snd same, sent⟩

theorem resendDelivery_agrees (valid : tables.Valid)
    (own : ∀ delivery, tables.delivery? id = some delivery → delivery.clientId = client)
    (environment : Environment) :
    Agrees client tables (resendDeliveryFor tables environment id client)
      (resendDeliveryFor (tables.only client) environment id client) := by
  simp only [resendDeliveryFor, only_delivery? valid own]
  cases found : tables.delivery? id with
  | none => exact agrees_of_reads valid _
  | some delivery =>
    have mine := own delivery found
    dsimp only
    rw [if_neg (not_not_intro mine), if_neg (not_not_intro mine)]
    split
    · obtain ⟨listed, _⟩ := Tables.delivery?_some found
      obtain ⟨webhook, member, named, same⟩ := valid.owned delivery listed
      refine ⟨confined_insertDelivery valid member named same mine, rfl, rfl, ?_⟩
      intro out sent
      rw [mem_singleton.mp sent]
      exact mine
    · exact agrees_of_reads valid _

/-- Deliveries of one webhook have one client. -/
theorem clientId_of_isListed (valid : tables.Valid) {status : Option String}
    {first second : LoggedDelivery} (inFirst : first ∈ tables.deliveries)
    (inSecond : second ∈ tables.deliveries) (listedFirst : isListed webhookId status first = true)
    (listedSecond : isListed webhookId status second = true) :
    first.clientId = second.clientId := by
  have namedFirst := of_decide_eq_true (Bool.and_eq_true_iff.mp listedFirst).1
  have namedSecond := of_decide_eq_true (Bool.and_eq_true_iff.mp listedSecond).1
  obtain ⟨left, inLeft, idLeft, ownerLeft⟩ := valid.owned first inFirst
  obtain ⟨right, inRight, idRight, ownerRight⟩ := valid.owned second inSecond
  have same : left.id = right.id := by rw [idLeft, idRight, namedFirst, namedSecond]
  rw [← ownerLeft, ← ownerRight, valid.webhook_eq inLeft inRight same]

theorem listDeliveries_agrees {status : Option String}
    (own : ∀ delivery ∈ tables.deliveries, isListed webhookId status delivery = true →
      delivery.clientId = client) :
    listDeliveries (tables.only client) webhookId status =
      listDeliveries tables webhookId status := by
  simp only [listDeliveries, Tables.only, Tables.restrict, filter_filter]
  congr 3
  apply filter_congr
  intro delivery listed
  by_cases shown : isListed webhookId status delivery = true
  · simp [shown, own delivery listed shown]
  · simp [shown]

theorem own_of_any {Row : Type} {owner : Row → ClientId} {found : Option Row}
    (none : found.any (fun row => owner row ≠ client) = false) :
    ∀ row, found = some row → owner row = client := by
  rintro row rfl
  simpa using none

/-- A call that names no row of another client. -/
theorem handle_agrees (valid : tables.Valid) {call : ClientCall} (environment : Environment)
    (keeps : call.trespasses client tables = false) :
    Agrees client tables (call.handle client environment tables)
      (call.handle client environment (tables.only client)) := by
  cases call with
  | updateWebhook id updates =>
    exact updateWebhook_agrees valid (own_of_any keeps) updates
  | deleteWebhook id =>
    exact deleteWebhook_agrees valid (own_of_any keeps)
  | testWebhook id =>
    exact testWebhook_agrees valid (own_of_any keeps) environment
  | listDeliveries webhookId status =>
    simp only [ClientCall.handle]
    rw [listDeliveries_agrees (by simpa [ClientCall.trespasses] using keeps)]
    exact agrees_of_reads valid _
  | getDeliveryDetail id =>
    simp only [ClientCall.handle]
    rw [only_getDeliveryDetail valid (own_of_any keeps)]
    split <;> exact agrees_of_reads valid _
  | retryDelivery id =>
    exact retryDelivery_agrees valid (own_of_any keeps) environment
  | resendDelivery id =>
    exact resendDelivery_agrees valid (own_of_any keeps) environment
  | retryDeliveriesBulk ids =>
    simp only [ClientCall.handle]
    split
    · exact agrees_of_reads valid _
    · exact retryDeliveriesBulk_agrees valid environment ids

end Handlers

/-! ## Calls that name a row of another client -/

section Trespass

variable {tables : Tables} {client : ClientId} {environment : Environment}

theorem only_webhook?_foreign (valid : tables.Valid) {id : WebhookId} {webhook : Webhook}
    (found : tables.webhook? id = some webhook) (foreign : webhook.clientId ≠ client) :
    (tables.only client).webhook? id = none := by
  rw [Tables.only, Tables.webhook?_restrict valid, found]
  simp [Option.filter, foreign]

theorem only_delivery?_foreign (valid : tables.Valid) {id : DeliveryId}
    {delivery : LoggedDelivery} (found : tables.delivery? id = some delivery)
    (foreign : delivery.clientId ≠ client) : (tables.only client).delivery? id = none := by
  rw [Tables.only, Tables.delivery?_restrict valid, found]
  simp [Option.filter, foreign]

/-- The two texts of a row that is not found differ. -/
theorem notFound_text (first : String) :
    first ++ " not found for this client" ≠ first ++ " not found" := by
  intro same
  have lengths := congrArg String.length same
  simp only [String.length_append, Nat.add_left_cancel_iff] at lengths
  exact absurd lengths (by decide)

/-- A call that names a row of another client is answered differently without that row. -/
theorem response_of_trespass (valid : tables.Valid) {call : ClientCall}
    (environment : Environment) (trespasses : call.trespasses client tables = true) :
    (call.handle client environment tables).response ≠
      (call.handle client environment (tables.only client)).response := by
  cases call with
  | updateWebhook id updates =>
    obtain ⟨webhook, found, foreign⟩ := (Option.any_eq_true _ _).mp trespasses
    have absent := only_webhook?_foreign valid found (of_decide_eq_true foreign)
    simp only [ClientCall.handle, updateWebhook, found, absent]
    split <;> simp
  | deleteWebhook id =>
    obtain ⟨webhook, found, foreign⟩ := (Option.any_eq_true _ _).mp trespasses
    have absent := only_webhook?_foreign valid found (of_decide_eq_true foreign)
    simp [ClientCall.handle, deleteWebhook, found, absent]
  | testWebhook id =>
    obtain ⟨webhook, found, foreign⟩ := (Option.any_eq_true _ _).mp trespasses
    have other := of_decide_eq_true foreign
    have absent := only_webhook?_foreign valid found other
    simp only [ClientCall.handle, testWebhookFor, found, absent]
    rw [if_pos other]
    intro same
    exact notFound_text _ (Response.notFound.inj same)
  | listDeliveries webhookId status =>
    obtain ⟨delivery, listed, shown⟩ := any_eq_true.mp trespasses
    obtain ⟨isListed, foreign⟩ := Bool.and_eq_true_iff.mp shown
    have other := of_decide_eq_true foreign
    have none : (tables.only client).deliveries.filter (Notification.isListed webhookId status) =
        [] := by
      simp only [Tables.only, Tables.restrict, filter_filter]
      apply filter_eq_nil_iff.mpr
      intro mine inside both
      obtain ⟨also, own⟩ := Bool.and_eq_true_iff.mp both
      apply other
      rw [clientId_of_isListed valid listed inside isListed also]
      exact of_decide_eq_true own
    have some_ : tables.deliveries.filter (Notification.isListed webhookId status) ≠ [] :=
      ne_nil_of_mem (mem_filter.mpr ⟨listed, isListed⟩)
    simp only [ClientCall.handle, listDeliveries, none]
    intro same
    simp [some_] at same
  | getDeliveryDetail id =>
    obtain ⟨delivery, found, foreign⟩ := (Option.any_eq_true _ _).mp trespasses
    have absent := only_delivery?_foreign valid found (of_decide_eq_true foreign)
    simp [ClientCall.handle, getDeliveryDetail, found, absent]
  | retryDelivery id =>
    obtain ⟨delivery, found, foreign⟩ := (Option.any_eq_true _ _).mp trespasses
    have absent := only_delivery?_foreign valid found (of_decide_eq_true foreign)
    simp [ClientCall.handle, getDeliveryDetail, found, absent]
  | resendDelivery id =>
    obtain ⟨delivery, found, foreign⟩ := (Option.any_eq_true _ _).mp trespasses
    have other := of_decide_eq_true foreign
    have absent := only_delivery?_foreign valid found other
    simp only [ClientCall.handle, resendDeliveryFor, found, absent]
    rw [if_pos other]
    intro same
    exact notFound_text _ (Response.notFound.inj same)
  | retryDeliveriesBulk ids => cases trespasses

end Trespass

/-! ## Sequences of calls -/

section Sequences

variable {tables : Tables} {client : ClientId}

/-- Calls on reachable tables keep the identifiers unique and the owners in place. -/
theorem handle_valid (valid : tables.Valid) (call : ClientCall) (caller : ClientId)
    (environment : Environment) : (call.handle caller environment tables).tables.Valid := by
  have delivers : ∀ tables : Tables, tables.Valid → ∀ id webhookId,
      (deliverWebhook tables environment id webhookId).1.Valid :=
    fun tables valid id webhookId => deliverWebhook_modifies Tables.Valid
      (fun _ changed _ keeps valid => Tables.Valid.modifyDelivery valid changed keeps) valid
      environment id webhookId
  cases call with
  | updateWebhook id updates =>
    simp only [ClientCall.handle, updateWebhook]
    split
    · exact valid
    · split
      · exact valid
      · exact valid.modifyWebhook id updates
  | deleteWebhook id =>
    simp only [ClientCall.handle, deleteWebhook]
    split
    · exact valid
    · exact valid.removeWebhook id
  | testWebhook id =>
    simp only [ClientCall.handle, testWebhookFor]
    split
    · exact valid
    · rename_i webhook found
      split
      · exact valid
      · split
        · exact valid
        · obtain ⟨listed, _⟩ := Tables.webhook?_some found
          apply Tables.Valid.modifyDelivery _ _ (keeps_update _)
          apply Tables.Valid.modifyDelivery _ _ (keeps_recordAttempt _)
          exact valid.insertDelivery listed rfl rfl
  | listDeliveries webhookId status => exact valid
  | getDeliveryDetail id =>
    simp only [ClientCall.handle]
    split <;> exact valid
  | retryDelivery id =>
    simp only [ClientCall.handle]
    split
    · exact valid
    · exact delivers tables valid _ _
  | resendDelivery id =>
    simp only [ClientCall.handle, resendDeliveryFor]
    split
    · exact valid
    · rename_i delivery found
      split
      · exact valid
      · split
        · obtain ⟨listed, _⟩ := Tables.delivery?_some found
          obtain ⟨webhook, member, named, same⟩ := valid.owned delivery listed
          exact valid.insertDelivery member named same
        · exact valid
  | retryDeliveriesBulk ids =>
    simp only [ClientCall.handle]
    split
    · exact valid
    · simp only [retryDeliveriesBulk]
      generalize ids.take 100 = capped
      generalize ((tables.deliveries.filter fun delivery =>
        capped.contains delivery.id && delivery.clientId = caller).map fun delivery =>
          (delivery.id, delivery.webhookId)) = owned
      induction capped generalizing tables with
      | nil => exact valid
      | cons id rest ih =>
        simp only [retryEach]
        split
        · exact ih valid
        · exact ih (delivers tables valid _ _)

theorem tables_valid (reachable : webhookTables.Reachable Unrestricted tables) : tables.Valid := by
  apply reachable.invariant
  · rintro _ rfl
    constructor <;> simp
  · intro tables action next valid _ stepped
    cases action with
    | createWebhook webhook =>
      simp only [webhookTables] at stepped
      split at stepped
      · cases stepped
      · rename_i fresh
        cases stepped
        constructor
        · rw [map_append]
          apply List.Nodup.append valid.webhooks (nodup_singleton _)
          intro id old new
          obtain ⟨other, inside, rfl⟩ := mem_map.mp old
          apply fresh
          apply any_eq_true.mpr
          exact ⟨other, inside, by simp [mem_singleton.mp new]⟩
        · exact valid.deliveries
        · exact valid.numbered
        · intro delivery listed
          obtain ⟨owner, inside, same⟩ := valid.owned delivery listed
          exact ⟨owner, mem_append_left _ inside, same⟩
    | createDelivery event webhook =>
      simp only [webhookTables] at stepped
      split at stepped
      · rename_i matched
        cases stepped
        have listed := (mem_filter.mp (contains_iff_mem.mp matched)).1
        obtain ⟨inside, active⟩ := mem_filter.mp listed
        have owner := of_decide_eq_true (Bool.and_eq_true_iff.mp active).1
        exact valid.insertDelivery inside rfl owner
      · cases stepped
    | deliverWebhook id webhookId environment =>
      cases stepped
      exact deliverWebhook_modifies Tables.Valid
        (fun _ changed _ keeps valid => Tables.Valid.modifyDelivery valid changed keeps) valid
        environment id webhookId
    | resend id maxAttempts =>
      cases stepped
      exact valid.modifyDelivery id (keeps_update _)
    | call caller request =>
      cases stepped
      exact handle_valid valid request.1 caller request.2

/-- One call first. -/
theorem isolated_cons (valid : tables.Valid) {call : ClientCall} {environment : Environment}
    {rest : List Request} (keeps : call.trespasses client tables = false) :
    Isolated client tables ((call, environment) :: rest) ↔
      Isolated client (call.handle client environment tables).tables rest := by
  have agrees := handle_agrees valid environment keeps
  have others := agrees.confined.others
  constructor
  · rintro ⟨unchanged, unsent, independent⟩
    simp only [handleAll, agrees.confined.alone, List.cons.injEq] at independent
    exact ⟨unchanged.trans others.symm,
      fun out sent => unsent out (mem_append_right _ sent), independent.2⟩
  · rintro ⟨unchanged, unsent, independent⟩
    refine ⟨unchanged.trans others, ?_, ?_⟩
    · intro out sent
      obtain now | later := mem_append.mp sent
      · exact agrees.sent out now
      · exact unsent out later
    · simp only [handleAll, agrees.confined.alone, agrees.response, independent]

theorem isolated_iff_of_valid (valid : tables.Valid) (client : ClientId)
    (requests : List Request) :
    Isolated client tables requests ↔ keepsToOwn client requests tables = true := by
  induction requests generalizing tables with
  | nil => exact ⟨fun _ => rfl, fun _ => ⟨rfl, by simp [handleAll], rfl⟩⟩
  | cons request rest ih =>
    obtain ⟨call, environment⟩ := request
    have later := ih (handle_valid valid call client environment)
    cases trespasses : call.trespasses client tables with
    | false =>
      rw [isolated_cons valid trespasses, later]
      simp [keepsToOwn, trespasses]
    | true =>
      simp only [keepsToOwn, trespasses, Bool.not_true, Bool.false_and, Bool.false_eq_true,
        iff_false]
      rintro ⟨_, _, independent⟩
      exact response_of_trespass valid environment trespasses (List.cons.inj independent).1

/-- The calls of a client are isolated exactly when none of them names a row of another client. -/
theorem calls_isolated_iff (reachable : webhookTables.Reachable Unrestricted tables)
    (client : ClientId) (requests : List Request) :
    Isolated client tables requests ↔ keepsToOwn client requests tables = true :=
  isolated_iff_of_valid (tables_valid reachable) client requests

end Sequences

/-! ## Two clients -/

/-- A webhook for every event. -/
def webhookOf (id : WebhookId) (client : ClientId) : Webhook where
  id := id
  clientId := client
  projectId := 1
  url := "https://example.com/hook"
  events := ["*"]
  isActive := true
  label := none
  retry := ⟨5, [], []⟩

/-- Clients 1 and 2 have a webhook each, and a delivery of client 1 waits. -/
def sharedTables : List TableAction :=
  [.createWebhook (webhookOf 1 1), .createWebhook (webhookOf 2 2),
    .createDelivery ⟨1, "deposit.confirmed", "x"⟩ (webhookOf 1 1)]

/-- Every endpoint answers with success. -/
def answering : Environment := ⟨fun _ => some 200, true, false⟩

theorem calls_isolated_iff_sample :
    ∃ tables : Tables, tables.deliveries.length = 1 ∧
      Isolated 1 tables [(.retryDelivery 1, answering), (.testWebhook 1, answering)] := by
  obtain ⟨tables, reachable, passed⟩ :=
    @TransitionSystem.exists_reachable_of_run _ _ webhookTables Unrestricted _ ⟨[], [], 1⟩ rfl
      sharedTables
      (fun tables => tables.deliveries.length = 1 && keepsToOwn 1
        [(.retryDelivery 1, answering), (.testWebhook 1, answering)] tables)
      (by decide +kernel)
  obtain ⟨one, keeps⟩ := Bool.and_eq_true_iff.mp passed
  exact ⟨tables, of_decide_eq_true one, (calls_isolated_iff reachable 1 _).mpr keeps⟩

/-- Client 2 deletes the webhook of client 1. -/
theorem foreign_webhook_deleted :
    ∃ tables, webhookTables.Reachable Unrestricted tables ∧
      ¬ Isolated 2 tables [(.deleteWebhook 1, answering)] := by
  obtain ⟨tables, reachable, passed⟩ := @TransitionSystem.exists_reachable _ _ webhookTables
    Unrestricted _ ⟨[], [], 1⟩ (fun tables => (handleAll 2 [(.deleteWebhook 1, answering)]
    tables).1.others 2 ≠ tables.others 2) _ rfl sharedTables (by decide +kernel)
  exact ⟨tables, reachable, fun isolated => passed isolated.unchanged⟩

end CryptoVaultHub.Notification
