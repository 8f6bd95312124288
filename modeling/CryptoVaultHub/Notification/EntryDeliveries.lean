import CryptoVaultHub.Notification.StreamEntries

/-!
# The deliveries of an entry

An entry that was handled in part and failed is handled again from its first webhook, and a recovery
can claim an entry that is still being handled: both make a second delivery for a webhook. Where a
batch goes on once it has made a delivery, and no entry is claimed that a batch holds, each
acknowledged entry has one delivery for each webhook that matched it.
-/

namespace CryptoVaultHub.Notification

open TransitionSystem List Option

/-! ## The property -/

/-- The webhooks that have their delivery for the entry that a batch handles. -/
def EntryPoint.made : EntryPoint → List WebhookId
  | .findConfig _ _ | .findProject _ | .findMatching _ => []
  | .create _ made _ _ | .add _ made _ | .xack made => made

/-- The webhooks that still are to get theirs. -/
def EntryPoint.planned : EntryPoint → List Webhook
  | .findConfig _ _ | .findProject _ | .findMatching _ | .xack _ => []
  | .create _ _ webhook later => webhook :: later
  | .add _ _ later => later

/-- The entries that a batch handles or will handle. -/
def Batch.held (batch : Batch) : List EntryId := batch.entry.id :: batch.rest.map StreamEntry.id

/-- Whether the entry stays without a delivery, or its handling goes on, when a statement ends so. -/
def Batch.permits (batch : Batch) (ending : Ending) : Bool :=
  match batch.point with
  | .findConfig _ _ | .findProject _ | .findMatching _ => true
  | .create _ made _ _ => ending = .done || (ending = .failed && made = [])
  | .add _ _ _ => ending = .done
  | .xack made => ending ≠ .failed || made = []

/-- No entry is claimed that some batch holds, and a batch that has made a delivery for its entry
neither fails nor stops before the entry is acknowledged. -/
def Consumers.undisturbed (state : Consumers) : PoolAction (Input Unit) EntryStart → Bool
  | .launch (.xclaim ids) => state.every fun _ batch => batch.held.all fun id => !ids.contains id
  | .launch _ => true
  | .advance pid input => (state.process? pid).all fun batch => batch.permits input.ending
  | .crash pid => (state.process? pid).all fun batch => batch.point.made = []

@[reducible] def Consumers.Undisturbed (state : Consumers) (action : PoolAction (Input Unit) EntryStart) :
    Prop :=
  Consumers.undisturbed state action = true

/-! ## The outline -/

/-- Entries have their own identifiers, an entry that nobody read has no delivery, and an
acknowledged one, which is neither unread nor pending, has those of its webhooks. -/
structure Streams.Kept (streams : Streams) : Prop where
  webhooks : (streams.webhooks.map Webhook.id).Nodup
  fresh : ∀ entry ∈ streams.unread ++ streams.pending, entry.id < streams.nextEntry
  distinct : ((streams.unread ++ streams.pending).map StreamEntry.id).Nodup
  known : ∀ delivery ∈ streams.deliveries, delivery.entryId < streams.nextEntry
  unread : ∀ entry ∈ streams.unread, ∀ webhookId, streams.count entry.id webhookId = 0
  gone : ∀ acknowledgement ∈ streams.acknowledged,
    acknowledgement.entryId < streams.nextEntry ∧
      ∀ entry ∈ streams.unread ++ streams.pending, entry.id ≠ acknowledgement.entryId
  delivered : ∀ acknowledgement ∈ streams.acknowledged, ∀ webhookId,
    streams.count acknowledgement.entryId webhookId =
      if webhookId ∈ acknowledgement.matched then 1 else 0

/-- A batch holds pending entries, each once; its entry has the deliveries that it has made, and
those behind it have none. -/
structure Batch.Relies (streams : Streams) (batch : Batch) : Prop where
  held : ∀ id ∈ batch.held, ∃ entry ∈ streams.pending, entry.id = id
  distinct : batch.held.Nodup
  made : ∀ webhookId, streams.count batch.entry.id webhookId =
    if webhookId ∈ batch.point.made then 1 else 0
  planned : (batch.point.made ++ batch.point.planned.map Webhook.id).Nodup
  rest : ∀ entry ∈ batch.rest, ∀ webhookId, streams.count entry.id webhookId = 0

/-- A pending entry with a delivery is in the hands of a batch. -/
def Consumers.Handled (state : Consumers) : Prop :=
  ∀ entry ∈ state.shared.pending, ∀ webhookId, state.shared.count entry.id webhookId ≠ 0 →
    state.Runs fun batch => entry.id ∈ batch.held

/-! ## What a step can do -/

/-- What a statement that ends as permitted does to the entry of its batch. -/
inductive Batch.Moves (streams : Streams) (batch : Batch) : Streams → Option Batch → Prop where
  | goes {point : EntryPoint} (made : point.made = batch.point.made)
      (planned : (point.made ++ point.planned.map Webhook.id).Nodup) :
      Moves streams batch streams (some { batch with point := point })
  | gives (none : batch.point.made = []) : Moves streams batch streams (handleNext batch.rest)
  | creates {point : EntryPoint} {delivery : EntryDelivery} {webhook : Webhook}
      {later : List Webhook} (entry : delivery.entryId = batch.entry.id)
      (webhookId : delivery.webhookId = webhook.id)
      (planned : batch.point.planned = webhook :: later)
      (made : point.made = batch.point.made ++ [webhook.id]) (next : point.planned = later) :
      Moves streams batch ((EntryEffect.insert delivery).apply streams)
        (some { batch with point := point })
  | acknowledges (planned : batch.point.planned = []) :
      Moves streams batch ((EntryEffect.xack ⟨batch.entry.id, batch.point.made⟩).apply streams)
        (handleNext batch.rest)

theorem EntryPoint.made_of (clientId : ClientId) (made : List WebhookId)
    (webhooks : List Webhook) : (EntryPoint.of clientId made webhooks).made = made := by
  cases webhooks <;> rfl

theorem EntryPoint.planned_of (clientId : ClientId) (made : List WebhookId)
    (webhooks : List Webhook) : (EntryPoint.of clientId made webhooks).planned = webhooks := by
  cases webhooks <;> rfl

theorem nodup_findMatchingWebhooks {webhooks : List Webhook}
    (distinct : (webhooks.map Webhook.id).Nodup) (clientId : ClientId) (eventType : String) :
    ((findMatchingWebhooks webhooks clientId eventType).map Webhook.id).Nodup := by
  have shorter := (filter_sublist.trans filter_sublist :
    (findMatchingWebhooks webhooks clientId eventType).Sublist webhooks)
  exact distinct.sublist (shorter.map Webhook.id)

variable {streams after : Streams} {batch : Batch} {next : Option Batch} {ending : Ending}

theorem Batch.perform_moves (kept : streams.Kept) (relies : batch.Relies streams)
    (permitted : batch.permits ending = true)
    (performed : (batch.statement streams ()).perform streams ending = (after, next)) :
    batch.Moves streams after next := by
  obtain ⟨entry, point, rest⟩ := batch
  cases point with
  | findConfig projectId chainId =>
    obtain ⟨rfl, ⟨_, rfl⟩ | ⟨_, rfl⟩⟩ | ⟨_, rfl, rfl⟩ := Statement.perform_cases performed
    · simp only [Batch.statement, EntryPoint.step]
      cases after.config? projectId chainId with
      | none => exact .goes rfl (by simp [EntryPoint.made, EntryPoint.planned])
      | some config =>
        by_cases enabled : config.webhookEnabled = true
        · simp only [enabled, if_true]
          exact .goes rfl (by simp [EntryPoint.made, EntryPoint.planned])
        · simp only [enabled, if_false, Bool.false_eq_true]
          exact .goes rfl (by simp [EntryPoint.made, EntryPoint.planned])
    · exact .gives rfl
    · exact .gives rfl
  | findProject projectId =>
    obtain ⟨rfl, ⟨_, rfl⟩ | ⟨_, rfl⟩⟩ | ⟨_, rfl, rfl⟩ := Statement.perform_cases performed
    · simp only [Batch.statement, EntryPoint.step]
      cases after.clientId? projectId with
      | none => exact .goes rfl (by simp [EntryPoint.made, EntryPoint.planned])
      | some clientId => exact .goes rfl (by simp [EntryPoint.made, EntryPoint.planned])
    · exact .gives rfl
    · exact .gives rfl
  | findMatching clientId =>
    obtain ⟨rfl, ⟨_, rfl⟩ | ⟨_, rfl⟩⟩ | ⟨_, rfl, rfl⟩ := Statement.perform_cases performed
    · apply Batch.Moves.goes
      · exact EntryPoint.made_of clientId [] _
      · rw [EntryPoint.made_of, EntryPoint.planned_of]
        exact nodup_findMatchingWebhooks kept.webhooks clientId entry.eventType
    · exact .gives rfl
    · exact .gives rfl
  | create clientId made webhook later =>
    obtain ⟨rfl, ⟨_, rfl⟩ | ⟨rfl, _⟩⟩ | ⟨rfl, rfl, rfl⟩ := Statement.perform_cases performed
    · exact .creates rfl rfl rfl rfl rfl
    · simp [Batch.permits] at permitted
    · exact .gives (by simpa [Batch.permits, EntryPoint.made] using permitted)
  | add clientId made later =>
    obtain ⟨rfl, ⟨_, rfl⟩ | ⟨rfl, _⟩⟩ | ⟨rfl, _⟩ := Statement.perform_cases performed
    · apply Batch.Moves.goes
      · exact EntryPoint.made_of clientId made later
      · rw [EntryPoint.made_of, EntryPoint.planned_of]
        exact relies.planned
    · simp [Batch.permits] at permitted
    · simp [Batch.permits] at permitted
  | xack made =>
    obtain ⟨rfl, ⟨_, rfl⟩ | ⟨_, rfl⟩⟩ | ⟨rfl, rfl, rfl⟩ := Statement.perform_cases performed
    · exact .acknowledges rfl
    · exact .acknowledges rfl
    · exact .gives (by simpa [Batch.permits, EntryPoint.made] using permitted)

/-! ## Entries -/

theorem Streams.count_insert (streams : Streams) (delivery : EntryDelivery) (entryId : EntryId)
    (webhookId : WebhookId) :
    ((EntryEffect.insert delivery).apply streams).count entryId webhookId =
      streams.count entryId webhookId +
        if delivery.entryId = entryId ∧ delivery.webhookId = webhookId then 1 else 0 := by
  simp [count, EntryEffect.apply, countP_append, countP_cons]

theorem Streams.count_insert_of_ne (streams : Streams) {delivery : EntryDelivery}
    {entryId : EntryId} (other : delivery.entryId ≠ entryId) (webhookId : WebhookId) :
    ((EntryEffect.insert delivery).apply streams).count entryId webhookId =
      streams.count entryId webhookId := by
  simp [count_insert, other]

theorem Streams.Kept.apart (kept : streams.Kept) {first second : StreamEntry}
    (unread : first ∈ streams.unread) (pending : second ∈ streams.pending) :
    first.id ≠ second.id := by
  have distinct := kept.distinct
  rw [map_append] at distinct
  intro same
  exact disjoint_of_nodup_append distinct (mem_map_of_mem unread)
    (same ▸ mem_map_of_mem pending)

/-- A delivery for an entry that is pending. -/
theorem Streams.Kept.insert (kept : streams.Kept) {delivery : EntryDelivery} {entry : StreamEntry}
    (pending : entry ∈ streams.pending) (same : delivery.entryId = entry.id) :
    ((EntryEffect.insert delivery).apply streams).Kept where
  webhooks := kept.webhooks
  fresh := kept.fresh
  distinct := kept.distinct
  known other listed := by
    obtain old | new := mem_append.mp listed
    · exact kept.known other old
    · rw [mem_singleton.mp new, same]
      exact kept.fresh entry (mem_append_right _ pending)
  unread other listed webhookId := by
    rw [Streams.count_insert_of_ne]
    · exact kept.unread other listed webhookId
    · rw [same]
      exact (kept.apart listed pending).symm
  gone := kept.gone
  delivered acknowledgement listed webhookId := by
    rw [Streams.count_insert_of_ne]
    · exact kept.delivered acknowledgement listed webhookId
    · rw [same]
      exact (kept.gone acknowledgement listed).2 entry (mem_append_right _ pending)

/-- The streams after an XACK of a pending entry. -/
theorem xack_of_pending {acknowledgement : Acknowledgement} {entry : StreamEntry}
    (pending : entry ∈ streams.pending) (same : entry.id = acknowledgement.entryId) :
    (EntryEffect.xack acknowledgement).apply streams =
      { streams with
        pending := streams.pending.filter fun entry => entry.id ≠ acknowledgement.entryId
        acknowledged := streams.acknowledged ++ [acknowledgement] } := by
  have found : (streams.pending.any fun entry => entry.id = acknowledgement.entryId) = true :=
    any_eq_true.mpr ⟨entry, pending, decide_eq_true same⟩
  simp [EntryEffect.apply, found]

theorem Streams.Kept.xack (kept : streams.Kept) {acknowledgement : Acknowledgement}
    {entry : StreamEntry} (pending : entry ∈ streams.pending)
    (same : entry.id = acknowledgement.entryId)
    (delivered : ∀ webhookId, streams.count acknowledgement.entryId webhookId =
      if webhookId ∈ acknowledgement.matched then 1 else 0) :
    ((EntryEffect.xack acknowledgement).apply streams).Kept := by
  rw [xack_of_pending pending same]
  have fewer : (streams.unread ++ streams.pending.filter fun entry =>
      entry.id ≠ acknowledgement.entryId).Sublist (streams.unread ++ streams.pending) :=
    (List.Sublist.refl _).append filter_sublist
  constructor
  · exact kept.webhooks
  · exact fun other listed => kept.fresh other (fewer.subset listed)
  · exact kept.distinct.sublist (fewer.map StreamEntry.id)
  · exact kept.known
  · exact kept.unread
  · intro other listed
    obtain old | new := mem_append.mp listed
    · obtain ⟨below, apart⟩ := kept.gone other old
      exact ⟨below, fun entry inside => apart entry (fewer.subset inside)⟩
    · rw [mem_singleton.mp new]
      constructor
      · rw [← same]
        exact kept.fresh entry (mem_append_right _ pending)
      · intro entry' inside
        obtain unread | filtered := mem_append.mp inside
        · rw [← same]
          exact kept.apart unread pending
        · exact of_decide_eq_true (mem_filter.mp filtered).2
  · intro other listed
    obtain old | new := mem_append.mp listed
    · exact kept.delivered other old
    · rw [mem_singleton.mp new]
      exact delivered

/-- What another batch relies on, when a delivery is made for an entry that it does not hold. -/
theorem Batch.Relies.insert (relies : batch.Relies streams) {delivery : EntryDelivery}
    (apart : delivery.entryId ∉ batch.held) :
    batch.Relies ((EntryEffect.insert delivery).apply streams) where
  held := relies.held
  distinct := relies.distinct
  made webhookId := by
    rw [Streams.count_insert_of_ne]
    · exact relies.made webhookId
    · rintro same
      exact apart (same ▸ mem_cons_self)
  planned := relies.planned
  rest entry listed webhookId := by
    rw [Streams.count_insert_of_ne]
    · exact relies.rest entry listed webhookId
    · intro same
      exact apart (same ▸ mem_cons_of_mem _ (mem_map_of_mem listed))

/-- What another batch relies on, when an entry that it does not hold is acknowledged. -/
theorem Batch.Relies.xack (relies : batch.Relies streams) {acknowledgement : Acknowledgement}
    (apart : acknowledgement.entryId ∉ batch.held) :
    batch.Relies ((EntryEffect.xack acknowledgement).apply streams) := by
  simp only [EntryEffect.apply]
  split
  · refine ⟨?_, relies.distinct, relies.made, relies.planned, relies.rest⟩
    intro id holds
    obtain ⟨entry, pending, rfl⟩ := relies.held id holds
    refine ⟨entry, mem_filter.mpr ⟨pending, ?_⟩, rfl⟩
    exact decide_eq_true fun same => apart (same ▸ holds)
  · exact relies

/-- The entries behind the one that is handled. -/
theorem Batch.Relies.behind (relies : batch.Relies streams) {entry : StreamEntry}
    (listed : entry ∈ batch.rest) : entry.id ≠ batch.entry.id := by
  have distinct := relies.distinct
  rw [Batch.held, nodup_cons] at distinct
  exact fun same => distinct.1 (same ▸ mem_map_of_mem listed)

/-! ## The steps of a batch -/

section Steps

variable {state : Consumers} {pid : Nat} {before : Batch}

end Steps

/-! ## What begins from outside -/

section Starts

variable {state : Consumers}

/-- A new entry. -/
theorem Streams.Kept.publish (kept : streams.Kept) (eventType : String) (content : Content) :
    Streams.Kept { streams with
      unread := streams.unread ++ [⟨streams.nextEntry, eventType, content⟩]
      nextEntry := streams.nextEntry + 1 } := by
  have listed : ∀ entry, entry ∈ streams.unread ++ [⟨streams.nextEntry, eventType, content⟩] ++
      streams.pending → entry ∈ streams.unread ++ streams.pending ∨
        entry = ⟨streams.nextEntry, eventType, content⟩ := by
    intro entry member
    simp only [mem_append, mem_singleton] at member ⊢
    tauto
  constructor
  · exact kept.webhooks
  · intro entry member
    obtain old | rfl := listed entry member
    · exact Nat.lt_succ_of_lt (kept.fresh entry old)
    · exact Nat.lt_succ_self _
  · have distinct := kept.distinct
    simp only [map_append, map_cons, map_nil, append_assoc] at distinct ⊢
    rw [nodup_append] at distinct ⊢
    obtain ⟨unread, pending, apart⟩ := distinct
    refine ⟨unread, ?_, ?_⟩
    · rw [singleton_append, nodup_cons]
      refine ⟨?_, pending⟩
      intro member
      obtain ⟨entry, inside, same⟩ := mem_map.mp member
      exact Nat.ne_of_lt (kept.fresh entry (mem_append_right _ inside)) same
    · intro id inUnread other member
      obtain rfl | inPending := mem_cons.mp member
      · obtain ⟨entry, inside, rfl⟩ := mem_map.mp inUnread
        exact Nat.ne_of_lt (kept.fresh entry (mem_append_left _ inside))
      · exact apart id inUnread other inPending
  · exact fun delivery member => Nat.lt_succ_of_lt (kept.known delivery member)
  · intro entry member webhookId
    obtain old | new := mem_append.mp member
    · exact kept.unread entry old webhookId
    · rw [mem_singleton.mp new]
      apply countP_eq_zero.mpr
      intro delivery inside matched
      have below := kept.known delivery inside
      simp only [Bool.and_eq_true, decide_eq_true_eq] at matched
      exact Nat.ne_of_lt below matched.1
  · intro acknowledgement member
    obtain ⟨below, apart⟩ := kept.gone acknowledgement member
    refine ⟨Nat.lt_succ_of_lt below, ?_⟩
    intro entry inside
    obtain old | rfl := listed entry inside
    · exact apart entry old
    · exact (Nat.ne_of_lt below).symm
  · exact kept.delivered

/-- Unread entries become pending. -/
theorem Streams.Kept.xreadgroup (kept : streams.Kept) (ids : List EntryId) :
    Streams.Kept { streams with
      unread := streams.unread.filter fun entry => !ids.contains entry.id
      pending := streams.pending ++ streams.unread.filter fun entry => ids.contains entry.id } := by
  have moved : ((streams.unread.filter fun entry => !ids.contains entry.id) ++
      (streams.pending ++ streams.unread.filter fun entry => ids.contains entry.id)).Perm
        (streams.unread ++ streams.pending) := by
    have split := filter_append_perm (fun entry : StreamEntry => ids.contains entry.id)
      streams.unread
    have swapped := (perm_append_comm.trans split).append_right streams.pending
    apply List.Perm.trans _ swapped
    rw [append_assoc]
    exact perm_append_comm.append_left _
  constructor
  · exact kept.webhooks
  · exact fun entry member => kept.fresh entry (moved.subset member)
  · exact (moved.map StreamEntry.id).nodup_iff.mpr kept.distinct
  · exact kept.known
  · exact fun entry member => kept.unread entry (mem_filter.mp member).1
  · intro acknowledgement member
    obtain ⟨below, apart⟩ := kept.gone acknowledgement member
    exact ⟨below, fun entry inside => apart entry (moved.subset inside)⟩
  · exact kept.delivered

end Starts

/-! ## Runs -/

section Runs

variable {state : Consumers}

end Runs

/-! ## Two runs -/

end CryptoVaultHub.Notification
