import CryptoVaultHub.Notification.Services

/-!
# What a statement changes

A statement changes one delivery, adds one, adds or ends one job, or records one request. No row
disappears, and the identifiers of rows and jobs are never used twice.
-/

namespace CryptoVaultHub.Notification

open List

/-! ## Rows -/

theorem Change.apply_id (change : Change) (delivery : Delivery) :
    (change.apply delivery).id = delivery.id := rfl

namespace Store

theorem delivery?_id {store : Store} {id : DeliveryId} {delivery : Delivery}
    (found : store.delivery? id = some delivery) : delivery.id = id := by
  have named := find?_some found
  exact of_decide_eq_true named

theorem mem_of_delivery? {store : Store} {id : DeliveryId} {delivery : Delivery}
    (found : store.delivery? id = some delivery) : delivery ∈ store.deliveries :=
  mem_of_find?_eq_some found

/-- The row of a delivery after an update of some row. -/
theorem delivery?_update (store : Store) (updated id : DeliveryId) (change : Change) :
    ((Effect.update updated change).apply store).delivery? id =
      (store.delivery? id).map fun delivery =>
        if id = updated then change.apply delivery else delivery := by
  unfold delivery? Effect.apply
  dsimp only
  rw [find?_map]
  have untouched : ((fun delivery : Delivery => decide (delivery.id = id)) ∘ fun delivery =>
      if delivery.id = updated then change.apply delivery else delivery) =
        fun delivery => decide (delivery.id = id) := by
    ext delivery
    simp only [Function.comp_apply]
    split <;> rfl
  rw [untouched]
  apply Option.map_congr
  intro delivery found
  have named : delivery.id = id := delivery?_id found
  rw [named]

/-- The identifiers of rows and jobs are those that were given out, each once. -/
structure Numbered (store : Store) : Prop where
  deliveries : ∀ delivery ∈ store.deliveries, delivery.id < store.nextDelivery
  distinct : (store.queue.jobs.map Job.id).Nodup
  jobs : ∀ job ∈ store.queue.jobs, job.id < store.nextJob
  once : ∀ job ∈ store.queue.jobs, job.attempts ≤ 1
  known : ∀ job ∈ store.queue.jobs, (store.delivery? job.data.deliveryId).isSome

theorem initial_numbered (webhooks : List Webhook) : (initial webhooks).Numbered := by
  constructor <;> simp [initial, JobQueue.empty]

variable {store : Store}

theorem Numbered.lt (numbered : store.Numbered) {id : DeliveryId}
    (known : (store.delivery? id).isSome) : id < store.nextDelivery := by
  obtain ⟨delivery, found⟩ := Option.isSome_iff_exists.mp known
  rw [← delivery?_id found]
  exact numbered.deliveries delivery (mem_of_delivery? found)

/-- The next identifier is not in use. -/
theorem Numbered.fresh (numbered : store.Numbered) :
    store.delivery? store.nextDelivery = none := by
  cases found : store.delivery? store.nextDelivery with
  | none => rfl
  | some delivery => exact absurd (numbered.lt (by simp [found])) (Nat.lt_irrefl _)

theorem delivery?_insert (numbered : store.Numbered) (draft : Draft) (id : DeliveryId) :
    ((Effect.insert draft).apply store).delivery? id =
      if id = store.nextDelivery then
        some ⟨store.nextDelivery, draft, .queued, none, 0, draft.maxAttempts⟩
      else store.delivery? id := by
  unfold delivery? Effect.apply
  dsimp only
  rw [List.find?_append]
  split
  · rename_i fresh
    subst fresh
    have absent : store.deliveries.find? (fun delivery => delivery.id = store.nextDelivery) =
        none := by
      apply find?_eq_none.mpr
      intro delivery listed same
      exact Nat.ne_of_lt (numbered.deliveries delivery listed) (of_decide_eq_true same)
    simp [absent]
  · rename_i other
    have unlike : ¬ store.nextDelivery = id := fun same => other same.symm
    simp [unlike]

/-- A row stays, whatever happens. -/
theorem known_apply (numbered : store.Numbered) (effect : Effect) {id : DeliveryId}
    (known : (store.delivery? id).isSome) :
    ((effect.apply store).delivery? id).isSome := by
  cases effect with
  | insert draft =>
    rw [delivery?_insert numbered]
    split
    · rfl
    · exact known
  | update updated change =>
    rw [delivery?_update, Option.isSome_map]
    exact known
  | skip | post | addJob | completeJob | failJob => exact known

/-- Ending a job keeps the numbering. -/
theorem Numbered.endJob (numbered : store.Numbered) {id : JobId} {token : Nat}
    {queue : JobQueue JobId JobData} (ends : store.queue.EndsJob id token queue) :
    Numbered { store with queue := queue } := by
  have old : ∀ job ∈ queue.jobs, ∃ before ∈ store.queue.jobs, before.id = job.id ∧
      before.data = job.data ∧ before.attempts = job.attempts := by
    intro job member
    obtain ⟨inside, _⟩ | ⟨_, before⟩ := ends.mem member
    · exact ⟨job, inside, rfl, rfl, rfl⟩
    · exact before
  refine ⟨numbered.deliveries, ends.nodup numbered.distinct, ?_, ?_, ?_⟩
  · intro job member
    obtain ⟨before, inside, same, _⟩ := old job member
    rw [← same]
    exact numbered.jobs before inside
  · intro job member
    obtain ⟨before, inside, _, _, same⟩ := old job member
    rw [← same]
    exact numbered.once before inside
  · intro job member
    obtain ⟨before, inside, _, same, _⟩ := old job member
    rw [← same]
    exact numbered.known before inside

/-- Moving a job keeps the numbering. -/
theorem Numbered.moveJob (numbered : store.Numbered) (id : JobId) (source target : JobState)
    (nextToken : Nat) :
    Numbered { store with
      queue := store.queue.move id source target
      nextToken := nextToken } := by
  have old : ∀ job ∈ (store.queue.move id source target).jobs, ∃ before ∈ store.queue.jobs,
      before.id = job.id ∧ before.data = job.data ∧ before.attempts = job.attempts := by
    intro job member
    obtain ⟨inside, _⟩ | ⟨before, inside, _, _, rfl⟩ := JobQueue.mem_move member
    · exact ⟨job, inside, rfl, rfl, rfl⟩
    · exact ⟨before, inside, rfl, rfl, rfl⟩
  refine ⟨numbered.deliveries, ?_, ?_, ?_, ?_⟩
  · dsimp only
    rw [JobQueue.ids_move]
    exact numbered.distinct
  · intro job member
    obtain ⟨before, inside, same, _⟩ := old job member
    rw [← same]
    exact numbered.jobs before inside
  · intro job member
    obtain ⟨before, inside, _, _, same⟩ := old job member
    rw [← same]
    exact numbered.once before inside
  · intro job member
    obtain ⟨before, inside, _, same, _⟩ := old job member
    rw [← same]
    exact numbered.known before inside

/-- The new job is behind the others. -/
theorem Numbered.jobs_addJob (numbered : store.Numbered) (data : JobData) :
    ((Effect.addJob data).apply store).queue.jobs =
      store.queue.jobs ++ [deliveryJob store.nextJob data] := by
  apply JobQueue.jobs_add
  intro other inside same
  exact Nat.ne_of_lt (numbered.jobs other inside) same

/-- A statement that adds jobs for known deliveries only keeps the numbering. -/
theorem Numbered.apply (numbered : store.Numbered) {effect : Effect}
    (known : ∀ data, effect = .addJob data → (store.delivery? data.deliveryId).isSome) :
    (effect.apply store).Numbered := by
  cases effect with
  | skip => exact numbered
  | post sent => exact ⟨numbered.deliveries, numbered.distinct, numbered.jobs, numbered.once,
      numbered.known⟩
  | insert draft =>
    refine ⟨?_, numbered.distinct, numbered.jobs, numbered.once, ?_⟩
    · intro delivery listed
      obtain old | new := mem_append.mp listed
      · exact Nat.lt_succ_of_lt (numbered.deliveries delivery old)
      · rw [mem_singleton.mp new]
        exact Nat.lt_succ_self _
    · exact fun job inside => known_apply numbered _ (numbered.known job inside)
  | update id change =>
    refine ⟨?_, numbered.distinct, numbered.jobs, numbered.once, ?_⟩
    · intro delivery listed
      obtain ⟨before, inside, rfl⟩ := mem_map.mp listed
      have below := numbered.deliveries before inside
      split <;> exact below
    · exact fun job inside => known_apply numbered _ (numbered.known job inside)
  | addJob data =>
    have jobs := numbered.jobs_addJob data
    constructor
    · exact numbered.deliveries
    · rw [jobs, map_append]
      apply List.Nodup.append numbered.distinct (nodup_singleton _)
      intro id listed new
      obtain ⟨other, inside, rfl⟩ := mem_map.mp listed
      exact Nat.ne_of_lt (numbered.jobs other inside) (mem_singleton.mp new)
    · intro job member
      rw [jobs] at member
      obtain old | new := mem_append.mp member
      · exact Nat.lt_succ_of_lt (numbered.jobs job old)
      · rw [mem_singleton.mp new]
        exact Nat.lt_succ_self _
    · intro job member
      rw [jobs] at member
      obtain old | new := mem_append.mp member
      · exact numbered.once job old
      · rw [mem_singleton.mp new]
        exact Nat.le_refl 1
    · intro job member
      rw [jobs] at member
      obtain old | new := mem_append.mp member
      · exact numbered.known job old
      · rw [mem_singleton.mp new]
        exact known data rfl
  | completeJob id token =>
    exact numbered.endJob (JobQueue.endsJob_complete store.queue id token keepCompleted)
  | failJob id token =>
    exact numbered.endJob (JobQueue.endsJob_fail keepFailed numbered.once)

end Store

end CryptoVaultHub.Notification
