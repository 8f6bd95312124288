import CryptoVaultHub.Notification.Steps

/-!
# Steps on the queue

A delivery is made 'queued' in the database and its job is added to Redis, by two statements.
`Process.Moves` says what a statement does to the delivery of its process and to the queue, for the
endings that do not leave the two in disagreement.
-/

namespace CryptoVaultHub.Notification

/-! ## Stages -/

/-- What a process owes to the queue: nothing, a job that it still has to add for its delivery, or
the end of the job that it runs. The delivery of a test never has a job. -/
inductive Stage where
  | idle
  | works
  | owes
  | finishes
deriving DecidableEq

/-- The job that a worker runs, and the token of its lock. -/
def Source.job? : Source → Option (JobId × Nat)
  | .hand => none
  | .job id token _ => some (id, token)

def Process.stage : Process → Stage
  | .deliver call point =>
    match point with
    | .finish | .fail => if call.source.job? = none then .idle else .finishes
    | .addRetry _ => if call.source.job? = none then .owes else .works
    | _ => .works
  | .createDeliveries (.add _ _ _ _) | .resendDelivery (.add _ _) | .resend (.add _) => .owes
  | .createDeliveries (.findMatching _) | .createDeliveries (.create _ _ _)
  | .resendDelivery (.create _) | .testWebhook (.create _) => .idle
  | .resend (.findWebhook _) | .resend (.reset _ _) => .works
  | .testWebhook _ => .owes

def Process.job? : Process → Option (JobId × Nat)
  | .deliver call _ => call.source.job?
  | _ => none

/-- The delivery of a process, also while it ends its job. -/
def Process.delivery? : Process → Option DeliveryId
  | .deliver call _ => some call.deliveryId
  | process => process.worksOn

/-! ## Endings -/

/-- The endings after which the row and the queue agree, or the process still brings them to agree.
A worker that throws outside the try block of `deliverWebhook` ends its only attempt. -/
def Process.permits (process : Process) (ending : Ending) : Bool :=
  match process with
  | .deliver _ (.post _ _) | .deliver _ (.recordAttempt _ _ _) | .deliver _ (.markSent _ _ _) => true
  | .deliver call .findDelivery | .deliver call (.findWebhook _)
  | .deliver call (.recordError _ _) => call.source = .hand || ending = .done
  | .deliver call .reject | .deliver call (.markFailed _ _) | .deliver call .finish
  | .deliver call .fail => call.source = .hand || ending ≠ .failed
  | .deliver call (.markQueued _ _) => ending = .done || (call.source = .hand && ending = .failed)
  | .createDeliveries (.findMatching _) | .resend (.findWebhook _) => true
  | .createDeliveries (.create _ _ _) | .resendDelivery (.create _) | .resend (.reset _ _)
  | .testWebhook (.create _) => ending ≠ .lost
  | .deliver _ (.addRetry _) | .createDeliveries (.add _ _ _ _) | .resendDelivery (.add _ _)
  | .resend (.add _) | .testWebhook (.markFailed _) => ending ≠ .failed
  | .testWebhook (.recordError _) => ending = .done
  | .testWebhook (.post _) | .testWebhook (.recordAttempt _ _) | .testWebhook (.update _ _) => true

/-! ## What a step can do -/

/-- The two stores agree on deliveries and jobs. -/
structure Store.Same (before after : Store) : Prop where
  deliveries : after.deliveries = before.deliveries
  nextDelivery : after.nextDelivery = before.nextDelivery
  queue : after.queue = before.queue
  nextJob : after.nextJob = before.nextJob

/-- A process that has to do with no delivery and no job. -/
structure Process.Idle (process : Process) : Prop where
  delivery : process.delivery? = none
  job : process.job? = none
  stage : process.stage = .idle

/-- What a process does to its delivery and to the queue when its statement ends as permitted. -/
inductive Process.Moves (store : Store) (process : Process) : Store → Option Process → Prop where
  | goes {after : Store} {later : Process} (same : store.Same after)
      (delivery : later.delivery? = process.delivery?) (job : later.job? = process.job?)
      (stage : later.stage = process.stage) : Moves store process after (some later)
  | stops {after : Store} {next : Option Process} (same : store.Same after)
      (job : process.job? = none) (stage : process.stage = .works ∨ process.stage = .idle)
      (idle : ∀ later ∈ next, later.Idle) : Moves store process after next
  | misses {id : DeliveryId} {after : Store} {next : Option Process}
      (on : process.delivery? = some id) (absent : store.delivery? id = none) :
      Moves store process after next
  | settles {id : DeliveryId} {change : Change} {next : Option Process}
      (on : process.delivery? = some id) (status : change.status ≠ .queued)
      (goes : ∀ later ∈ next, later.delivery? = some id ∧ later.job? = process.job? ∧
        (later.stage = process.stage ∨ later.stage = .finishes))
      (ends : next = none → process.job? = none) :
      Moves store process ((Effect.update id change).apply store) next
  | queues {id : DeliveryId} {change : Change} {later : Process}
      (on : process.delivery? = some id) (works : process.stage = .works)
      (delivery : later.delivery? = some id) (job : later.job? = process.job?)
      (stage : later.stage = if process.job? = none then .owes else .works) :
      Moves store process ((Effect.update id change).apply store) (some later)
  | inserts {draft : Draft} {later : Process} (idle : process.Idle)
      (delivery : later.delivery? = some store.nextDelivery) (job : later.job? = none)
      (stage : later.stage = .owes) :
      Moves store process ((Effect.insert draft).apply store) (some later)
  | adds {data : JobData} {next : Option Process} (on : process.delivery? = some data.deliveryId)
      (owes : process.stage = .owes) (job : process.job? = none)
      (idle : ∀ later ∈ next, later.Idle) :
      Moves store process ((Effect.addJob data).apply store) next
  | retries {data : JobData} {later : Process} (on : process.delivery? = some data.deliveryId)
      (stage : process.stage = .works) (job : later.job? = process.job?)
      (runs : process.job? ≠ none) (delivery : later.delivery? = process.delivery?)
      (finishes : later.stage = .finishes) :
      Moves store process ((Effect.addJob data).apply store) (some later)
  | ends {id : JobId} {token : Nat} {effect : Effect} (job : process.job? = some (id, token))
      (stage : process.stage = .finishes)
      (effects : effect = .completeJob id token ∨ effect = .failJob id token) :
      Moves store process (effect.apply store) none

theorem Store.Same.refl (store : Store) : store.Same store := ⟨rfl, rfl, rfl, rfl⟩

theorem createNext_idle (event : Event) (webhooks : List Webhook) :
    ∀ later ∈ createNext event webhooks, later.Idle := by
  intro later goes
  cases webhooks with
  | nil => cases goes
  | cons webhook rest =>
    cases goes
    exact ⟨rfl, rfl, rfl⟩

variable {store after : Store} {answer : Answer} {next : Option Process} {ending : Ending}

variable {call : Call} {point : DeliverPoint}

/-- The end of a call. -/
theorem Call.ends_finishes (final : point = .finish ∨ point = .fail) :
    ∀ later ∈ call.ends point, later.delivery? = some call.deliveryId ∧
      later.job? = call.source.job? ∧ later.stage = .finishes := by
  intro later goes
  unfold Call.ends at goes
  split at goes
  · cases goes
  · rename_i source
    cases goes
    obtain rfl | rfl := final <;> exact ⟨rfl, rfl, by simp [Process.stage, source, Source.job?]⟩

theorem Call.job?_of_ends (ended : call.ends point = none) : call.source.job? = none := by
  unfold Call.ends at ended
  split at ended
  · rename_i source
    rw [source]
    rfl
  · cases ended

/-- A call by hand that throws has nothing left to do. -/
theorem Call.throws_moves (hand : call.source = .hand)
    (works : (Process.deliver call point).stage = .works) :
    (Process.deliver call point).Moves store store (call.ends .fail) := by
  have ended : call.ends .fail = none := by simp [Call.ends, hand]
  rw [ended]
  apply Process.Moves.stops (.refl _) _ (.inl works) (by rintro _ ⟨⟩)
  simp [Process.job?, hand, Source.job?]

/-- A row that is settled, and a call that only has its job left to end. -/
theorem Call.settles_moves {point final : DeliverPoint} {change : Change}
    (status : change.status ≠ .queued) (last : final = .finish ∨ final = .fail) :
    (Process.deliver call point).Moves store
      ((Effect.update call.deliveryId change).apply store) (call.ends final) := by
  apply Process.Moves.settles rfl status
  · intro later goes
    obtain ⟨delivery, job, stage⟩ := Call.ends_finishes last later goes
    exact ⟨delivery, job, .inr stage⟩
  · exact Call.job?_of_ends

theorem Call.handleFailure_point (call : Call) (delivery : Delivery) (webhook : Webhook)
    (httpStatus : Option Nat) :
    (call.handleFailure delivery webhook httpStatus).delivery? = some call.deliveryId ∧
      (call.handleFailure delivery webhook httpStatus).job? = call.source.job? ∧
        (call.handleFailure delivery webhook httpStatus).stage = .works := by
  unfold Call.handleFailure
  split <;> exact ⟨rfl, rfl, rfl⟩

/-- A retry is added for the delivery; a worker then ends its job. -/
theorem Call.adds_moves {delivery : Delivery} {final : DeliverPoint} {data : JobData}
    (on : data.deliveryId = call.deliveryId) (last : final = .finish ∨ final = .fail) :
    (Process.deliver call (.addRetry delivery)).Moves store
      ((Effect.addJob data).apply store) (call.ends final) := by
  have works : (Process.deliver call (.addRetry delivery)).delivery? = some data.deliveryId :=
    congrArg some on.symm
  cases goes : call.ends final with
  | none =>
    have hand := Call.job?_of_ends goes
    exact .adds works (by simp [Process.stage, hand]) hand (by rintro _ ⟨⟩)
  | some later =>
    obtain ⟨onLater, job, stage⟩ := Call.ends_finishes last later goes
    have runs : call.source.job? ≠ none := by
      intro hand
      unfold Call.ends at goes
      split at goes
      · cases goes
      · rename_i source
        rw [source] at hand
        cases hand
    exact .retries works (by simp [Process.stage, runs]) job runs onLater stage

/-- The end of a worker's job. -/
theorem Call.ends_moves (last : point = .finish ∨ point = .fail)
    (permitted : call.source = .hand ∨ ending ≠ .failed)
    (performed : Statement.perform
      ⟨(call.deliverWebhook store answer point).effect.apply store,
        (call.deliverWebhook store answer point).next,
        (call.deliverWebhook store answer point).thrown⟩ store ending = (after, next)) :
    (Process.deliver call point).Moves store after next := by
  cases source : call.source with
  | hand =>
    have job : (Process.deliver call point).job? = none := by
      simp [Process.job?, source, Source.job?]
    have idle : (Process.deliver call point).stage = .idle := by
      obtain rfl | rfl := last <;> simp [Process.stage, source, Source.job?]
    have rests : after = store ∧ next = none := by
      obtain rfl | rfl := last <;> cases ending <;>
        simpa [Call.deliverWebhook, source, Statement.perform, Effect.apply, eq_comm] using
          performed
    obtain ⟨rfl, rfl⟩ := rests
    exact .stops (.refl _) job (.inr idle) (by rintro _ ⟨⟩)
  | job id token isRetry =>
    have applied : ending ≠ .failed := by simpa [source] using permitted
    have job : (Process.deliver call point).job? = some (id, token) := by
      simp [Process.job?, source, Source.job?]
    have finishes : (Process.deliver call point).stage = .finishes := by
      obtain rfl | rfl := last <;> simp [Process.stage, source, Source.job?]
    obtain ⟨effect, effects, done, last⟩ : ∃ effect : Effect,
        (effect = .completeJob id token ∨ effect = .failJob id token) ∧
          after = effect.apply store ∧ next = none := by
      obtain rfl | rfl := last
      · refine ⟨_, .inl rfl, ?_⟩
        cases ending <;>
          simp_all [Call.deliverWebhook, Statement.perform, Effect.apply, eq_comm]
      · refine ⟨_, .inr rfl, ?_⟩
        cases ending <;>
          simp_all [Call.deliverWebhook, Statement.perform, Effect.apply, eq_comm]
    rw [done, last]
    exact .ends job finishes effects

theorem Call.deliverWebhook_moves (permitted : (Process.deliver call point).permits ending = true)
    (performed : Statement.perform
      ⟨(call.deliverWebhook store answer point).effect.apply store,
        (call.deliverWebhook store answer point).next,
        (call.deliverWebhook store answer point).thrown⟩ store ending = (after, next)) :
    (Process.deliver call point).Moves store after next := by
  cases point with
  | findDelivery =>
    have safe : call.source = .hand ∨ ending = .done := by
      simpa [Process.permits] using permitted
    obtain ⟨rfl, ⟨rfl, rfl⟩ | ⟨rfl, rfl⟩⟩ | ⟨rfl, rfl, rfl⟩ := Statement.perform_cases performed
    · cases found : after.delivery? call.deliveryId with
      | none => exact .misses rfl found
      | some delivery =>
        simp only [Call.deliverWebhook, found]
        exact .goes (.refl _) rfl rfl rfl
    · exact Call.throws_moves (by simpa using safe) rfl
    · exact Call.throws_moves (by simpa using safe) rfl
  | findWebhook delivery =>
    have safe : call.source = .hand ∨ ending = .done := by
      simpa [Process.permits] using permitted
    obtain ⟨rfl, ⟨rfl, rfl⟩ | ⟨rfl, rfl⟩⟩ | ⟨rfl, rfl, rfl⟩ := Statement.perform_cases performed
    · simp only [Call.deliverWebhook]
      split
      · exact .goes (.refl _) rfl rfl rfl
      · split <;> exact .goes (.refl _) rfl rfl rfl
    · exact Call.throws_moves (by simpa using safe) rfl
    · exact Call.throws_moves (by simpa using safe) rfl
  | reject =>
    obtain ⟨rfl, ⟨_, rfl⟩ | ⟨_, rfl⟩⟩ | ⟨rfl, rfl, rfl⟩ := Statement.perform_cases performed
    · exact Call.settles_moves (by simp) (.inl rfl)
    · exact Call.settles_moves (by simp) (.inr rfl)
    · exact Call.throws_moves (by simpa [Process.permits] using permitted) rfl
  | post delivery webhook =>
    have same : store.Same ((Effect.post ⟨call.deliveryId, call.isRetry, answer⟩).apply store) :=
      ⟨rfl, rfl, rfl, rfl⟩
    obtain ⟨rfl, ⟨_, rfl⟩ | ⟨_, rfl⟩⟩ | ⟨_, rfl, rfl⟩ := Statement.perform_cases performed
    · cases answer <;> exact .goes same rfl rfl rfl
    · exact .goes same rfl rfl rfl
    · exact .goes (.refl _) rfl rfl rfl
  | recordAttempt delivery webhook httpStatus =>
    have failure := call.handleFailure_point delivery webhook (some httpStatus)
    obtain ⟨rfl, ⟨_, rfl⟩ | ⟨_, rfl⟩⟩ | ⟨_, rfl, rfl⟩ := Statement.perform_cases performed
    · simp only [Call.deliverWebhook]
      split
      · exact .goes (.refl _) rfl rfl rfl
      · exact .goes (.refl _) failure.1 failure.2.1 failure.2.2
    · exact .goes (.refl _) rfl rfl rfl
    · exact .goes (.refl _) rfl rfl rfl
  | markSent delivery webhook httpStatus =>
    obtain ⟨rfl, ⟨_, rfl⟩ | ⟨_, rfl⟩⟩ | ⟨_, rfl, rfl⟩ := Statement.perform_cases performed
    · exact Call.settles_moves (by simp) (.inl rfl)
    · apply Process.Moves.settles rfl (by simp)
      · rintro _ ⟨⟩
        exact ⟨rfl, rfl, .inl rfl⟩
      · rintro ⟨⟩
    · exact .goes (.refl _) rfl rfl rfl
  | recordError delivery webhook =>
    have safe : call.source = .hand ∨ ending = .done := by
      simpa [Process.permits] using permitted
    have failure := call.handleFailure_point delivery webhook none
    obtain ⟨rfl, ⟨rfl, rfl⟩ | ⟨rfl, rfl⟩⟩ | ⟨rfl, rfl, rfl⟩ := Statement.perform_cases performed
    · exact .goes (.refl _) failure.1 failure.2.1 failure.2.2
    · exact Call.throws_moves (by simpa using safe) rfl
    · exact Call.throws_moves (by simpa using safe) rfl
  | markFailed delivery httpStatus =>
    obtain ⟨rfl, ⟨_, rfl⟩ | ⟨_, rfl⟩⟩ | ⟨rfl, rfl, rfl⟩ := Statement.perform_cases performed
    · exact Call.settles_moves (by simp) (.inl rfl)
    · exact Call.settles_moves (by simp) (.inr rfl)
    · exact Call.throws_moves (by simpa [Process.permits] using permitted) rfl
  | markQueued delivery httpStatus =>
    obtain ⟨rfl, ⟨_, rfl⟩ | ⟨rfl, _⟩⟩ | ⟨rfl, rfl, rfl⟩ := Statement.perform_cases performed
    · exact .queues rfl rfl rfl rfl rfl
    · simp [Process.permits] at permitted
    · exact Call.throws_moves (by simpa [Process.permits] using permitted) rfl
  | addRetry delivery =>
    obtain ⟨rfl, ⟨_, rfl⟩ | ⟨_, rfl⟩⟩ | ⟨rfl, _⟩ := Statement.perform_cases performed
    · exact Call.adds_moves rfl (.inl rfl)
    · exact Call.adds_moves rfl (.inr rfl)
    · simp [Process.permits] at permitted
  | finish => exact Call.ends_moves (.inl rfl) (by simpa [Process.permits] using permitted) performed
  | fail => exact Call.ends_moves (.inr rfl) (by simpa [Process.permits] using permitted) performed

theorem Process.perform_moves {process : Process}
    (permitted : process.permits ending = true)
    (performed : (process.statement store answer).perform store ending = (after, next)) :
    process.Moves store after next := by
  cases process with
  | deliver call point => exact Call.deliverWebhook_moves permitted performed
  | createDeliveries point =>
    cases point with
    | findMatching event =>
      obtain ⟨rfl, ⟨_, rfl⟩ | ⟨_, rfl⟩⟩ | ⟨_, rfl, rfl⟩ := Statement.perform_cases performed
      · exact .stops (.refl _) rfl (.inr rfl) (createNext_idle event _)
      · exact .stops (.refl _) rfl (.inr rfl) (by rintro _ ⟨⟩)
      · exact .stops (.refl _) rfl (.inr rfl) (by rintro _ ⟨⟩)
    | create event webhook rest =>
      obtain ⟨rfl, ⟨_, rfl⟩ | ⟨lost, _⟩⟩ | ⟨_, rfl, rfl⟩ := Statement.perform_cases performed
      · exact .inserts ⟨rfl, rfl, rfl⟩ rfl rfl rfl
      · simp [Process.permits, lost] at permitted
      · exact .stops (.refl _) rfl (.inr rfl) (by rintro _ ⟨⟩)
    | add event deliveryId webhook rest =>
      obtain ⟨rfl, ⟨_, rfl⟩ | ⟨_, rfl⟩⟩ | ⟨failed, _⟩ := Statement.perform_cases performed
      · exact .adds rfl rfl rfl (createNext_idle event rest)
      · exact .adds rfl rfl rfl (by rintro _ ⟨⟩)
      · simp [Process.permits, failed] at permitted
  | resendDelivery point =>
    cases point with
    | create original =>
      obtain ⟨rfl, ⟨_, rfl⟩ | ⟨lost, _⟩⟩ | ⟨_, rfl, rfl⟩ := Statement.perform_cases performed
      · exact .inserts ⟨rfl, rfl, rfl⟩ rfl rfl rfl
      · simp [Process.permits, lost] at permitted
      · exact .stops (.refl _) rfl (.inr rfl) (by rintro _ ⟨⟩)
    | add deliveryId original =>
      obtain ⟨rfl, ⟨_, rfl⟩ | ⟨_, rfl⟩⟩ | ⟨failed, _⟩ := Statement.perform_cases performed
      · exact .adds rfl rfl rfl (by rintro _ ⟨⟩)
      · exact .adds rfl rfl rfl (by rintro _ ⟨⟩)
      · simp [Process.permits, failed] at permitted
  | resend point =>
    cases point with
    | findWebhook deadLetter =>
      obtain ⟨rfl, ⟨_, rfl⟩ | ⟨_, rfl⟩⟩ | ⟨_, rfl, rfl⟩ := Statement.perform_cases performed
      · exact .goes (.refl _) rfl rfl rfl
      · exact .stops (.refl _) rfl (.inl rfl) (by rintro _ ⟨⟩)
      · exact .stops (.refl _) rfl (.inl rfl) (by rintro _ ⟨⟩)
    | reset deadLetter maxAttempts =>
      obtain ⟨rfl, ⟨_, rfl⟩ | ⟨lost, _⟩⟩ | ⟨_, rfl, rfl⟩ := Statement.perform_cases performed
      · exact .queues rfl rfl rfl rfl rfl
      · simp [Process.permits, lost] at permitted
      · exact .stops (.refl _) rfl (.inl rfl) (by rintro _ ⟨⟩)
    | add deadLetter =>
      obtain ⟨rfl, ⟨_, rfl⟩ | ⟨_, rfl⟩⟩ | ⟨failed, _⟩ := Statement.perform_cases performed
      · exact .adds rfl rfl rfl (by rintro _ ⟨⟩)
      · exact .adds rfl rfl rfl (by rintro _ ⟨⟩)
      · simp [Process.permits, failed] at permitted
  | testWebhook point =>
    cases point with
    | create webhook =>
      obtain ⟨rfl, ⟨_, rfl⟩ | ⟨lost, _⟩⟩ | ⟨_, rfl, rfl⟩ := Statement.perform_cases performed
      · exact .inserts ⟨rfl, rfl, rfl⟩ rfl rfl rfl
      · simp [Process.permits, lost] at permitted
      · exact .stops (.refl _) rfl (.inr rfl) (by rintro _ ⟨⟩)
    | post deliveryId =>
      have same : store.Same ((Effect.post ⟨deliveryId, false, answer⟩).apply store) :=
        ⟨rfl, rfl, rfl, rfl⟩
      obtain ⟨rfl, ⟨_, rfl⟩ | ⟨_, rfl⟩⟩ | ⟨_, rfl, rfl⟩ := Statement.perform_cases performed
      · cases answer <;> exact .goes same rfl rfl rfl
      · exact .goes same rfl rfl rfl
      · exact .goes (.refl _) rfl rfl rfl
    | recordAttempt deliveryId httpStatus =>
      obtain ⟨rfl, ⟨_, rfl⟩ | ⟨_, rfl⟩⟩ | ⟨_, rfl, rfl⟩ := Statement.perform_cases performed
      · exact .goes (.refl _) rfl rfl rfl
      · exact .goes (.refl _) rfl rfl rfl
      · exact .goes (.refl _) rfl rfl rfl
    | update deliveryId httpStatus =>
      have status : (if isSuccess httpStatus then DeliveryStatus.sent else .failed) ≠
          .queued := by
        split <;> simp
      obtain ⟨rfl, ⟨_, rfl⟩ | ⟨_, rfl⟩⟩ | ⟨_, rfl, rfl⟩ := Statement.perform_cases performed
      · exact .settles rfl status (by rintro _ ⟨⟩) fun _ => rfl
      · apply Process.Moves.settles rfl status
        · rintro _ ⟨⟩
          exact ⟨rfl, rfl, .inl rfl⟩
        · rintro ⟨⟩
      · exact .goes (.refl _) rfl rfl rfl
    | recordError deliveryId =>
      obtain rfl : ending = .done := by simpa [Process.permits] using permitted
      cases performed
      exact .goes (.refl _) rfl rfl rfl
    | markFailed deliveryId =>
      obtain ⟨rfl, ⟨_, rfl⟩ | ⟨_, rfl⟩⟩ | ⟨failed, _⟩ := Statement.perform_cases performed
      · exact .settles rfl (by simp) (by rintro _ ⟨⟩) fun _ => rfl
      · exact .settles rfl (by simp) (by rintro _ ⟨⟩) fun _ => rfl
      · simp [Process.permits, failed] at permitted

end CryptoVaultHub.Notification
