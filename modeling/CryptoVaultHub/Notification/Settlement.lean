import CryptoVaultHub.Notification.Steps

/-!
# Settled deliveries

The answer of an endpoint is recorded by two statements, and what they throw is handled as if there
had been no answer. `deliverWebhook` does not look at the status of a delivery either, so a call on
a delivery that has another call, a waiting job, or an answer already can undo what was recorded.
Where neither happens, a delivery that was answered with success is left at 'sent' for good.
-/

namespace CryptoVaultHub.Notification

open TransitionSystem List

/-! ## The property -/

def Store.status? (store : Store) (id : DeliveryId) : Option DeliveryStatus :=
  (store.delivery? id).map Delivery.status

/-- The endpoint has answered a request of the delivery with success. -/
def Store.answered (store : Store) (id : DeliveryId) : Bool :=
  store.posts.any fun post => post.deliveryId = id && post.succeeded

/-- After an answer with success no automatic retry sends the delivery again, and once no process
works on it, it is 'sent'. -/
structure Pool.Settled (state : Pool) : Prop where
  unrepeated : state.shared.posts.Pairwise fun earlier later =>
    earlier.deliveryId = later.deliveryId → earlier.succeeded = true → later.isRetry = false
  sent : ∀ id, state.shared.answered id = true →
    ¬ state.Runs (fun process => process.worksOn = some id) →
    state.shared.status? id = some .sent

/-! ## Its condition -/

/-- A job that the worker has yet to take. -/
def awaits (job : Job JobId JobData) : Bool :=
  match job.state with
  | .waiting | .delayed => true
  | .active _ | .completed | .failed => false

/-- The delivery has no answer with success, no job that waits, and no process that works on it. -/
def Pool.isFree (state : Pool) (id : DeliveryId) : Bool :=
  !state.shared.answered id &&
    (state.shared.queue.jobs.all fun job => !(awaits job && job.data.deliveryId = id)) &&
    state.every fun _ process => process.worksOn ≠ some id

/-- An answer with success arrives and is recorded, and a call that is not for a waiting job begins
on a free delivery only. -/
def Pool.records (state : Pool) : PoolAction (Input Answer) Start → Bool
  | .launch (.retry id) | .launch (.resend id) => Pool.isFree state id
  | .launch (.stall id _) => (state.shared.queue.getJob id).all fun job =>
    Pool.isFree state job.data.deliveryId
  | .launch _ => true
  | .advance pid input => (state.process? pid).all fun process =>
    (!process.recordsSuccess || input.ending = .done) &&
      (!(process.sends && input.answer.any isSuccess) || input.ending ≠ .lost)
  | .crash pid => (state.process? pid).all fun process => !process.recordsSuccess

@[reducible] def Pool.Records (state : Pool) (action : PoolAction (Input Answer) Start) : Prop :=
  Pool.records state action = true

/-! ## What is known on the way -/

/-- No job of the delivery waits. -/
def Store.Unqueued (store : Store) (id : DeliveryId) : Prop :=
  ∀ job ∈ store.queue.jobs, awaits job = true → job.data.deliveryId ≠ id

/-- Each waiting job is the only one of its delivery, which has no answer with success. -/
structure Store.Orderly (store : Store) : Prop where
  numbered : store.Numbered
  alone : ∀ first ∈ store.queue.jobs, ∀ second ∈ store.queue.jobs, awaits first = true →
    awaits second = true → first.data.deliveryId = second.data.deliveryId → first = second
  unanswered : ∀ job ∈ store.queue.jobs, awaits job = true →
    store.answered job.data.deliveryId = false
  posts : ∀ post ∈ store.posts, (store.delivery? post.deliveryId).isSome
  unrepeated : store.posts.Pairwise fun earlier later =>
    earlier.deliveryId = later.deliveryId → earlier.succeeded = true → later.isRetry = false

/-- No other job waits for the delivery that a process works on, and it has no answer with success
unless that is being recorded. -/
structure Process.Knows (store : Store) (process : Process) : Prop where
  known : ∀ id, process.worksOn = some id → (store.delivery? id).isSome
  unqueued : ∀ id, process.worksOn = some id → store.Unqueued id
  unanswered : ∀ id, process.worksOn = some id → process.recordsSuccess = false →
    store.answered id = false

def settlementOutline : ProofOutline Store Process where
  Global := Store.Orderly
  Local := fun store process => process.Knows store
  Apart first second := ∀ id, ¬ (first.worksOn = some id ∧ second.worksOn = some id)
  apart_symm apart id both := apart id both.symm

/-- A delivery with an answer is 'sent', or the answer is being recorded. -/
def Pool.Answers (state : Pool) : Prop :=
  ∀ id, state.shared.answered id = true →
    state.shared.status? id = some .sent ∨
      state.Runs fun process => process.worksOn = some id ∧ process.recordsSuccess = true

theorem Process.Knows.none {store : Store} {process : Process} (idle : process.worksOn = none) :
    process.Knows store := by
  constructor <;> simp [idle]

/-- What a process knows depends on the rows that exist, on the waiting jobs of its delivery, and on
the answers of its delivery. -/
theorem Process.Knows.frame {before after : Store} {process : Process}
    (knows : process.Knows before)
    (rows : ∀ id, (before.delivery? id).isSome → (after.delivery? id).isSome)
    (jobs : ∀ id, process.worksOn = some id → before.Unqueued id → after.Unqueued id)
    (answers : ∀ id, process.worksOn = some id → after.answered id = before.answered id) :
    process.Knows after where
  known id on := rows id (knows.known id on)
  unqueued id on := jobs id on (knows.unqueued id on)
  unanswered id on unsure := by
    rw [answers id on]
    exact knows.unanswered id on unsure

/-- What a process knows carries over to a later point on the same delivery. -/
theorem Process.Knows.goTo {store : Store} {process later : Process} {id : DeliveryId}
    (knows : process.Knows store) (on : process.worksOn = some id)
    (unsure : process.recordsSuccess = false)
    (within_ : later.Within (some id)) : later.Knows store := by
  obtain ⟨idle | same, _⟩ := within_
  · exact .none idle
  · constructor
    · intro other here
      exact knows.known other (on.trans (same.symm.trans here))
    · intro other here
      exact knows.unqueued other (on.trans (same.symm.trans here))
    · intro other here _
      exact knows.unanswered other (on.trans (same.symm.trans here)) unsure

section Effects

variable {store : Store}

theorem answered_of_posts {before after : Store} (same : after.posts = before.posts)
    (id : DeliveryId) : after.answered id = before.answered id := by
  unfold Store.answered
  rw [same]

/-- A change of the rows alone. -/
theorem Store.Orderly.rows (orderly : store.Orderly) {after : Store}
    (numbered : after.Numbered) (queue : after.queue = store.queue)
    (posts : after.posts = store.posts)
    (known : ∀ id, (store.delivery? id).isSome → (after.delivery? id).isSome) :
    after.Orderly where
  numbered := numbered
  alone := by
    rw [queue]
    exact orderly.alone
  unanswered := by
    rw [queue]
    intro job inside waits
    rw [answered_of_posts posts]
    exact orderly.unanswered job inside waits
  posts := by
    rw [posts]
    exact fun post sent => known _ (orderly.posts post sent)
  unrepeated := by
    rw [posts]
    exact orderly.unrepeated

/-- A change of the queue after which no more jobs wait. -/
theorem Store.Orderly.queue (orderly : store.Orderly) {queue : JobQueue JobId JobData}
    {nextToken : Nat}
    (numbered : Store.Numbered { store with queue := queue, nextToken := nextToken })
    (waiting : ∀ job ∈ queue.jobs, awaits job = true → job ∈ store.queue.jobs) :
    Store.Orderly { store with queue := queue, nextToken := nextToken } where
  numbered := numbered
  alone first inFirst second inSecond waitsFirst waitsSecond :=
    orderly.alone first (waiting first inFirst waitsFirst) second
      (waiting second inSecond waitsSecond) waitsFirst waitsSecond
  unanswered job inside waits := orderly.unanswered job (waiting job inside waits) waits
  posts := orderly.posts
  unrepeated := orderly.unrepeated

theorem waiting_of_endsJob {queue : JobQueue JobId JobData} {id : JobId} {token : Nat}
    (ends : store.queue.EndsJob id token queue) :
    ∀ job ∈ queue.jobs, awaits job = true → job ∈ store.queue.jobs := by
  intro job inside waits
  obtain ⟨old, _⟩ | ⟨final, _⟩ := ends.mem inside
  · exact old
  · cases state : job.state <;> simp_all [awaits, JobState.finished]

theorem endsJob_of_effect (numbered : store.Numbered) {effect : Effect} {id : JobId} {token : Nat}
    (ends : effect = .completeJob id token ∨ effect = .failJob id token) :
    ∃ queue, store.queue.EndsJob id token queue ∧
      effect.apply store = { store with queue := queue } := by
  obtain rfl | rfl := ends
  · exact ⟨_, JobQueue.endsJob_complete store.queue id token keepCompleted, rfl⟩
  · exact ⟨_, JobQueue.endsJob_fail keepFailed numbered.once, rfl⟩

/-- A new job of a delivery that has none, and no answer with success. -/
theorem Store.Orderly.addJob (orderly : store.Orderly) {data : JobData}
    (known : (store.delivery? data.deliveryId).isSome) (unqueued : store.Unqueued data.deliveryId)
    (unanswered : store.answered data.deliveryId = false) :
    ((Effect.addJob data).apply store).Orderly := by
  have jobs := orderly.numbered.jobs_addJob data
  refine ⟨orderly.numbered.apply ?_, ?_, ?_, orderly.posts, orderly.unrepeated⟩
  · rintro other ⟨⟩
    exact known
  · rw [jobs]
    intro first inFirst second inSecond waitsFirst waitsSecond same
    obtain oldFirst | newFirst := mem_append.mp inFirst
    · obtain oldSecond | newSecond := mem_append.mp inSecond
      · exact orderly.alone first oldFirst second oldSecond waitsFirst waitsSecond same
      · rw [mem_singleton.mp newSecond] at same
        exact absurd same (unqueued first oldFirst waitsFirst)
    · obtain oldSecond | newSecond := mem_append.mp inSecond
      · rw [mem_singleton.mp newFirst] at same
        exact absurd same.symm (unqueued second oldSecond waitsSecond)
      · rw [mem_singleton.mp newFirst, mem_singleton.mp newSecond]
  · rw [jobs]
    intro job inside waits
    obtain old | new := mem_append.mp inside
    · exact orderly.unanswered job old waits
    · rw [mem_singleton.mp new]
      exact unanswered

theorem Store.unqueued_addJob (numbered : store.Numbered) {data : JobData} {id : DeliveryId}
    (other : id ≠ data.deliveryId) (unqueued : store.Unqueued id) :
    ((Effect.addJob data).apply store).Unqueued id := by
  intro job inside waits
  rw [numbered.jobs_addJob] at inside
  obtain old | new := mem_append.mp inside
  · exact unqueued job old waits
  · rw [mem_singleton.mp new]
    exact fun same => other same.symm

theorem Store.answered_post (store : Store) (sent : Post) (id : DeliveryId) :
    ((Effect.post sent).apply store).answered id =
      (store.answered id || (sent.deliveryId = id && sent.succeeded)) := by
  simp [answered, Effect.apply]

/-- A request of a delivery that has no waiting job and no answer with success. -/
theorem Store.Orderly.post (orderly : store.Orderly) {sent : Post}
    (known : (store.delivery? sent.deliveryId).isSome)
    (unqueued : store.Unqueued sent.deliveryId)
    (unanswered : store.answered sent.deliveryId = false) :
    ((Effect.post sent).apply store).Orderly := by
  refine ⟨orderly.numbered.apply (by rintro data ⟨⟩), orderly.alone, ?_, ?_, ?_⟩
  · intro job inside waits
    rw [answered_post, orderly.unanswered job inside waits]
    simp [(unqueued job inside waits).symm]
  · intro other listed
    obtain old | new := mem_append.mp listed
    · exact orderly.posts other old
    · rw [mem_singleton.mp new]
      exact known
  · apply pairwise_append.mpr
    refine ⟨orderly.unrepeated, pairwise_singleton _ _, ?_⟩
    intro earlier old later new same succeeded
    rw [mem_singleton.mp new] at same
    have none := any_eq_false.mp unanswered earlier old
    simp [same, succeeded] at none

end Effects

/-! ## The steps of a process -/

section Steps

variable {state : Pool} {pid : Nat} {before : Process} {after : Store}

variable {next : Option Process}

/-- A step that changes what is known of no other delivery. -/
theorem keeps_of_own (holds : settlementOutline.Holds state)
    (running : state.process? pid = some before) (orderly : after.Orderly)
    (rows : ∀ id, (state.shared.delivery? id).isSome → (after.delivery? id).isSome)
    (jobs : ∀ id, before.worksOn ≠ some id → state.shared.Unqueued id → after.Unqueued id)
    (answers : ∀ id, before.worksOn ≠ some id → after.answered id = state.shared.answered id)
    (own : ∀ later, next = some later → later.Knows after)
    (works : ∀ later, next = some later → ∀ id, later.worksOn = some id →
      before.worksOn = some id ∨ state.shared.delivery? id = none) :
    settlementOutline.Keeps state pid after next where
  global := orderly
  own := own
  others other point different runs := by
    have knows : point.Knows state.shared := holds.locals other point runs
    have apart := holds.apart pid other before point (Ne.symm different) running runs
    refine knows.frame rows ?_ ?_
    · exact fun id on unqueued => jobs id (fun same => apart id ⟨same, on⟩) unqueued
    · exact fun id on => answers id fun same => apart id ⟨same, on⟩
  apart later other right goes different runs := by
    rintro id ⟨on, onRight⟩
    obtain same | absent := works later goes id on
    · exact holds.apart pid other before right (Ne.symm different) running runs id ⟨same, onRight⟩
    · have knows : right.Knows state.shared := holds.locals other right runs
      have known := knows.known id onRight
      rw [absent] at known
      cases known

variable {id : DeliveryId}

theorem keeps_works (holds : settlementOutline.Holds state)
    (running : state.process? pid = some before) {effect : Effect} (on : before.worksOn = some id)
    (unsure : before.recordsSuccess = false)
    (effects : effect = .skip ∨ ∃ change, effect = .update id change)
    (changed : after = effect.apply state.shared ∨ after = state.shared)
    (within_ : ∀ later ∈ next, later.Within (some id)) :
    settlementOutline.Keeps state pid after next := by
  have orderly : state.shared.Orderly := holds.global
  have rows : ∀ other, (state.shared.delivery? other).isSome → (after.delivery? other).isSome := by
    intro other known
    obtain rfl | rfl := changed
    · exact Store.known_apply orderly.numbered effect known
    · exact known
  have numbered : after.Numbered := by
    obtain rfl | rfl := changed
    · apply orderly.numbered.apply
      rintro data rfl
      simp at effects
    · exact orderly.numbered
  have same : after.queue = state.shared.queue ∧ after.posts = state.shared.posts := by
    obtain rfl | rfl := changed
    · obtain rfl | ⟨change, rfl⟩ := effects <;> exact ⟨rfl, rfl⟩
    · exact ⟨rfl, rfl⟩
  have jobs : ∀ other, state.shared.Unqueued other → after.Unqueued other := by
    intro other unqueued
    unfold Store.Unqueued
    rw [same.1]
    exact unqueued
  have knows : before.Knows after :=
    (holds.locals pid before running).frame rows (fun other _ => jobs other)
      (fun other _ => answered_of_posts same.2 other)
  apply keeps_of_own holds running
  · exact orderly.rows numbered same.1 same.2 rows
  · exact rows
  · exact fun other _ => jobs other
  · exact fun other _ => answered_of_posts same.2 other
  · exact fun later goes => knows.goTo on unsure (within_ later goes)
  · intro later goes other onLater
    obtain idle | works := (within_ later goes).1
    · rw [idle] at onLater
      cases onLater
    · exact .inl (on.trans (works.symm.trans onLater))

theorem keeps_posts (holds : settlementOutline.Holds state)
    (running : state.process? pid = some before) {isRetry : Bool} {answer : Answer}
    {later : Process} (on : before.worksOn = some id) (unsure : before.recordsSuccess = false)
    (next : later.worksOn = some id ∧ (answer.any isSuccess = true → later.recordsSuccess = true)) :
    settlementOutline.Keeps state pid ((Effect.post ⟨id, isRetry, answer⟩).apply state.shared)
      (some later) := by
  have orderly : state.shared.Orderly := holds.global
  have knows : before.Knows state.shared := holds.locals pid before running
  apply keeps_of_own holds running
  · exact orderly.post (knows.known id on) (knows.unqueued id on) (knows.unanswered id on unsure)
  · exact fun other known => known
  · exact fun other _ unqueued => unqueued
  · intro other apart
    rw [Store.answered_post]
    have unlike : ¬ id = other := fun same => apart (on.trans (congrArg some same))
    simp [unlike]
  · rintro _ ⟨⟩
    constructor
    · intro other onLater
      exact knows.known other (on.trans (next.1.symm.trans onLater))
    · intro other onLater
      exact knows.unqueued other (on.trans (next.1.symm.trans onLater))
    · intro other onLater unsureLater
      obtain rfl : id = other := Option.some.inj (next.1.symm.trans onLater)
      have none : answer.any isSuccess = false := by
        cases success : answer.any isSuccess with
        | false => rfl
        | true => exact absurd (next.2 success) (by simp [unsureLater])
      rw [Store.answered_post, knows.unanswered id on unsure]
      simp [Post.succeeded, none]
  · rintro _ ⟨⟩ other onLater
    exact .inl (on.trans (next.1.symm.trans onLater))

/-- A step that stays on its delivery while a success is recorded, or that leaves it. -/
theorem keeps_records (holds : settlementOutline.Holds state)
    (running : state.process? pid = some before) {effect : Effect} (on : before.worksOn = some id)
    (effects : effect = .skip ∨ ∃ change, effect = .update id change)
    (goes : ∀ later ∈ next, later.worksOn = none ∨
      (later.worksOn = some id ∧ later.recordsSuccess = true)) :
    settlementOutline.Keeps state pid (effect.apply state.shared) next := by
  have orderly : state.shared.Orderly := holds.global
  have knows : before.Knows state.shared := holds.locals pid before running
  have rows : ∀ other, (state.shared.delivery? other).isSome →
      ((effect.apply state.shared).delivery? other).isSome :=
    fun other known => Store.known_apply orderly.numbered effect known
  have same : (effect.apply state.shared).queue = state.shared.queue ∧
      (effect.apply state.shared).posts = state.shared.posts := by
    obtain rfl | ⟨change, rfl⟩ := effects <;> exact ⟨rfl, rfl⟩
  have jobs : ∀ other, state.shared.Unqueued other →
      (effect.apply state.shared).Unqueued other := by
    intro other unqueued
    unfold Store.Unqueued
    rw [same.1]
    exact unqueued
  apply keeps_of_own holds running
  · apply orderly.rows _ same.1 same.2 rows
    apply orderly.numbered.apply
    rintro data rfl
    simp at effects
  · exact rows
  · exact fun other _ => jobs other
  · exact fun other _ => answered_of_posts same.2 other
  · intro later next
    obtain idle | ⟨works, sure⟩ := goes later next
    · exact .none idle
    · constructor
      · exact fun other onLater => rows other (knows.known other
          (on.trans (works.symm.trans onLater)))
      · exact fun other onLater => jobs other (knows.unqueued other
          (on.trans (works.symm.trans onLater)))
      · intro other _ unsure
        rw [sure] at unsure
        cases unsure
  · intro later next other onLater
    obtain idle | ⟨works, _⟩ := goes later next
    · rw [idle] at onLater
      cases onLater
    · exact .inl (on.trans (works.symm.trans onLater))

theorem keeps_inserts (holds : settlementOutline.Holds state)
    (running : state.process? pid = some before) {draft : Draft}
    (goes : ∀ later ∈ next, later.worksOn = some state.shared.nextDelivery) :
    settlementOutline.Keeps state pid ((Effect.insert draft).apply state.shared) next := by
  have orderly : state.shared.Orderly := holds.global
  have numbered := orderly.numbered
  have rows : ∀ other, (state.shared.delivery? other).isSome →
      (((Effect.insert draft).apply state.shared).delivery? other).isSome :=
    fun other known => Store.known_apply numbered _ known
  have fresh := numbered.fresh
  apply keeps_of_own holds running
  · exact orderly.rows (numbered.apply (by rintro data ⟨⟩)) rfl rfl rows
  · exact rows
  · exact fun other _ unqueued => unqueued
  · exact fun other _ => rfl
  · intro later next
    have works := goes later next
    constructor
    · intro other onLater
      obtain rfl := Option.some.inj (works.symm.trans onLater)
      simp [Store.delivery?_insert numbered]
    · intro other onLater job inside _ same
      obtain rfl := Option.some.inj (works.symm.trans onLater)
      exact Nat.ne_of_lt (numbered.lt (numbered.known job inside)) same
    · intro other onLater _
      obtain rfl := Option.some.inj (works.symm.trans onLater)
      apply any_eq_false.mpr
      intro post sent
      have below := numbered.lt (orderly.posts post sent)
      simp [Nat.ne_of_lt below]
  · intro later next other onLater
    obtain rfl := Option.some.inj ((goes later next).symm.trans onLater)
    exact .inr fresh

theorem keeps_adds (holds : settlementOutline.Holds state)
    (running : state.process? pid = some before) {data : JobData}
    (on : before.worksOn = some data.deliveryId) (unsure : before.recordsSuccess = false)
    (goes : ∀ later ∈ next, later.Within none) :
    settlementOutline.Keeps state pid ((Effect.addJob data).apply state.shared) next := by
  have orderly : state.shared.Orderly := holds.global
  have knows : before.Knows state.shared := holds.locals pid before running
  have idle : ∀ later, next = some later → later.worksOn = none := by
    intro later next
    obtain idle | idle := (goes later next).1 <;> exact idle
  apply keeps_of_own holds running
  · exact orderly.addJob (knows.known _ on) (knows.unqueued _ on) (knows.unanswered _ on unsure)
  · exact fun other known => known
  · intro other apart unqueued
    exact Store.unqueued_addJob orderly.numbered
      (fun same => apart (on.trans (congrArg some same.symm))) unqueued
  · exact fun other _ => rfl
  · exact fun later next => .none (idle later next)
  · intro later next other onLater
    rw [idle later next] at onLater
    cases onLater

/-- A step of a process that works on no delivery, or one without effect after which it works on
none. -/
theorem keeps_rests (holds : settlementOutline.Holds state)
    (running : state.process? pid = some before) {effect : Effect} {next : Option Process}
    (effects : effect = .skip ∨
      ∃ id token, effect = .completeJob id token ∨ effect = .failJob id token)
    (idle : ∀ later ∈ next, later.Within none) :
    settlementOutline.Keeps state pid (effect.apply state.shared) next := by
  have orderly : state.shared.Orderly := holds.global
  have rests : ∀ later, next = some later → later.worksOn = none := by
    intro later next
    obtain rests | rests := (idle later next).1 <;> exact rests
  obtain ⟨queue, nextToken, same, waiting⟩ : ∃ queue nextToken, effect.apply state.shared =
      { state.shared with queue := queue, nextToken := nextToken } ∧
        ∀ job ∈ queue.jobs, awaits job = true → job ∈ state.shared.queue.jobs := by
    obtain rfl | ⟨id, token, ends⟩ := effects
    · exact ⟨_, _, rfl, fun job inside _ => inside⟩
    · obtain ⟨queue, endsJob, same⟩ := endsJob_of_effect orderly.numbered ends
      exact ⟨queue, _, same, waiting_of_endsJob endsJob⟩
  have numbered : (effect.apply state.shared).Numbered := by
    apply orderly.numbered.apply
    rintro data rfl
    simp at effects
  rw [same] at numbered ⊢
  apply keeps_of_own holds running
  · exact orderly.queue numbered waiting
  · exact fun other known => known
  · exact fun other _ unqueued job inside waits => unqueued job (waiting job inside waits) waits
  · exact fun other _ => rfl
  · exact fun later next => .none (rests later next)
  · intro later next other onLater
    rw [rests later next] at onLater
    cases onLater

/-- What the condition asks of one step of a process. -/
def Process.Sure (process : Process) (answer : Answer) (ending : Ending) : Prop :=
  (process.recordsSuccess = true → ending = .done) ∧
    (process.sends = true → answer.any isSuccess = true → ending ≠ .lost)

theorem sure_of_records {input : Input Answer}
    (allowed : Pool.Records state (.advance pid input))
    (running : state.process? pid = some before) : before.Sure input.answer input.ending := by
  simp only [Pool.Records, Pool.records, running, Option.all_some, Bool.and_eq_true,
    Bool.or_eq_true, Bool.not_eq_true', decide_eq_true_eq] at allowed
  obtain ⟨recorded, arrived⟩ := allowed
  constructor
  · intro records
    simpa [records] using recorded
  · intro sends success
    simpa [sends, success] using arrived

theorem keeps_of_takes (holds : settlementOutline.Holds state)
    (running : state.process? pid = some before) {answer : Answer} {step : Step}
    (takes : before.Takes state.shared answer step) {ending : Ending}
    (sure : before.Sure answer ending)
    (performed : Statement.perform ⟨step.effect.apply state.shared, step.next, step.thrown⟩
      state.shared ending = (after, next)) : settlementOutline.Keeps state pid after next := by
  cases takes with
  | works on unsure effect goes thrown =>
    apply keeps_works holds running on unsure effect
    · obtain ⟨same, _⟩ | ⟨_, same, _⟩ := Statement.perform_cases performed
      · exact .inl same
      · exact .inr same
    · obtain ⟨_, ⟨_, rfl⟩ | ⟨_, rfl⟩⟩ | ⟨_, _, rfl⟩ := Statement.perform_cases performed
      · exact goes
      · exact thrown
      · exact thrown
  | sends on sending unsure goes thrown =>
    obtain ⟨rfl, ⟨rfl, rfl⟩ | ⟨rfl, rfl⟩⟩ | ⟨rfl, rfl, rfl⟩ := Statement.perform_cases performed
    · exact keeps_posts holds running on unsure ⟨goes.1, fun success => goes.2.trans success⟩
    · exact keeps_posts holds running on unsure
        ⟨thrown.1, fun success => absurd rfl (sure.2 sending success)⟩
    · apply keeps_works holds running on unsure (.inl rfl) (.inr rfl)
      rintro _ ⟨⟩
      exact ⟨.inr thrown.1, thrown.2⟩
  | records on records goes =>
    obtain rfl := sure.1 records
    cases performed
    apply keeps_records holds running on (.inl rfl)
    rintro _ ⟨⟩
    exact .inr goes
  | settles on records sent goes =>
    obtain rfl := sure.1 records
    cases performed
    apply keeps_records holds running on (.inr ⟨_, rfl⟩)
    intro later next
    obtain idle | idle := (goes later next).1 <;> exact .inl idle
  | inserts on unsure goes =>
    obtain ⟨rfl, ⟨_, rfl⟩ | ⟨_, rfl⟩⟩ | ⟨_, rfl, rfl⟩ := Statement.perform_cases performed
    · apply keeps_inserts holds running
      rintro _ ⟨⟩
      exact goes.1
    · apply keeps_inserts holds running
      rintro _ ⟨⟩
    · apply @keeps_rests state pid before holds running .skip none (.inl rfl)
      rintro _ ⟨⟩
  | adds on unsure effect goes thrown =>
    rw [effect] at performed
    obtain ⟨rfl, ⟨_, rfl⟩ | ⟨_, rfl⟩⟩ | ⟨_, rfl, rfl⟩ := Statement.perform_cases performed
    · exact keeps_adds holds running on unsure goes
    · exact keeps_adds holds running on unsure thrown
    · exact @keeps_rests state pid before holds running .skip _ (.inl rfl) thrown
  | rests on unsure effect goes thrown =>
    have silent : ∀ later ∈ step.thrown, later.Within none := by
      rw [thrown]
      rintro _ ⟨⟩
    obtain ⟨rfl, ⟨_, rfl⟩ | ⟨_, rfl⟩⟩ | ⟨_, rfl, rfl⟩ := Statement.perform_cases performed
    · exact keeps_rests holds running effect goes
    · exact keeps_rests holds running effect silent
    · exact @keeps_rests state pid before holds running .skip _ (.inl rfl) silent

/-! ## The answers along a step -/

theorem Store.status?_update (store : Store) (updated id : DeliveryId) (change : Change) :
    ((Effect.update updated change).apply store).status? id =
      if id = updated then (store.status? id).map fun _ => change.status
      else store.status? id := by
  unfold status?
  rw [delivery?_update]
  split
  · rename_i same
    simp [same, Function.comp_def, Change.apply]
  · rename_i other
    simp

/-- After a step each delivery that is answered is 'sent', or the process that took the step records
its answer, or it was answered before and the step has not to do with it. -/
theorem answers_update (answers : Pool.Answers state) (running : state.process? pid = some before)
    (kept : ∀ id, after.answered id = true → after.status? id = some .sent ∨
      (∃ later, next = some later ∧ later.worksOn = some id ∧ later.recordsSuccess = true) ∨
        (state.shared.answered id = true ∧ after.status? id = state.shared.status? id ∧
          ¬ (before.worksOn = some id ∧ before.recordsSuccess = true))) :
    Pool.Answers (state.update after pid next) := by
  intro id answered
  obtain sent | ⟨later, rfl, records⟩ | ⟨old, same, apart⟩ := kept id answered
  · exact .inl sent
  · exact .inr (PoolState.runs_update running records after)
  · obtain sent | runs := answers id old
    · exact .inl (same.trans sent)
    · obtain own | others := runs.update_cases running after next
      · exact absurd own apart
      · exact .inr others

/-- A step that records no success leaves the deliveries that are answered alone. -/
theorem answers_of_unsure (holds : settlementOutline.Holds state) (answers : Pool.Answers state)
    (running : state.process? pid = some before) (unsure : before.recordsSuccess = false)
    (posts : after.posts = state.shared.posts)
    (statuses : ∀ id, state.shared.answered id = true → before.worksOn ≠ some id →
      after.status? id = state.shared.status? id) : Pool.Answers (state.update after pid next) := by
  apply answers_update answers running
  intro id answered
  rw [answered_of_posts posts] at answered
  have apart : before.worksOn ≠ some id := by
    intro on
    have knows : before.Knows state.shared := holds.locals pid before running
    rw [knows.unanswered id on unsure] at answered
    cases answered
  exact .inr (.inr ⟨answered, statuses id answered apart, by simp [unsure]⟩)

theorem Store.status?_effect (orderly : state.shared.Orderly) {effect : Effect}
    (answered : state.shared.answered id = true) (apart : ∀ change, effect ≠ .update id change) :
    (effect.apply state.shared).status? id = state.shared.status? id := by
  cases effect with
  | insert draft =>
    obtain ⟨post, listed, both⟩ := any_eq_true.mp answered
    simp only [Bool.and_eq_true, decide_eq_true_eq] at both
    have known := orderly.posts post listed
    rw [both.1] at known
    unfold status?
    rw [delivery?_insert orderly.numbered, if_neg (Nat.ne_of_lt (orderly.numbered.lt known))]
  | update updated change =>
    rw [status?_update, if_neg]
    intro same
    exact apart change (by rw [same])
  | skip | post | addJob | completeJob | failJob => rfl

theorem answers_of_takes (holds : settlementOutline.Holds state) (answers : Pool.Answers state)
    (running : state.process? pid = some before) {answer : Answer} {step : Step}
    (takes : before.Takes state.shared answer step) {ending : Ending}
    (sure : before.Sure answer ending)
    (performed : Statement.perform ⟨step.effect.apply state.shared, step.next, step.thrown⟩
      state.shared ending = (after, next)) : Pool.Answers (state.update after pid next) := by
  have orderly : state.shared.Orderly := holds.global
  have knows : before.Knows state.shared := holds.locals pid before running
  cases takes with
  | works on unsure effect goes thrown =>
    have changed := (Statement.perform_cases performed).imp And.left fun failed => failed.2.1
    apply answers_of_unsure holds answers running unsure
    · obtain rfl | rfl := changed
      · obtain same | ⟨change, same⟩ := effect <;> simp [same, Effect.apply]
      · rfl
    · intro id answered apart
      obtain rfl | rfl := changed
      · apply Store.status?_effect orderly answered
        intro change same
        obtain skip | ⟨other, updates⟩ := effect
        · rw [skip] at same
          cases same
        · rw [updates] at same
          cases same
          exact apart on
      · rfl
  | sends on sending unsure goes thrown =>
    obtain ⟨rfl, ⟨rfl, rfl⟩ | ⟨rfl, rfl⟩⟩ | ⟨rfl, rfl, rfl⟩ := Statement.perform_cases performed
    · apply answers_update answers running
      intro other answered
      rw [Store.answered_post, Bool.or_eq_true] at answered
      obtain old | new := answered
      · exact .inr (.inr ⟨old, rfl, by simp [unsure]⟩)
      · simp only [Post.succeeded, Bool.and_eq_true, decide_eq_true_eq] at new
        exact .inr (.inl ⟨_, rfl, new.1 ▸ goes.1, goes.2.trans new.2⟩)
    · apply answers_update answers running
      intro other answered
      rw [Store.answered_post, Bool.or_eq_true] at answered
      obtain old | new := answered
      · exact .inr (.inr ⟨old, rfl, by simp [unsure]⟩)
      · simp only [Post.succeeded, Bool.and_eq_true, decide_eq_true_eq] at new
        exact absurd rfl (sure.2 sending new.2)
    · exact answers_of_unsure holds answers running unsure rfl fun _ _ _ => rfl
  | records on records goes =>
    obtain rfl := sure.1 records
    cases performed
    apply answers_update answers running
    intro other answered
    by_cases same : before.worksOn = some other
    · obtain rfl := Option.some.inj (on.symm.trans same)
      exact .inr (.inl ⟨_, rfl, goes⟩)
    · exact .inr (.inr ⟨answered, rfl, fun both => same both.1⟩)
  | @settles id change _ _ on records sent goes =>
    obtain rfl := sure.1 records
    cases performed
    apply answers_update answers running
    intro other answered
    by_cases same : other = id
    · left
      subst same
      obtain ⟨row, found⟩ := Option.isSome_iff_exists.mp (knows.known other on)
      have present : state.shared.status? other = some row.status := by
        rw [Store.status?, found, Option.map_some]
      have written := Store.status?_update state.shared other other change
      rw [if_pos rfl, present, Option.map_some, sent] at written
      exact written
    · refine .inr (.inr ⟨answered, ?_, ?_⟩)
      · rw [Store.status?_update, if_neg same]
      · exact fun both => same (Option.some.inj (both.1.symm.trans on))
  | @inserts draft later on unsure goes =>
    have posts : ((Effect.insert draft).apply state.shared).posts = state.shared.posts := rfl
    obtain ⟨rfl, _⟩ | ⟨_, rfl, _⟩ := Statement.perform_cases performed
    · apply answers_of_unsure holds answers running unsure posts
      intro other answered _
      exact Store.status?_effect orderly answered (by rintro change ⟨⟩)
    · exact answers_of_unsure holds answers running unsure rfl fun _ _ _ => rfl
  | adds on unsure effect goes thrown =>
    rw [effect] at performed
    obtain ⟨rfl, _⟩ | ⟨_, rfl, _⟩ := Statement.perform_cases performed
    · exact answers_of_unsure holds answers running unsure rfl fun _ _ _ => rfl
    · exact answers_of_unsure holds answers running unsure rfl fun _ _ _ => rfl
  | rests on unsure effect goes thrown =>
    have posts : (step.effect.apply state.shared).posts = state.shared.posts := by
      obtain same | ⟨id, token, same | same⟩ := effect <;> simp [same, Effect.apply]
    obtain ⟨rfl, _⟩ | ⟨_, rfl, _⟩ := Statement.perform_cases performed
    · apply answers_of_unsure holds answers running unsure posts
      intro other answered _
      apply Store.status?_effect orderly answered
      rintro change same
      rw [same] at effect
      simp at effect
    · exact answers_of_unsure holds answers running unsure rfl fun _ _ _ => rfl

end Steps

/-! ## What begins from outside -/

section Starts

variable {state : Pool} {after : Store} {process : Option Process}

theorem free_of_isFree {id : DeliveryId} (free : Pool.isFree state id = true) :
    state.shared.answered id = false ∧ state.shared.Unqueued id ∧
      ∀ pid running, state.process? pid = some running → running.worksOn ≠ some id := by
  simp only [Pool.isFree, Bool.and_eq_true, Bool.not_eq_true', all_eq_true] at free
  obtain ⟨⟨unanswered, unqueued⟩, idle⟩ := free
  refine ⟨unanswered, ?_, ?_⟩
  · intro job inside waits same
    have other := unqueued job inside
    simp [waits, same] at other
  · intro pid running runs
    exact of_decide_eq_true (PoolState.every_apply idle runs)

/-- A start after which every process still knows what it knew. -/
theorem keeps_of_start (holds : settlementOutline.Holds state) (orderly : after.Orderly)
    (rows : ∀ id, (state.shared.delivery? id).isSome → (after.delivery? id).isSome)
    (posts : after.posts = state.shared.posts)
    (jobs : ∀ pid running id, state.process? pid = some running → running.worksOn = some id →
      state.shared.Unqueued id → after.Unqueued id)
    (own : ∀ begun, process = some begun → begun.Knows after)
    (apart : ∀ begun id pid running, process = some begun → begun.worksOn = some id →
      state.process? pid = some running → running.worksOn ≠ some id) :
    settlementOutline.Keeps state state.processes.length after process where
  global := orderly
  own := own
  others other point _ runs := by
    have knows : point.Knows state.shared := holds.locals other point runs
    exact knows.frame rows (fun id on => jobs other point id runs on)
      fun id _ => answered_of_posts posts id
  apart begun other right goes _ runs := by
    rintro id ⟨on, onRight⟩
    exact apart begun id other right goes on runs onRight

/-- A start of a process on no delivery. -/
theorem keeps_of_idle (holds : settlementOutline.Holds state)
    (idle : ∀ begun ∈ process, begun.worksOn = none) :
    settlementOutline.Keeps state state.processes.length state.shared process := by
  apply keeps_of_start holds holds.global (fun _ known => known) rfl
    (fun _ _ _ _ _ unqueued => unqueued)
  · exact fun begun goes => .none (idle begun goes)
  · intro begun id pid running goes on
    rw [idle begun goes] at on
    cases on

/-- A start of a process on a free delivery. -/
theorem keeps_of_free (holds : settlementOutline.Holds state) {begun : Process}
    {id : DeliveryId} (on : begun.worksOn = some id) (known : (state.shared.delivery? id).isSome)
    (free : Pool.isFree state id = true) :
    settlementOutline.Keeps state state.processes.length state.shared (some begun) := by
  obtain ⟨unanswered, unqueued, idle⟩ := free_of_isFree free
  apply keeps_of_start holds holds.global (fun _ known => known) rfl
    (fun _ _ _ _ _ unqueued => unqueued)
  · rintro _ ⟨⟩
    constructor
    · rintro other onOther
      rwa [← Option.some.inj (on.symm.trans onOther)]
    · rintro other onOther
      rwa [← Option.some.inj (on.symm.trans onOther)]
    · rintro other onOther _
      rwa [← Option.some.inj (on.symm.trans onOther)]
  · rintro _ other pid running ⟨⟩ onOther runs
    rw [← Option.some.inj (on.symm.trans onOther)]
    exact idle pid running runs

theorem eq_of_id (numbered : state.shared.Numbered) {first second : Job JobId JobData}
    (inFirst : first ∈ state.shared.queue.jobs) (inSecond : second ∈ state.shared.queue.jobs)
    (same : first.id = second.id) : first = second :=
  inj_on_of_nodup_map numbered.distinct inFirst inSecond same

/-- The worker takes a waiting job. -/
theorem keeps_take (holds : settlementOutline.Holds state) {job : Job JobId JobData}
    {token nextToken : Nat} {begun : Process} (inside : job ∈ state.shared.queue.jobs)
    (waiting : job.state = .waiting) (on : begun.worksOn = some job.data.deliveryId) :
    settlementOutline.Keeps state state.processes.length
      { state.shared with
        queue := state.shared.queue.move job.id .waiting (.active token)
        nextToken := nextToken } (some begun) := by
  have orderly : state.shared.Orderly := holds.global
  have waits : awaits job = true := by simp [awaits, waiting]
  have still : ∀ other ∈ (state.shared.queue.move job.id .waiting (.active token)).jobs,
      awaits other = true → other ∈ state.shared.queue.jobs ∧ other ≠ job := by
    intro other member waitsOther
    obtain ⟨old, apart⟩ | ⟨moved, _, _, _, rfl⟩ := JobQueue.mem_move member
    · exact ⟨old, fun same => apart ⟨by rw [same], by rw [same, waiting]⟩⟩
    · simp [awaits] at waitsOther
  apply keeps_of_start holds
  · apply orderly.queue (orderly.numbered.moveJob job.id .waiting (.active token) nextToken)
    exact fun other member waitsOther => (still other member waitsOther).1
  · exact fun _ known => known
  · rfl
  · exact fun pid running id runs _ unqueued other member waitsOther =>
      unqueued other (still other member waitsOther).1 waitsOther
  · rintro _ ⟨⟩
    constructor
    · intro id onId
      rw [← Option.some.inj (on.symm.trans onId)]
      exact orderly.numbered.known job inside
    · intro id onId other member waitsOther same
      obtain ⟨old, unlike⟩ := still other member waitsOther
      rw [← Option.some.inj (on.symm.trans onId)] at same
      exact unlike (orderly.alone other old job inside waitsOther waits same)
    · intro id onId _
      rw [← Option.some.inj (on.symm.trans onId)]
      exact orderly.unanswered job inside waits
  · rintro _ id pid running ⟨⟩ onId runs onRunning
    have knows : running.Knows state.shared := holds.locals pid running runs
    exact knows.unqueued id onRunning job inside waits (Option.some.inj (on.symm.trans onId))

/-- A delayed job, or a job of a free delivery, is put among the waiting ones. -/
theorem keeps_await (holds : settlementOutline.Holds state) {id : JobId} {source : JobState}
    (free : ∀ job ∈ state.shared.queue.jobs, job.id = id → job.state = source →
      awaits job = true ∨ Pool.isFree state job.data.deliveryId = true) :
    settlementOutline.Keeps state state.processes.length
      { state.shared with queue := state.shared.queue.move id source .waiting } none := by
  have orderly : state.shared.Orderly := holds.global
  have numbered := orderly.numbered.moveJob id source .waiting state.shared.nextToken
  -- A waiting job was one before, or its delivery was free.
  have before : ∀ job ∈ (state.shared.queue.move id source .waiting).jobs, awaits job = true →
      ∃ old ∈ state.shared.queue.jobs, old.id = job.id ∧ old.data = job.data ∧
        (awaits old = true ∨ old.id = id ∧ Pool.isFree state job.data.deliveryId = true) := by
    intro job member waits
    obtain ⟨old, _⟩ | ⟨old, inside, named, from_, rfl⟩ := JobQueue.mem_move member
    · exact ⟨job, old, rfl, rfl, .inl waits⟩
    · exact ⟨old, inside, rfl, rfl, (free old inside named from_).imp_right (.intro named)⟩
  apply keeps_of_start holds
  · refine ⟨numbered, ?_, ?_, orderly.posts, orderly.unrepeated⟩
    · intro first inFirst second inSecond waitsFirst waitsSecond same
      obtain ⟨left, inLeft, leftId, leftData, leftWaits⟩ := before first inFirst waitsFirst
      obtain ⟨right, inRight, rightId, rightData, rightWaits⟩ :=
        before second inSecond waitsSecond
      apply inj_on_of_nodup_map numbered.distinct inFirst inSecond
      rw [← leftId, ← rightId]
      rw [← leftData, ← rightData] at same
      obtain waits | ⟨leftNamed, freeLeft⟩ := leftWaits
      · obtain waitsRight | ⟨_, freeRight⟩ := rightWaits
        · rw [orderly.alone left inLeft right inRight waits waitsRight same]
        · rw [← rightData, ← same] at freeRight
          exact absurd rfl ((free_of_isFree freeRight).2.1 left inLeft waits)
      · obtain waitsRight | ⟨rightNamed, _⟩ := rightWaits
        · rw [← leftData, same] at freeLeft
          exact absurd rfl ((free_of_isFree freeLeft).2.1 right inRight waitsRight)
        · rw [leftNamed, rightNamed]
    · intro job member waits
      obtain ⟨old, inside, _, data, waitsOld | ⟨_, free⟩⟩ := before job member waits
      · rw [← data]
        exact orderly.unanswered old inside waitsOld
      · exact (free_of_isFree free).1
  · exact fun _ known => known
  · rfl
  · intro pid running other runs on unqueued job member waits same
    obtain ⟨old, inside, _, data, waitsOld | ⟨_, free⟩⟩ := before job member waits
    · exact unqueued old inside waitsOld (by rw [data, same])
    · rw [same] at free
      exact (free_of_isFree free).2.2 pid running runs on
  · rintro _ ⟨⟩
  · rintro _ _ _ _ ⟨⟩

theorem start_keeps (holds : settlementOutline.Holds state) {begun : Start}
    (allowed : Pool.Records state (.launch begun))
    (started : start state.shared begun = some (after, process)) :
    settlementOutline.Keeps state state.processes.length after process := by
  have orderly : state.shared.Orderly := holds.global
  cases begun with
  | publish event =>
    cases started
    apply keeps_of_idle holds
    rintro _ ⟨⟩
    rfl
  | retry deliveryId =>
    simp only [start] at started
    split at started
    · cases started
    · rename_i delivery found
      cases started
      exact keeps_of_free holds rfl (by simp [found]) allowed
  | resendDelivery deliveryId clientId =>
    simp only [start] at started
    repeat' split at started
    all_goals cases started
    apply keeps_of_idle holds
    rintro _ ⟨⟩
    rfl
  | resend deliveryId =>
    simp only [start] at started
    split at started
    · cases started
    · rename_i delivery found
      split at started
      · cases started
        have named := Store.delivery?_id found
        exact keeps_of_free holds (congrArg some named) (by simp [found]) allowed
      · cases started
  | test webhookId clientId =>
    simp only [start] at started
    repeat' split at started
    all_goals cases started
    apply keeps_of_idle holds
    rintro _ ⟨⟩
    rfl
  | configure webhooks =>
    cases started
    have numbered : Store.Numbered { state.shared with webhooks := webhooks } :=
      ⟨orderly.numbered.deliveries, orderly.numbered.distinct, orderly.numbered.jobs,
        orderly.numbered.once, orderly.numbered.known⟩
    apply keeps_of_start holds (orderly.rows numbered rfl rfl fun _ known => known)
      (fun _ known => known) rfl (fun _ _ _ _ _ unqueued => unqueued)
    · rintro _ ⟨⟩
    · rintro _ _ _ _ ⟨⟩
  | take id =>
    simp only [start] at started
    split at started
    · cases started
    · rename_i job found
      obtain ⟨inside, rfl⟩ := JobQueue.getJob_some found
      split at started
      · rename_i waiting
        cases started
        exact keeps_take holds inside waiting rfl
      · cases started
  | promote id =>
    cases started
    apply keeps_await holds
    intro job inside named delayed
    left
    simp [awaits, delayed]
  | stall id token =>
    cases started
    apply keeps_await holds
    intro job inside named active
    right
    have found : state.shared.queue.getJob id = some job := by
      cases found : state.shared.queue.getJob id with
      | none => exact absurd named (by simpa using find?_eq_none.mp found job inside)
      | some other =>
        obtain ⟨member, same⟩ := JobQueue.getJob_some found
        rw [eq_of_id orderly.numbered member inside (same.trans named.symm)]
    simp only [Pool.Records, Pool.records, found, Option.all_some] at allowed
    exact allowed
  | stallOut id token =>
    cases started
    have ends := JobQueue.endsJob_stallOut state.shared.queue id token keepFailed
    have waiting := waiting_of_endsJob ends
    apply keeps_of_start holds
    · exact orderly.queue (orderly.numbered.endJob ends) waiting
    · exact fun _ known => known
    · rfl
    · exact fun _ _ _ _ _ unqueued job inside waits =>
        unqueued job (waiting job inside waits) waits
    · rintro _ ⟨⟩
    · rintro _ _ _ _ ⟨⟩

/-- What begins from outside changes no row and sends no request. -/
theorem start_rows {store : Store} {begun : Start}
    (started : start store begun = some (after, process)) :
    after.deliveries = store.deliveries ∧ after.posts = store.posts := by
  cases begun <;> simp only [start] at started <;> repeat' split at started
  all_goals cases started
  all_goals exact ⟨rfl, rfl⟩

end Starts

/-! ## Runs -/

theorem answers_step {state after : Pool} {action : PoolAction (Input Answer) Start}
    (holds : settlementOutline.Holds state) (answers : Pool.Answers state)
    (allowed : Pool.Records state action)
    (stepped : notifications.system.step state action = some after) : Pool.Answers after := by
  cases action with
  | launch begun =>
    obtain ⟨shared, process, started, rfl⟩ := ProcessPool.step_launch stepped
    obtain ⟨rows, posts⟩ := start_rows started
    intro id answered
    rw [PoolState.shared_spawn, answered_of_posts posts] at answered
    have same : shared.status? id = state.shared.status? id := by
      simp only [Store.status?, Store.delivery?, rows]
    obtain sent | runs := answers id answered
    · exact .inl (same.trans sent)
    · exact .inr (runs.spawn shared process)
  | advance pid input =>
    obtain ⟨before, shared, process, running, moved, rfl⟩ := ProcessPool.step_advance stepped
    have performed := Option.some.inj moved
    exact answers_of_takes holds answers running (before.step_takes state.shared input.answer)
      (sure_of_records allowed running) performed
  | crash pid =>
    obtain ⟨before, running, rfl⟩ := ProcessPool.step_crash stepped
    have unsure : before.recordsSuccess = false := by
      simpa [Pool.Records, Pool.records, running] using allowed
    exact answers_of_unsure holds answers running unsure rfl fun _ _ _ => rfl

theorem settlement_holds {state : Pool}
    (reachable : notifications.system.Reachable Pool.Records state) :
    settlementOutline.HoldsWith Pool.Answers state := by
  apply ProofOutline.reachable_with reachable
  · intro shared valid
    have empty : shared = .initial shared.webhooks := valid
    rw [empty]
    refine ⟨⟨Store.initial_numbered _, ?_, ?_, ?_, ?_⟩, ?_⟩
    · simp [Store.initial, JobQueue.empty]
    · simp [Store.initial, JobQueue.empty]
    · simp [Store.initial]
    · simp [Store.initial]
    · simp [Pool.Answers, Store.answered, Store.initial]
  · intro state begun shared process holds _ allowed started
    exact start_keeps holds allowed started
  · intro state pid before input shared process holds _ allowed running moved
    exact keeps_of_takes holds running (before.step_takes state.shared input.answer)
      (sure_of_records allowed running) (Option.some.inj moved)
  · exact fun state action after holds answers allowed stepped =>
      answers_step holds answers allowed stepped

/-- In every run in which answers with success are recorded and calls begin on free deliveries, a
delivery that was answered with success is settled. -/
theorem deliveries_settled {state : Pool}
    (reachable : notifications.system.Reachable Pool.Records state) : Pool.Settled state := by
  obtain ⟨holds, answers⟩ := settlement_holds reachable
  constructor
  · exact holds.global.unrepeated
  · intro id answered idle
    obtain sent | ⟨pid, process, running, works, _⟩ := answers id answered
    · exact sent
    · exact absurd ⟨pid, process, running, works⟩ idle

/-! ## Two runs -/

/-- Webhook 1, of client 1, for every event. -/
def sampleWebhook : Webhook where
  id := 1
  clientId := 1
  projectId := 1
  url := "https://example.com/hook"
  events := ["*"]
  isActive := true
  label := none
  retry := ⟨5, [], []⟩

def samplePool : Pool := ⟨.initial [sampleWebhook], []⟩

theorem samplePool_initial : notifications.system.Initial samplePool := ⟨rfl, rfl⟩

/-- A process takes its next steps without failure. -/
def advances (pid count : Nat) : List (PoolAction (Input Answer) Start) :=
  List.replicate count (.advance pid ⟨.done, none⟩)

/-- An event is published, and the worker takes the job of delivery 1 and sends it. -/
def sendsFirst : List (PoolAction (Input Answer) Start) :=
  .launch (.publish ⟨1, "deposit.confirmed", "x"⟩) :: advances 0 3 ++
    .launch (.take 1) :: advances 1 2 ++ [.advance 1 ⟨.done, some 200⟩]

/-- The answer is recorded, and the worker ends its job. -/
theorem deliveries_settled_sample :
    ∃ state : Pool, state.shared.answered 1 = true ∧ Pool.Settled state := by
  obtain ⟨state, reachable, answered⟩ :=
    @TransitionSystem.exists_reachable_of_run _ _ notifications.system Pool.Records _ samplePool
      samplePool_initial (sendsFirst ++ advances 1 3) (fun state => state.shared.answered 1)
      (by decide +kernel)
  exact ⟨state, answered, deliveries_settled reachable⟩

/-- The answer of 200 is not recorded, which is handled as a failure without an answer, and the
automatic retry sends the delivery again. -/
theorem answered_delivery_sent_again :
    ∃ state, notifications.system.Reachable Unrestricted state ∧ ¬ Pool.Settled state := by
  obtain ⟨state, reachable, again⟩ := @TransitionSystem.exists_reachable _ _ notifications.system
    Unrestricted _ samplePool (fun state => state.shared.posts = [⟨1, false, some 200⟩, ⟨1, true,
    some 200⟩]) _ samplePool_initial (sendsFirst ++ [.advance 1 ⟨.failed, none⟩] ++ advances 1 4 ++
    [.launch (.promote 2), .launch (.take 2)] ++ advances 3 2 ++ [.advance 3 ⟨.done, some 200⟩])
    (by decide +kernel)
  refine ⟨state, reachable, fun settled => ?_⟩
  have unrepeated := settled.unrepeated
  rw [again] at unrepeated
  simp [Post.succeeded, isSuccess] at unrepeated

end CryptoVaultHub.Notification
