import CryptoVaultHub.Notification.JobSteps
import CryptoVaultHub.Notification.Settlement

/-!
# Queued deliveries

What comes between the two statements that make a delivery 'queued' and add its job leaves a
delivery that nothing will ever send, and a call of `deliverWebhook` that runs beside a job adds a
second one. Where the statements after the first one succeed, and such calls begin only on
deliveries without a job, each queued delivery has its job, and only one.
-/

namespace CryptoVaultHub.Notification

open TransitionSystem List Option

/-! ## The property -/

/-- A job that waits, is delayed, or runs. -/
def Job.unfinished (job : Job JobId JobData) : Prop := job.state.finished = false

/-- A worker that is past its last write to the row has this job left to end. -/
def Process.Ends (process : Process) (id : JobId) : Prop :=
  process.stage = .finishes ∧ process.job?.map Prod.fst = some id

/-- The process has written the row of the delivery and is about to add its job. -/
def Process.Owes (process : Process) (id : DeliveryId) : Prop :=
  process.stage = .owes ∧ process.delivery? = some id

/-- A queued delivery has a job, or one that a running process is about to add, and no delivery has
two jobs, apart from one that its worker is about to end. -/
structure Pool.Carried (state : Pool) : Prop where
  queued : ∀ delivery ∈ state.shared.deliveries, delivery.status = .queued →
    (∃ job ∈ state.shared.queue.jobs, Job.unfinished job ∧ job.data.deliveryId = delivery.id) ∨
      state.Runs (fun process => process.Owes delivery.id)
  single : ∀ first ∈ state.shared.queue.jobs, ∀ second ∈ state.shared.queue.jobs,
    Job.unfinished first → Job.unfinished second →
      first.data.deliveryId = second.data.deliveryId → first = second ∨
        state.Runs (fun process => process.Ends first.id) ∨
          state.Runs (fun process => process.Ends second.id)

/-! ## Its condition -/

/-- No unfinished job of the delivery is in the queue, except the given one. -/
def Store.noJobBut (store : Store) (id : DeliveryId) (own : Option JobId) : Bool :=
  store.queue.jobs.all fun job =>
    job.state.finished || job.data.deliveryId ≠ id || some job.id = own

/-- No unfinished job and no process has to do with the delivery. -/
def Pool.isIdle (state : Pool) (id : DeliveryId) : Bool :=
  state.shared.noJobBut id none && state.every fun _ process => process.delivery? ≠ some id

/-- No process runs the job. -/
def Pool.abandoned (state : Pool) (id : JobId) : Bool :=
  state.every fun _ process => (process.job?.map Prod.fst) ≠ some id

/-- A worker stops before the end of its job is recorded; no other job of the delivery waits. -/
def Store.mayStop (store : Store) (process : Process) : Bool :=
  process.stage = .finishes && process.delivery?.all fun id =>
    store.noJobBut id (process.job?.map Prod.fst)

/-- A retry by hand and a resend of a dead letter begin on an idle delivery, a job is put back or
given up when its worker has stopped, and given up only if its delivery is not queued; no statement
outside the try block of `deliverWebhook` fails, and no process stops between its two writes. -/
def Pool.carries (state : Pool) : PoolAction (Input Answer) Start → Bool
  | .launch (.retry id) | .launch (.resend id) => Pool.isIdle state id
  | .launch (.stall id _) => Pool.abandoned state id
  | .launch (.stallOut id _) =>
    Pool.abandoned state id && (state.shared.queue.getJob id).all fun job =>
      state.shared.deliveries.all fun delivery =>
        delivery.id ≠ job.data.deliveryId || delivery.status ≠ .queued
  | .launch _ => true
  | .advance pid input => (state.process? pid).all fun process =>
    process.permits input.ending || (input.ending = .failed && state.shared.mayStop process)
  | .crash pid => (state.process? pid).all fun process =>
    (process.stage ≠ .owes && process.stage ≠ .finishes) || state.shared.mayStop process

@[reducible] def Pool.Carries (state : Pool) (action : PoolAction (Input Answer) Start) : Prop :=
  Pool.carries state action = true

/-! ## The outline -/

/-- What a process relies on: its row exists, its job is locked with its token, and a call without
a job works on a delivery that has none and is not queued. -/
structure Process.Relies (store : Store) (process : Process) : Prop where
  known : ∀ id, process.delivery? = some id → (store.delivery? id).isSome
  holds : ∀ id token, process.job? = some (id, token) → ∃ job ∈ store.queue.jobs,
    job.id = id ∧ job.state = .active token ∧ process.delivery? = some job.data.deliveryId
  alone : process.job? = none → ∀ id, process.delivery? = some id →
    ∀ job ∈ store.queue.jobs, Job.unfinished job → job.data.deliveryId ≠ id
  unqueued : process.job? = none → process.stage = .works → ∀ id, process.delivery? = some id →
    ∀ delivery, store.delivery? id = some delivery → delivery.status ≠ .queued

/-- Two processes work on one delivery only when one of them has its job left to end, and no job has
two workers. -/
structure Process.Separate (first second : Process) : Prop where
  deliveries : first.stage ≠ .finishes → second.stage ≠ .finishes →
    ∀ id, first.delivery? = some id → second.delivery? ≠ some id
  jobs : ∀ id token other, first.job? = some (id, token) → second.job? ≠ some (id, other)

def carriageOutline : ProofOutline Store Process where
  Global := Store.Numbered
  Local := Process.Relies
  Apart := Process.Separate
  apart_symm := by
    rintro first second ⟨deliveries, jobs⟩
    constructor
    · intro later earlier id onSecond onFirst
      exact deliveries earlier later id onFirst onSecond
    · intro id token other ofSecond ofFirst
      exact jobs id other token ofFirst ofSecond

/-- The delivery has a job that is not about to end, or one that is about to be added. -/
def Pool.Carrier (state : Pool) (id : DeliveryId) : Prop :=
  (∃ job ∈ state.shared.queue.jobs, Job.unfinished job ∧ job.data.deliveryId = id ∧
    ¬ state.Runs (fun process => process.Ends job.id)) ∨
      state.Runs (fun process => process.Owes id)

/-- Every queued delivery has a carrier, and of two jobs of a delivery one is about to end. -/
structure Pool.Covered (state : Pool) : Prop where
  queued : ∀ delivery ∈ state.shared.deliveries, delivery.status = .queued →
    Pool.Carrier state delivery.id
  single : ∀ first ∈ state.shared.queue.jobs, ∀ second ∈ state.shared.queue.jobs,
    Job.unfinished first → Job.unfinished second →
      first.data.deliveryId = second.data.deliveryId → first.id = second.id ∨
        state.Runs (fun process => process.Ends first.id) ∨
          state.Runs (fun process => process.Ends second.id)

variable {store : Store} {process later : Process}

theorem Process.job?_of_finishes (finishes : process.stage = .finishes) : process.job? ≠ none := by
  intro hand
  cases process with
  | deliver call point =>
    have source : call.source.job? = none := hand
    cases point <;> simp [stage, source] at finishes
  | createDeliveries point | resendDelivery point | resend point | testWebhook point =>
    cases point <;> cases finishes

theorem Process.Idle.relies (idle : process.Idle) : process.Relies store := by
  constructor <;> simp [idle.delivery, idle.job]

/-- A later point of the same process on the same delivery. -/
theorem Process.Relies.goTo (relies : process.Relies store)
    (delivery : later.delivery? = process.delivery?) (job : later.job? = process.job?)
    (unqueued : later.job? = none → later.stage = .works → ∀ id, process.delivery? = some id →
      ∀ row, store.delivery? id = some row → row.status ≠ .queued) : later.Relies store where
  known id on := relies.known id (delivery.symm.trans on)
  holds id token runs := by
    rw [delivery]
    exact relies.holds id token (job.symm.trans runs)
  alone hand id on := relies.alone (job.symm.trans hand) id (delivery.symm.trans on)
  unqueued hand works id on := unqueued hand works id (delivery.symm.trans on)

/-- What a process relies on, after a change of the rows. -/
theorem Process.Relies.update (relies : process.Relies store) (numbered : store.Numbered)
    {id : DeliveryId} {change : Change}
    (apart : process.job? = none → process.stage = .works → process.delivery? = some id →
      change.status ≠ .queued) :
    process.Relies ((Effect.update id change).apply store) where
  known other on := Store.known_apply numbered _ (relies.known other on)
  holds := relies.holds
  alone := relies.alone
  unqueued hand works other on delivery found := by
    rw [Store.delivery?_update] at found
    obtain ⟨old, before, rfl⟩ := map_eq_some_iff.mp found
    split
    · rename_i same
      exact apart hand works (same ▸ on)
    · exact relies.unqueued hand works other on old before

theorem Process.Relies.insert (relies : process.Relies store) (numbered : store.Numbered)
    (draft : Draft) : process.Relies ((Effect.insert draft).apply store) where
  known other on := Store.known_apply numbered _ (relies.known other on)
  holds := relies.holds
  alone := relies.alone
  unqueued hand works other on delivery found := by
    have below := numbered.lt (relies.known other on)
    rw [Store.delivery?_insert numbered, if_neg (Nat.ne_of_lt below)] at found
    exact relies.unqueued hand works other on delivery found

theorem Process.Relies.addJob (relies : process.Relies store) (numbered : store.Numbered)
    {data : JobData}
    (apart : process.job? = none → process.delivery? ≠ some data.deliveryId) :
    process.Relies ((Effect.addJob data).apply store) where
  known := relies.known
  holds id token runs := by
    obtain ⟨job, inside, facts⟩ := relies.holds id token runs
    refine ⟨job, ?_, facts⟩
    rw [numbered.jobs_addJob]
    exact mem_append_left _ inside
  alone hand id on job inside runs := by
    rw [numbered.jobs_addJob] at inside
    obtain old | new := mem_append.mp inside
    · exact relies.alone hand id on job old runs
    · rw [mem_singleton.mp new]
      exact fun same => apart hand (on.trans (congrArg some same.symm))
  unqueued := relies.unqueued

/-- What a process relies on, when a job of another worker is ended. -/
theorem Process.Relies.endJob (relies : process.Relies store) {id : JobId} {token : Nat}
    {queue : JobQueue JobId JobData} (ends : store.queue.EndsJob id token queue)
    (apart : ∀ other, process.job? ≠ some (id, other)) :
    process.Relies { store with queue := queue } where
  known := relies.known
  holds own other runs := by
    obtain ⟨job, inside, named, active, on⟩ := relies.holds own other runs
    refine ⟨job, ends.kept inside (by rw [active]; rfl) ?_, named, active, on⟩
    rintro rfl
    exact apart other (named ▸ runs)
  alone hand other on job inside runs := by
    obtain ⟨old, _⟩ | ⟨final, _⟩ := ends.mem inside
    · exact relies.alone hand other on job old runs
    · rw [Job.unfinished, final] at runs
      cases runs
  unqueued := relies.unqueued

theorem Process.Relies.same {after : Store} (relies : process.Relies store)
    (same : store.Same after) : process.Relies after := by
  obtain ⟨deliveries, _, queue, _⟩ := same
  have rows : ∀ id, after.delivery? id = store.delivery? id := by
    intro id
    simp only [Store.delivery?, deliveries]
  constructor
  · intro id on
    rw [rows]
    exact relies.known id on
  · rw [queue]
    exact relies.holds
  · rw [queue]
    exact relies.alone
  · intro hand works id on delivery
    rw [rows]
    exact relies.unqueued hand works id on delivery

theorem Store.Numbered.same {after : Store} (numbered : store.Numbered)
    (same : store.Same after) : after.Numbered := by
  obtain ⟨deliveries, nextDelivery, queue, nextJob⟩ := same
  constructor
  · rw [deliveries, nextDelivery]
    exact numbered.deliveries
  · rw [queue]
    exact numbered.distinct
  · rw [queue, nextJob]
    exact numbered.jobs
  · rw [queue]
    exact numbered.once
  · rw [queue]
    intro job inside
    simp only [Store.delivery?, deliveries]
    exact numbered.known job inside

/-! ## The steps of a process -/

section Steps

variable {state : Pool} {pid : Nat} {before : Process} {after : Store} {next : Option Process}

/-- A step after which the process is at most where it was. -/
theorem carries_of_stays (holds : carriageOutline.Holds state)
    (running : state.process? pid = some before) (global : after.Numbered)
    (own : ∀ later, next = some later → later.Relies after)
    (others : ∀ point : Process, before.Separate point → point.Relies state.shared →
      point.Relies after)
    (delivery : ∀ later, next = some later → later.stage ≠ .finishes →
      (later.delivery? = before.delivery? ∧ before.stage ≠ .finishes) ∨
        ∀ id, later.delivery? = some id → state.shared.delivery? id = none)
    (job : ∀ later, next = some later → later.job? = before.job? ∨ later.job? = none) :
    carriageOutline.Keeps state pid after next where
  global := global
  own := own
  others other point different runs :=
    others point (holds.apart pid other before point (Ne.symm different) running runs)
      (holds.locals other point runs)
  apart later other right goes different runs := by
    have separate : before.Separate right :=
      holds.apart pid other before right (Ne.symm different) running runs
    constructor
    · intro works worksRight id on onRight
      obtain ⟨same, earlier⟩ | fresh := delivery later goes works
      · exact separate.deliveries earlier worksRight id (same.symm.trans on) onRight
      · have relies : right.Relies state.shared := holds.locals other right runs
        have known := relies.known id onRight
        rw [fresh id on] at known
        cases known
    · intro id token second ofLater
      obtain same | none := job later goes
      · exact separate.jobs id token second (same.symm.trans ofLater)
      · rw [none] at ofLater
        cases ofLater

/-- A process that becomes idle. -/
theorem carries_of_idle (holds : carriageOutline.Holds state)
    (running : state.process? pid = some before) (global : after.Numbered)
    (idle : ∀ later ∈ next, later.Idle)
    (others : ∀ point : Process, before.Separate point → point.Relies state.shared →
      point.Relies after) :
    carriageOutline.Keeps state pid after next := by
  apply carries_of_stays holds running global
  · exact fun later goes => (idle later goes).relies
  · exact others
  · intro later goes _
    right
    intro id on
    rw [(idle later goes).delivery] at on
    cases on
  · exact fun later goes => .inr (idle later goes).job

theorem carries_of_moves (holds : carriageOutline.Holds state)
    (running : state.process? pid = some before)
    (moves : before.Moves state.shared after next) :
    carriageOutline.Keeps state pid after next := by
  have numbered : state.shared.Numbered := holds.global
  have relies : before.Relies state.shared := holds.locals pid before running
  cases moves with
  | goes same delivery job stage =>
    apply carries_of_stays holds running (numbered.same same)
    · rintro _ ⟨⟩
      apply (relies.same same).goTo delivery job
      intro hand works id on
      exact (relies.same same).unqueued (job.symm.trans hand) (stage.symm.trans works) id on
    · exact fun point _ relied => relied.same same
    · rintro _ ⟨⟩ works
      exact .inl ⟨delivery, by rwa [← stage]⟩
    · rintro _ ⟨⟩
      exact .inl job
  | stops same job stage idle =>
    apply carries_of_idle holds running (numbered.same same) idle
    exact fun point _ relied => relied.same same
  | misses on absent =>
    have known := relies.known _ on
    rw [absent] at known
    cases known
  | @settles id change _ on status goes ends =>
    have own : before.Relies ((Effect.update id change).apply state.shared) :=
      relies.update numbered fun _ _ _ => status
    apply carries_of_stays holds running (numbered.apply (by rintro data ⟨⟩))
    · intro later goesTo
      obtain ⟨delivery, job, stage⟩ := goes later goesTo
      apply own.goTo (delivery.trans on.symm) job
      intro hand works other onOther row found
      obtain rfl := Option.some.inj (on.symm.trans onOther)
      rw [Store.delivery?_update] at found
      obtain ⟨old, _, rfl⟩ := map_eq_some_iff.mp found
      simpa [Change.apply] using status
    · exact fun point _ relied => relied.update numbered fun _ _ _ => status
    · intro later goesTo works
      obtain ⟨delivery, job, stage⟩ := goes later goesTo
      obtain same | finishes := stage
      · exact .inl ⟨delivery.trans on.symm, by rwa [← same]⟩
      · exact absurd finishes works
    · exact fun later goesTo => .inl (goes later goesTo).2.1
  | @queues id change _ on works delivery job stage =>
    have unfinished : before.stage ≠ .finishes := by simp [works]
    apply carries_of_stays holds running (numbered.apply (by rintro data ⟨⟩))
    · rintro later ⟨⟩
      by_cases hand : before.job? = none
      · constructor
        · intro other onLater
          exact Store.known_apply numbered _
            (relies.known other (on.trans (delivery.symm.trans onLater)))
        · intro other token runs
          rw [job, hand] at runs
          cases runs
        · intro _ other onLater
          exact relies.alone hand other (on.trans (delivery.symm.trans onLater))
        · intro _ worksLater
          rw [stage, if_pos hand] at worksLater
          cases worksLater
      · have own : before.Relies ((Effect.update id change).apply state.shared) :=
          relies.update numbered fun none => absurd none hand
        apply own.goTo (delivery.trans on.symm) job
        intro none
        exact absurd (job.symm.trans none) hand
    · intro point separate relied
      apply relied.update numbered
      intro _ worksPoint onPoint
      exact absurd onPoint (separate.deliveries unfinished (by simp [worksPoint]) id on)
    · rintro later ⟨⟩ _
      exact .inl ⟨delivery.trans on.symm, unfinished⟩
    · rintro later ⟨⟩
      exact .inl job
  | @inserts draft _ idle delivery job stage =>
    apply carries_of_stays holds running (numbered.apply (by rintro data ⟨⟩))
    · rintro later ⟨⟩
      constructor
      · intro id on
        obtain rfl := Option.some.inj (delivery.symm.trans on)
        simp [Store.delivery?_insert numbered]
      · intro id token runs
        rw [job] at runs
        cases runs
      · intro _ id on other inside _ same
        obtain rfl := Option.some.inj (delivery.symm.trans on)
        exact Nat.ne_of_lt (numbered.lt (numbered.known other inside)) same
      · intro _ works
        rw [stage] at works
        cases works
    · exact fun point _ relied => relied.insert numbered draft
    · rintro later ⟨⟩ _
      right
      intro id on
      obtain rfl := Option.some.inj (delivery.symm.trans on)
      exact numbered.fresh
    · rintro later ⟨⟩
      exact .inr job
  | @adds data _ on owes job idle =>
    apply carries_of_idle holds running _ idle
    · intro point separate relied
      apply relied.addJob numbered
      intro hand
      apply separate.deliveries (by simp [owes]) _ _ on
      exact fun finishes => Process.job?_of_finishes finishes hand
    · apply numbered.apply
      rintro _ ⟨⟩
      exact relies.known _ on
  | @retries data _ on works job runs delivery finishes =>
    have own : before.Relies ((Effect.addJob data).apply state.shared) :=
      relies.addJob numbered fun hand => absurd hand runs
    apply carries_of_stays holds running
    · apply numbered.apply
      rintro _ ⟨⟩
      exact relies.known _ on
    · rintro later ⟨⟩
      apply own.goTo delivery job
      intro _ worksLater
      rw [finishes] at worksLater
      cases worksLater
    · intro point separate relied
      apply relied.addJob numbered
      intro hand
      apply separate.deliveries (by simp [works]) _ _ on
      exact fun ends => Process.job?_of_finishes ends hand
    · rintro later ⟨⟩ unfinished
      exact absurd finishes unfinished
    · rintro later ⟨⟩
      exact .inl job
  | @ends id token effect job stage effects =>
    obtain ⟨queue, endsJob, same⟩ := endsJob_of_effect numbered effects
    rw [same]
    apply carries_of_idle holds running (numbered.endJob endsJob) (by rintro _ ⟨⟩)
    intro point separate relied
    exact relied.endJob endsJob fun other => separate.jobs id token other job

/-- The job of a worker, by its identifier. -/
theorem on_of_job (holds : carriageOutline.Holds state)
    (running : state.process? pid = some before) {job : Job JobId JobData}
    (inside : job ∈ state.shared.queue.jobs) (own : before.job?.map Prod.fst = some job.id) :
    before.delivery? = some job.data.deliveryId := by
  have relies : before.Relies state.shared := holds.locals pid before running
  obtain ⟨⟨id, token⟩, runs, named⟩ := map_eq_some_iff.mp own
  obtain ⟨held, inQueue, same, _, on⟩ := relies.holds id token runs
  rw [eq_of_id holds.global inside inQueue (named.symm.trans same.symm)]
  exact on

/-- A carrier stays when its job stays and is not about to end, or when what is owed stays owed. -/
theorem Pool.Carrier.update {id : DeliveryId} (carrier : Pool.Carrier state id)
    (running : state.process? pid = some before)
    (jobs : ∀ job ∈ state.shared.queue.jobs, Job.unfinished job → ¬ before.Ends job.id →
      job ∈ after.queue.jobs)
    (ends : ∀ job ∈ state.shared.queue.jobs, job.data.deliveryId = id →
      ∀ later, next = some later → later.Ends job.id → before.Ends job.id)
    (owes : before.Owes id → ∃ later, next = some later ∧ later.Owes id) :
    Pool.Carrier (state.update after pid next) id := by
  obtain ⟨job, inside, runs, on, lasting⟩ | owing := carrier
  · left
    refine ⟨job, jobs job inside runs ?_, runs, on, ?_⟩
    · exact fun ending => lasting ⟨pid, before, running, ending⟩
    · intro ending
      obtain ⟨later, goes, finishes⟩ | ⟨other, process, _, foundOther, finishes⟩ :=
        PoolState.runs_of_update running ending
      · exact lasting ⟨pid, before, running, ends job inside on later goes finishes⟩
      · exact lasting ⟨other, process, foundOther, finishes⟩
  · exact .inr (owing.update_of running owes)

/-- The other processes end older jobs. -/
theorem Pool.Carrier.addJob (holds : carriageOutline.Holds state)
    (running : state.process? pid = some before) {data : JobData}
    (old : ∀ later, next = some later → later.job? = before.job? ∨ later.job? = none) :
    Pool.Carrier (state.update ((Effect.addJob data).apply state.shared) pid next)
      data.deliveryId := by
  have numbered : state.shared.Numbered := holds.global
  have older : ∀ other process, state.process? other = some process →
      process.job?.map Prod.fst ≠ some state.shared.nextJob := by
    intro other process runs own
    have relies : process.Relies state.shared := holds.locals other process runs
    obtain ⟨⟨id, token⟩, job, rfl⟩ := map_eq_some_iff.mp own
    obtain ⟨held, inside, same, _⟩ := relies.holds _ token job
    exact Nat.ne_of_lt (numbered.jobs held inside) same
  left
  refine ⟨deliveryJob state.shared.nextJob data, ?_, ?_, rfl, ?_⟩
  · rw [PoolState.shared_update, numbered.jobs_addJob]
    exact mem_append_right _ (mem_singleton_self _)
  · simp only [Job.unfinished, deliveryJob]
    split <;> rfl
  · intro ending
    obtain ⟨later, goes, finishes⟩ | ⟨other, process, _, runs, finishes⟩ :=
      PoolState.runs_of_update running ending
    · obtain same | none := old later goes
      · exact older pid before running (same ▸ finishes.2)
      · have own := finishes.2
        rw [none] at own
        cases own
    · exact older other process runs finishes.2

/-- Where no job is added or ended. -/
theorem Pool.Covered.single_update (covered : Pool.Covered state)
    (running : state.process? pid = some before) (queue : after.queue = state.shared.queue)
    (ends : ∀ id, before.Ends id → ∃ later, next = some later ∧ later.Ends id) :
    ∀ first ∈ (state.update after pid next).shared.queue.jobs,
      ∀ second ∈ (state.update after pid next).shared.queue.jobs,
        Job.unfinished first → Job.unfinished second →
          first.data.deliveryId = second.data.deliveryId → first.id = second.id ∨
            (state.update after pid next).Runs (fun process => process.Ends first.id) ∨
              (state.update after pid next).Runs (fun process => process.Ends second.id) := by
  rw [PoolState.shared_update, queue]
  intro first inFirst second inSecond runsFirst runsSecond on
  obtain same | endsFirst | endsSecond :=
    covered.single first inFirst second inSecond runsFirst runsSecond on
  · exact .inl same
  · exact .inr (.inl (endsFirst.update_of running (ends first.id)))
  · exact .inr (.inr (endsSecond.update_of running (ends second.id)))

/-- A worker's job is live, under its lock. -/
theorem held_of_relies (numbered : store.Numbered) {id : JobId} {token : Nat}
    (relies : process.Relies store) (job : process.job? = some (id, token)) :
    (store.queue.held id token).isSome := by
  obtain ⟨held, inside, named, active, _⟩ := relies.holds id token job
  have found := JobQueue.getJob_of_mem numbered.distinct inside
  rw [named] at found
  simp [JobQueue.held, found, active]

/-- A row that is settled needs no carrier. -/
theorem covered_settles (holds : carriageOutline.Holds state) (covered : Pool.Covered state)
    (running : state.process? pid = some before) {id : DeliveryId} {change : Change}
    (on : before.delivery? = some id) (status : change.status ≠ .queued)
    (goes : ∀ later ∈ next, later.delivery? = some id ∧ later.job? = before.job? ∧
      (later.stage = before.stage ∨ later.stage = .finishes))
    (ends : next = none → before.job? = none) :
    Pool.Covered (state.update ((Effect.update id change).apply state.shared) pid next) := by
  refine ⟨?_, covered.single_update running rfl fun other ending => ?_⟩
  · intro row listed queued
    obtain ⟨old, inside, rfl⟩ := mem_map.mp listed
    by_cases same : old.id = id
    · rw [if_pos same] at queued
      exact absurd queued status
    · rw [if_neg same] at queued ⊢
      apply (covered.queued old inside queued).update running
      · exact fun other inQueue _ _ => inQueue
      · intro other inQueue onOld later goesTo ending
        have own := on_of_job holds running inQueue
          ((congrArg _ (goes later goesTo).2.1.symm).trans ending.2)
        rw [on, onOld] at own
        exact absurd (Option.some.inj own).symm same
      · intro owing
        exact absurd (Option.some.inj (owing.2.symm.trans on)) same
  · cases goesTo : next with
    | none =>
      have none := ending.2
      rw [ends goesTo] at none
      cases none
    | some later =>
      obtain ⟨_, job, stage⟩ := goes later goesTo
      refine ⟨later, rfl, ?_, (congrArg _ job).trans ending.2⟩
      obtain same | finishes := stage
      · exact same.trans ending.1
      · exact finishes

/-- A row that is queued is carried by the job that is being worked on, or owed. -/
theorem covered_queues (holds : carriageOutline.Holds state) (covered : Pool.Covered state)
    (running : state.process? pid = some before) {id : DeliveryId} {change : Change} {later : Process}
    (on : before.delivery? = some id) (works : before.stage = .works)
    (delivery : later.delivery? = some id)
    (stage : later.stage = if before.job? = none then .owes else .works) :
    Pool.Covered (state.update ((Effect.update id change).apply state.shared) pid (some later)) := by
  have relies : before.Relies state.shared := holds.locals pid before running
  have stays : later.stage ≠ .finishes := by
    rw [stage]
    split <;> simp
  refine ⟨?_, covered.single_update running rfl fun other ending => ?_⟩
  · intro row listed queued
    obtain ⟨old, inside, rfl⟩ := mem_map.mp listed
    by_cases same : old.id = id
    · rw [if_pos same, Change.apply_id, same]
      cases own : before.job? with
      | none =>
        right
        refine ⟨pid, later, PoolState.process?_update_self running, ?_, delivery⟩
        rw [stage, if_pos own]
      | some held =>
        obtain ⟨jobId, token⟩ := held
        obtain ⟨held, inQueue, named, active, onHeld⟩ := relies.holds jobId token own
        left
        refine ⟨held, inQueue, ?_, Option.some.inj (onHeld.symm.trans on), ?_⟩
        · rw [Job.unfinished, active]
          rfl
        · intro ending
          obtain ⟨_, ⟨⟩, finishes⟩ | ⟨other, process, different, runs, finishes⟩ :=
            PoolState.runs_of_update running ending
          · exact stays finishes.1
          · obtain ⟨⟨id, second⟩, ofOther, same⟩ := map_eq_some_iff.mp finishes.2
            have separate : before.Separate process :=
              holds.apart pid other before process (Ne.symm different) running runs
            apply separate.jobs jobId token second own
            rw [ofOther, ← named, ← same]
    · rw [if_neg same] at queued ⊢
      apply (covered.queued old inside queued).update running
      · exact fun other inQueue _ _ => inQueue
      · rintro other _ _ _ ⟨⟩ ending
        exact absurd ending.1 stays
      · intro owing
        rw [owing.1] at works
        cases works
  · rw [ending.1] at works
    cases works

theorem covered_inserts (covered : Pool.Covered state)
    (running : state.process? pid = some before) {draft : Draft} {later : Process} (idle : before.Idle)
    (delivery : later.delivery? = some state.shared.nextDelivery) (stage : later.stage = .owes) :
    Pool.Covered (state.update ((Effect.insert draft).apply state.shared) pid (some later)) := by
  refine ⟨?_, covered.single_update running rfl fun other ending => ?_⟩
  · intro row listed queued
    obtain old | new := mem_append.mp listed
    · apply (covered.queued row old queued).update running
      · exact fun other inQueue _ _ => inQueue
      · rintro other _ _ _ ⟨⟩ ending
        rw [ending.1] at stage
        cases stage
      · intro owing
        have rests := idle.stage
        rw [owing.1] at rests
        cases rests
    · rw [mem_singleton.mp new]
      exact .inr ⟨pid, later, PoolState.process?_update_self running, stage, delivery⟩
  · have rests := idle.stage
    rw [ending.1] at rests
    cases rests

theorem covered_adds (holds : carriageOutline.Holds state) (covered : Pool.Covered state)
    (running : state.process? pid = some before) {data : JobData}
    (on : before.delivery? = some data.deliveryId) (owes : before.stage = .owes)
    (job : before.job? = none) (idle : ∀ later ∈ next, later.Idle) :
    Pool.Covered (state.update ((Effect.addJob data).apply state.shared) pid next) := by
  have numbered : state.shared.Numbered := holds.global
  have relies : before.Relies state.shared := holds.locals pid before running
  have jobs := numbered.jobs_addJob data
  constructor
  · intro row listed queued
    by_cases same : row.id = data.deliveryId
    · rw [same]
      exact .addJob holds running fun later goes => .inr (idle later goes).job
    · apply (covered.queued row listed queued).update running
      · intro other inQueue _ _
        rw [jobs]
        exact mem_append_left _ inQueue
      · intro other _ _ later goes ending
        have none := ending.2
        rw [(idle later goes).job] at none
        cases none
      · intro owing
        exact absurd (Option.some.inj (owing.2.symm.trans on)) same
  · rw [PoolState.shared_update, jobs]
    intro first inFirst second inSecond runsFirst runsSecond same
    obtain oldFirst | newFirst := mem_append.mp inFirst
    · obtain oldSecond | newSecond := mem_append.mp inSecond
      · have never : ∀ id, ¬ before.Ends id := by
          intro id ending
          rw [ending.1] at owes
          cases owes
        obtain named | ends | ends :=
          covered.single first oldFirst second oldSecond runsFirst runsSecond same
        · exact .inl named
        · exact .inr (.inl (ends.update_of running fun ending => absurd ending (never _)))
        · exact .inr (.inr (ends.update_of running fun ending => absurd ending (never _)))
      · rw [mem_singleton.mp newSecond] at same
        exact absurd same (relies.alone job _ on first oldFirst runsFirst)
    · obtain oldSecond | newSecond := mem_append.mp inSecond
      · rw [mem_singleton.mp newFirst] at same
        exact absurd same.symm (relies.alone job _ on second oldSecond runsSecond)
      · rw [mem_singleton.mp newFirst, mem_singleton.mp newSecond]
        exact .inl rfl

/-- The job of an automatic retry is the second one of its delivery while the first is about to end. -/
theorem covered_retries (holds : carriageOutline.Holds state) (covered : Pool.Covered state)
    (running : state.process? pid = some before) {data : JobData} {later : Process}
    (on : before.delivery? = some data.deliveryId) (works : before.stage = .works)
    (job : later.job? = before.job?) (runs : before.job? ≠ none)
    (finishes : later.stage = .finishes) :
    Pool.Covered (state.update ((Effect.addJob data).apply state.shared) pid (some later)) := by
  have numbered : state.shared.Numbered := holds.global
  have relies : before.Relies state.shared := holds.locals pid before running
  have jobs := numbered.jobs_addJob data
  have never : ∀ id, ¬ before.Ends id := by
    intro id ending
    rw [ending.1] at works
    cases works
  obtain ⟨⟨own, token⟩, held⟩ := ne_none_iff_exists'.mp runs
  -- An older unfinished job of the delivery is the worker's own, or is about to end.
  have older : ∀ old ∈ state.shared.queue.jobs, Job.unfinished old →
      old.data.deliveryId = data.deliveryId →
        (state.update ((Effect.addJob data).apply state.shared) pid (some later)).Runs
          fun process => process.Ends old.id := by
    intro old inside unfinished onOld
    obtain ⟨mine, inQueue, named, active, onMine⟩ := relies.holds own token held
    have same : old.data.deliveryId = mine.data.deliveryId :=
      onOld.trans (Option.some.inj (on.symm.trans onMine))
    have ends : later.Ends own := ⟨finishes, by rw [job, held]; rfl⟩
    have unfinishedMine : Job.unfinished mine := by
      rw [Job.unfinished, active]
      rfl
    obtain same | ending | ⟨other, process, found, ending⟩ :=
      covered.single old inside mine inQueue unfinished unfinishedMine same
    · rw [same, named]
      exact ⟨pid, later, PoolState.process?_update_self running, ends⟩
    · exact ending.update_of running fun ending => absurd ending (never _)
    · obtain ⟨⟨id, second⟩, ofOther, sameId⟩ := map_eq_some_iff.mp ending.2
      by_cases acting : other = pid
      · subst acting
        cases running.symm.trans found
        exact absurd ending (never _)
      · have separate : before.Separate process :=
          holds.apart pid other before process (Ne.symm acting) running found
        have apart := separate.jobs own token second held
        rw [ofOther, ← named, ← sameId] at apart
        exact absurd rfl apart
  constructor
  · intro row listed queued
    by_cases same : row.id = data.deliveryId
    · rw [same]
      apply Pool.Carrier.addJob holds running
      rintro _ ⟨⟩
      exact .inl job
    · apply (covered.queued row listed queued).update running
      · intro other inQueue _ _
        rw [jobs]
        exact mem_append_left _ inQueue
      · rintro other inQueue onRow _ ⟨⟩ ending
        have mine := on_of_job holds running inQueue ((congrArg _ job.symm).trans ending.2)
        rw [on, onRow] at mine
        exact absurd (Option.some.inj mine).symm same
      · intro owing
        exact absurd (Option.some.inj (owing.2.symm.trans on)) same
  · rw [PoolState.shared_update, jobs]
    intro first inFirst second inSecond runsFirst runsSecond same
    obtain oldFirst | newFirst := mem_append.mp inFirst
    · obtain oldSecond | newSecond := mem_append.mp inSecond
      · obtain named | ends | ends :=
          covered.single first oldFirst second oldSecond runsFirst runsSecond same
        · exact .inl named
        · exact .inr (.inl (ends.update_of running fun ending => absurd ending (never _)))
        · exact .inr (.inr (ends.update_of running fun ending => absurd ending (never _)))
      · rw [mem_singleton.mp newSecond] at same
        exact .inr (.inl (older first oldFirst runsFirst same))
    · obtain oldSecond | newSecond := mem_append.mp inSecond
      · rw [mem_singleton.mp newFirst] at same
        exact .inr (.inr (older second oldSecond runsSecond same.symm))
      · rw [mem_singleton.mp newFirst, mem_singleton.mp newSecond]
        exact .inl rfl

theorem covered_ends (holds : carriageOutline.Holds state) (covered : Pool.Covered state)
    (running : state.process? pid = some before) {id : JobId} {token : Nat} {effect : Effect}
    (job : before.job? = some (id, token)) (stage : before.stage = .finishes)
    (effects : effect = .completeJob id token ∨ effect = .failJob id token) :
    Pool.Covered (state.update (effect.apply state.shared) pid none) := by
  have numbered : state.shared.Numbered := holds.global
  have relies : before.Relies state.shared := holds.locals pid before running
  obtain ⟨queue, endsJob, same⟩ := endsJob_of_effect numbered effects
  have held := held_of_relies numbered relies job
  rw [same]
  constructor
  · intro row listed queued
    apply (covered.queued row listed queued).update running
    · intro other inQueue unfinished lasting
      apply endsJob.kept inQueue unfinished
      rintro rfl
      exact lasting ⟨stage, by rw [job]; rfl⟩
    · rintro other _ _ _ ⟨⟩
    · intro owing
      rw [owing.1] at stage
      cases stage
  · -- What is left of the queue has no unfinished job of this identifier.
    have left : ∀ other ∈ queue.jobs, Job.unfinished other →
        other ∈ state.shared.queue.jobs ∧ ¬ before.Ends other.id := by
      intro other inside unfinished
      obtain ⟨old, apart⟩ | ⟨final, _⟩ := endsJob.mem inside
      · refine ⟨old, fun ending => apart held ?_⟩
        have mine := ending.2
        rw [job] at mine
        exact (Option.some.inj mine).symm
      · rw [Job.unfinished, final] at unfinished
        cases unfinished
    intro first inFirst second inSecond runsFirst runsSecond sameDelivery
    obtain ⟨oldFirst, firstLasts⟩ := left first inFirst runsFirst
    obtain ⟨oldSecond, secondLasts⟩ := left second inSecond runsSecond
    obtain named | ends | ends :=
      covered.single first oldFirst second oldSecond runsFirst runsSecond sameDelivery
    · exact .inl named
    · exact .inr (.inl (ends.update_of running fun ending => absurd ending firstLasts))
    · exact .inr (.inr (ends.update_of running fun ending => absurd ending secondLasts))

theorem covered_of_moves (holds : carriageOutline.Holds state) (covered : Pool.Covered state)
    (running : state.process? pid = some before)
    (moves : before.Moves state.shared after next) :
    Pool.Covered (state.update after pid next) := by
  have relies : before.Relies state.shared := holds.locals pid before running
  cases moves with
  | @goes _ later same delivery job stage =>
    have ends : ∀ id, before.Ends id → ∃ point, some later = some point ∧ point.Ends id :=
      fun id ending => ⟨later, rfl, stage.trans ending.1, (congrArg _ job).trans ending.2⟩
    refine ⟨?_, covered.single_update running same.queue ends⟩
    rw [PoolState.shared_update, same.deliveries]
    intro row listed queued
    apply (covered.queued row listed queued).update running
    · intro other inside _ _
      rwa [same.queue]
    · rintro other _ _ _ ⟨⟩ ending
      exact ⟨stage.symm.trans ending.1, (congrArg _ job.symm).trans ending.2⟩
    · exact fun owing => ⟨_, rfl, stage.trans owing.1, delivery.trans owing.2⟩
  | stops same job stage idle =>
    refine ⟨?_, covered.single_update running same.queue fun id ending => ?_⟩
    · rw [PoolState.shared_update, same.deliveries]
      intro row listed queued
      apply (covered.queued row listed queued).update running
      · intro other inside _ _
        rwa [same.queue]
      · intro other _ _ later goes ending
        have none := ending.2
        rw [(idle later goes).job] at none
        cases none
      · intro owing
        simp [owing.1] at stage
    · simp [ending.1] at stage
  | misses on absent =>
    have known := relies.known _ on
    rw [absent] at known
    cases known
  | settles on status goes ends => exact covered_settles holds covered running on status goes ends
  | queues on works delivery _ stage =>
    exact covered_queues holds covered running on works delivery stage
  | inserts idle delivery _ stage => exact covered_inserts covered running idle delivery stage
  | adds on owes job idle => exact covered_adds holds covered running on owes job idle
  | retries on works job runs _ finishes =>
    exact covered_retries holds covered running on works job runs finishes
  | ends job stage effects => exact covered_ends holds covered running job stage effects

end Steps

/-! ## What begins from outside -/

theorem Process.Idle.separate (idle : process.Idle) (other : Process) :
    process.Separate other := by
  constructor <;> simp [idle.delivery, idle.job]

/-- What a process relies on, when a job of no worker is moved. -/
theorem Process.Relies.moveJob (relies : process.Relies store) {moved : JobId}
    {source target : JobState} {nextToken : Nat} (unfinished : source.finished = false)
    (apart : ∀ token, process.job? = some (moved, token) → source ≠ .active token) :
    process.Relies { store with
      queue := store.queue.move moved source target
      nextToken := nextToken } where
  known := relies.known
  holds id token runs := by
    obtain ⟨job, inside, named, active, on⟩ := relies.holds id token runs
    have stays := JobQueue.mem_move_of_mem moved source target inside
    rw [if_neg] at stays
    · exact ⟨job, stays, named, active, on⟩
    · rintro ⟨rfl, same⟩
      exact apart token (named ▸ runs) (same.symm.trans active)
  alone hand id on job inside runs := by
    obtain ⟨old, _⟩ | ⟨before, old, _, state, rfl⟩ := JobQueue.mem_move inside
    · exact relies.alone hand id on job old runs
    · apply relies.alone hand id on before old
      rw [Job.unfinished, state]
      exact unfinished
  unqueued := relies.unqueued

section Starts

variable {state : Pool} {after : Store} {process : Option Process}

/-- A change from outside, with a process that has no job left to end. -/
theorem covered_of_start (covered : Pool.Covered state)
    (rows : after.deliveries = state.shared.deliveries)
    (forward : ∀ job ∈ state.shared.queue.jobs, Job.unfinished job →
      (∃ delivery ∈ state.shared.deliveries,
        delivery.status = .queued ∧ delivery.id = job.data.deliveryId) →
      ∃ later ∈ after.queue.jobs,
        Job.unfinished later ∧ later.id = job.id ∧ later.data = job.data)
    (backward : ∀ later ∈ after.queue.jobs, Job.unfinished later →
      ∃ job ∈ state.shared.queue.jobs,
        Job.unfinished job ∧ job.id = later.id ∧ job.data = later.data)
    (begun : ∀ point, process = some point → point.stage ≠ .finishes) :
    Pool.Covered (state.spawn after process) := by
  constructor
  · rw [PoolState.shared_spawn, rows]
    intro row listed queued
    obtain ⟨job, inside, unfinished, on, lasting⟩ | owing := covered.queued row listed queued
    · obtain ⟨later, stays, runs, named, data⟩ :=
        forward job inside unfinished ⟨row, listed, queued, on.symm⟩
      left
      refine ⟨later, stays, runs, by rw [data, on], ?_⟩
      rw [named]
      intro ending
      obtain ⟨point, same, finishes⟩ | old := PoolState.runs_of_spawn ending
      · exact begun point same finishes.1
      · exact lasting old
    · exact .inr (owing.spawn after process)
  · intro first inFirst second inSecond runsFirst runsSecond same
    obtain ⟨oldFirst, inQueue, unfinishedFirst, namedFirst, dataFirst⟩ :=
      backward first inFirst runsFirst
    obtain ⟨oldSecond, inQueue', unfinishedSecond, namedSecond, dataSecond⟩ :=
      backward second inSecond runsSecond
    have named := covered.single oldFirst inQueue oldSecond inQueue' unfinishedFirst
      unfinishedSecond (by rw [dataFirst, dataSecond, same])
    rw [namedFirst, namedSecond] at named
    obtain named | ends | ends := named
    · exact .inl named
    · exact .inr (.inl (ends.spawn after process))
    · exact .inr (.inr (ends.spawn after process))

/-- A request, which changes nothing of what the outline is about. -/
theorem covered_of_request (covered : Pool.Covered state) (same : state.shared.Same after)
    (begun : ∀ point, process = some point → point.stage ≠ .finishes) :
    Pool.Covered (state.spawn after process) := by
  apply covered_of_start covered same.deliveries _ _ begun
  · rw [same.queue]
    exact fun job inside unfinished _ => ⟨job, inside, unfinished, rfl, rfl⟩
  · rw [same.queue]
    exact fun job inside unfinished => ⟨job, inside, unfinished, rfl, rfl⟩

theorem covered_of_move (covered : Pool.Covered state) {moved : JobId} {source target : JobState}
    {nextToken : Nat} (unfinished : source.finished = false) (runs : target.finished = false)
    (begun : ∀ point, process = some point → point.stage ≠ .finishes) :
    Pool.Covered (state.spawn { state.shared with
      queue := state.shared.queue.move moved source target
      nextToken := nextToken } process) := by
  have rows : Store.deliveries { state.shared with
      queue := state.shared.queue.move moved source target
      nextToken := nextToken } = state.shared.deliveries := rfl
  apply covered_of_start covered rows _ _ begun
  · intro job inside unfinishedJob _
    refine ⟨_, JobQueue.mem_move_of_mem moved source target inside, ?_⟩
    split
    · exact ⟨runs, rfl, rfl⟩
    · exact ⟨unfinishedJob, rfl, rfl⟩
  · intro later inside runsLater
    obtain ⟨old, _⟩ | ⟨before, old, _, state, rfl⟩ := JobQueue.mem_move inside
    · exact ⟨later, old, runsLater, rfl, rfl⟩
    · refine ⟨before, old, ?_, rfl, rfl⟩
      rw [Job.unfinished, state]
      exact unfinished

/-- A process that begins idle. -/
theorem carries_of_request (holds : carriageOutline.Holds state) (same : state.shared.Same after)
    (idle : ∀ point ∈ process, point.Idle) :
    carriageOutline.Keeps state state.processes.length after process where
  global := Store.Numbered.same holds.global same
  own point begun := (idle point begun).relies
  others other point _ runs := Process.Relies.same (holds.locals other point runs) same
  apart point _ right begun _ _ := (idle point begun).separate right

/-- A call by hand on an idle delivery that is not queued. -/
theorem carries_by_hand (holds : carriageOutline.Holds state) {id : DeliveryId} {begun : Process}
    (idle : Pool.isIdle state id = true) (known : (state.shared.delivery? id).isSome)
    (unqueued : ∀ delivery, state.shared.delivery? id = some delivery → delivery.status ≠ .queued)
    (on : begun.delivery? = some id) (hand : begun.job? = none) :
    carriageOutline.Keeps state state.processes.length state.shared (some begun) where
  global := holds.global
  own := by
    rintro _ ⟨⟩
    constructor
    · intro other onOther
      rwa [← Option.some.inj (on.symm.trans onOther)]
    · intro other token runs
      rw [hand] at runs
      cases runs
    · intro _ other onOther job inside runs
      obtain rfl := Option.some.inj (on.symm.trans onOther)
      have free := all_eq_true.mp (Bool.and_eq_true_iff.mp idle).1 job inside
      rw [Job.unfinished] at runs
      simpa [runs] using free
    · intro _ _ other onOther
      rw [← Option.some.inj (on.symm.trans onOther)]
      exact unqueued
  others other point _ runs := holds.locals other point runs
  apart := by
    rintro _ other right ⟨⟩ _ runs
    have free := PoolState.every_apply (Bool.and_eq_true_iff.mp idle).2 runs
    constructor
    · intro _ _ other onOther
      rw [← Option.some.inj (on.symm.trans onOther)]
      exact of_decide_eq_true free
    · intro job token second ofBegun
      rw [hand] at ofBegun
      cases ofBegun

/-- A queued delivery is not idle. -/
theorem unqueued_of_isIdle (covered : Pool.Covered state) {id : DeliveryId}
    (idle : Pool.isIdle state id = true) {delivery : Delivery}
    (found : state.shared.delivery? id = some delivery) : delivery.status ≠ .queued := by
  intro queued
  have named := Store.delivery?_id found
  obtain ⟨noJob, noProcess⟩ := Bool.and_eq_true_iff.mp idle
  obtain ⟨job, inside, unfinished, on, _⟩ | ⟨pid, point, runs, owing⟩ :=
    covered.queued delivery (Store.mem_of_delivery? found) queued
  · have free := all_eq_true.mp noJob job inside
    rw [Job.unfinished] at unfinished
    simp [unfinished, on, named] at free
  · have free := PoolState.every_apply noProcess runs
    rw [owing.2, named] at free
    simp at free

/-- The worker that takes a waiting job is alone with its delivery. -/
theorem carries_take (holds : carriageOutline.Holds state) (covered : Pool.Covered state)
    {job : Job JobId JobData} (inside : job ∈ state.shared.queue.jobs)
    (waiting : job.state = .waiting) {token nextToken : Nat} {begun : Process}
    (runs : begun.job? = some (job.id, token))
    (on : begun.delivery? = some job.data.deliveryId) :
    carriageOutline.Keeps state state.processes.length
      { state.shared with
        queue := state.shared.queue.move job.id .waiting (.active token)
        nextToken := nextToken } (some begun) := by
  have numbered : state.shared.Numbered := holds.global
  have unfinished : Job.unfinished job := by
    rw [Job.unfinished, waiting]
    rfl
  -- The lock of a waiting job is not held.
  have unheld : ∀ other point, state.process? other = some point →
      ∀ second, point.job? ≠ some (job.id, second) := by
    intro other point running second ofPoint
    have relies : point.Relies state.shared := holds.locals other point running
    obtain ⟨held, inQueue, named, active, _⟩ := relies.holds job.id second ofPoint
    rw [eq_of_id numbered inQueue inside named, waiting] at active
    cases active
  have begins : begun.Relies { state.shared with
      queue := state.shared.queue.move job.id .waiting (.active token)
      nextToken := nextToken } := by
    constructor
    · intro id onId
      rw [← Option.some.inj (on.symm.trans onId)]
      exact numbered.known job inside
    · intro id second ofBegun
      obtain ⟨rfl, rfl⟩ : job.id = id ∧ token = second := by
        simpa using runs.symm.trans ofBegun
      have taken := JobQueue.mem_move_of_mem job.id .waiting (.active token) inside
      rw [if_pos ⟨rfl, waiting⟩] at taken
      exact ⟨_, taken, rfl, rfl, on⟩
    · intro hand
      rw [runs] at hand
      cases hand
    · intro hand
      rw [runs] at hand
      cases hand
  constructor
  · exact numbered.moveJob job.id .waiting (.active token) nextToken
  · rintro _ ⟨⟩
    exact begins
  · intro other point _ running
    have relies : point.Relies state.shared := holds.locals other point running
    exact relies.moveJob rfl (by simp)
  · rintro _ other right ⟨⟩ _ running
    have relies : right.Relies state.shared := holds.locals other right running
    constructor
    · intro _ worksRight id onBegun onRight
      obtain rfl := Option.some.inj (on.symm.trans onBegun)
      cases ofRight : right.job? with
      | none => exact relies.alone ofRight _ onRight job inside unfinished rfl
      | some held =>
        obtain ⟨own, second⟩ := held
        obtain ⟨mine, inQueue, named, active, onMine⟩ := relies.holds own second ofRight
        have unfinishedMine : Job.unfinished mine := by
          rw [Job.unfinished, active]
          rfl
        have sameDelivery := Option.some.inj (onRight.symm.trans onMine)
        obtain same | ⟨_, point, found, ends⟩ | ⟨third, point, found, ends⟩ :=
          covered.single job inside mine inQueue unfinished unfinishedMine sameDelivery
        · rw [eq_of_id numbered inside inQueue same, active] at waiting
          cases waiting
        · obtain ⟨⟨_, lock⟩, ofPoint, rfl⟩ := map_eq_some_iff.mp ends.2
          exact unheld _ point found lock ofPoint
        · obtain ⟨⟨_, lock⟩, ofPoint, same⟩ := map_eq_some_iff.mp ends.2
          by_cases acting : third = other
          · subst acting
            cases running.symm.trans found
            exact worksRight ends.1
          · have separate : right.Separate point :=
              holds.apart other third right point (Ne.symm acting) running found
            apply separate.jobs own second lock ofRight
            rw [ofPoint, ← named, ← same]
    · intro id first second ofBegun ofRight
      obtain ⟨rfl, _⟩ : job.id = id ∧ token = first := by
        simpa using runs.symm.trans ofBegun
      exact unheld other right running second ofRight

/-- A job that no process runs is put back or given up. -/
theorem unheld_of_abandoned {id : JobId} (abandoned : Pool.abandoned state id = true)
    {pid : Nat} {point : Process} (running : state.process? pid = some point) (token : Nat) :
    point.job? ≠ some (id, token) := by
  intro ofPoint
  have free := PoolState.every_apply abandoned running
  rw [ofPoint] at free
  simp at free

theorem carries_move (holds : carriageOutline.Holds state) (id : JobId) {source target : JobState}
    (unfinished : source.finished = false)
    (apart : ∀ other point, state.process? other = some point → ∀ token,
      point.job? = some (id, token) → source ≠ .active token) :
    carriageOutline.Keeps state state.processes.length
      { state.shared with queue := state.shared.queue.move id source target } none where
  global := Store.Numbered.moveJob holds.global id source target state.shared.nextToken
  own := by simp
  others other point _ running := by
    have relies : point.Relies state.shared := holds.locals other point running
    exact relies.moveJob unfinished (apart other point running)
  apart := by simp

/-- A job of no worker is given up, and its delivery is not queued. -/
theorem covered_stallOut (holds : carriageOutline.Holds state) (covered : Pool.Covered state)
    {id : JobId} {token : Nat} {queue : JobQueue JobId JobData}
    (ends : state.shared.queue.EndsJob id token queue)
    (settled : (state.shared.queue.getJob id).all (fun job =>
      state.shared.deliveries.all fun delivery =>
        delivery.id ≠ job.data.deliveryId || delivery.status ≠ .queued) = true) :
    Pool.Covered (state.spawn { state.shared with queue := queue } none) := by
  have rows : Store.deliveries { state.shared with queue := queue } = state.shared.deliveries := rfl
  apply covered_of_start covered rows _ _ (by rintro _ ⟨⟩)
  · rintro job inside unfinished ⟨row, listed, queued, on⟩
    refine ⟨job, ends.kept inside unfinished ?_, unfinished, rfl, rfl⟩
    rintro rfl
    have found := JobQueue.getJob_of_mem (Store.Numbered.distinct holds.global) inside
    rw [found, all_some] at settled
    have free := all_eq_true.mp settled row listed
    simp [queued, on] at free
  · intro later inside unfinished
    obtain ⟨old, _⟩ | ⟨final, _⟩ := ends.mem inside
    · exact ⟨later, old, unfinished, rfl, rfl⟩
    · rw [Job.unfinished, final] at unfinished
      cases unfinished

/-- What begins from outside as permitted keeps the outline and the cover. -/
theorem start_carries (holds : carriageOutline.Holds state) (covered : Pool.Covered state)
    {begun : Start} (allowed : Pool.Carries state (.launch begun))
    (started : start state.shared begun = some (after, process)) :
    carriageOutline.Keeps state state.processes.length after process ∧
      Pool.Covered (state.spawn after process) := by
  have requests : state.shared.Same after → (∀ point ∈ process, point.Idle) →
      carriageOutline.Keeps state state.processes.length after process ∧
        Pool.Covered (state.spawn after process) := by
    intro same idle
    refine ⟨carries_of_request holds same idle, covered_of_request covered same ?_⟩
    intro point begins
    simp [(idle point begins).stage]
  cases begun with
  | publish event =>
    cases started
    apply requests (.refl _)
    rintro _ ⟨⟩
    exact ⟨rfl, rfl, rfl⟩
  | retry deliveryId =>
    simp only [start] at started
    split at started
    · cases started
    · rename_i delivery found
      cases started
      have idle : Pool.isIdle state deliveryId = true := allowed
      have unqueued := fun row (found : state.shared.delivery? deliveryId = some row) =>
        unqueued_of_isIdle covered idle found
      refine ⟨carries_by_hand holds idle (by simp [found]) unqueued rfl rfl, ?_⟩
      apply covered_of_request covered (.refl _)
      rintro _ ⟨⟩
      simp [Process.stage]
  | resendDelivery deliveryId clientId =>
    simp only [start] at started
    split at started
    · cases started
    · split at started
      · cases started
        apply requests (.refl _)
        rintro _ ⟨⟩
        exact ⟨rfl, rfl, rfl⟩
      · cases started
  | resend deliveryId =>
    simp only [start] at started
    split at started
    · cases started
    · rename_i delivery found
      split at started
      · cases started
        have idle : Pool.isIdle state deliveryId = true := allowed
        have unqueued := fun row (found : state.shared.delivery? deliveryId = some row) =>
          unqueued_of_isIdle covered idle found
        refine ⟨carries_by_hand holds idle (by simp [found]) unqueued ?_ rfl, ?_⟩
        · exact congrArg some (Store.delivery?_id found)
        · apply covered_of_request covered (.refl _)
          rintro _ ⟨⟩
          simp [Process.stage]
      · cases started
  | test webhookId clientId =>
    simp only [start] at started
    split at started
    · cases started
    · split at started
      · cases started
        apply requests (.refl _)
        rintro _ ⟨⟩
        exact ⟨rfl, rfl, rfl⟩
      · cases started
  | configure webhooks =>
    cases started
    exact requests ⟨rfl, rfl, rfl, rfl⟩ (by rintro _ ⟨⟩)
  | take id =>
    simp only [start] at started
    split at started
    · cases started
    · rename_i job found
      obtain ⟨inside, rfl⟩ := JobQueue.getJob_some found
      split at started
      · rename_i waiting
        cases started
        refine ⟨carries_take holds covered inside waiting rfl rfl, ?_⟩
        apply covered_of_move covered rfl rfl
        rintro _ ⟨⟩
        simp [Process.stage]
      · cases started
  | promote id =>
    cases started
    refine ⟨carries_move holds id rfl (by simp), ?_⟩
    exact covered_of_move covered rfl rfl (by rintro _ ⟨⟩)
  | stall id token =>
    cases started
    constructor
    · apply carries_move holds id rfl
      intro other point running lock ofPoint
      exact absurd ofPoint (unheld_of_abandoned allowed running lock)
    · exact covered_of_move covered rfl rfl (by rintro _ ⟨⟩)
  | stallOut id token =>
    cases started
    obtain ⟨abandoned, settled⟩ := Bool.and_eq_true_iff.mp allowed
    have ends := JobQueue.endsJob_stallOut state.shared.queue id token keepFailed
    refine ⟨⟨Store.Numbered.endJob holds.global ends, by simp, ?_, by simp⟩, ?_⟩
    · intro other point _ running
      have relies : point.Relies state.shared := holds.locals other point running
      exact relies.endJob ends (unheld_of_abandoned abandoned running)
    · exact covered_stallOut holds covered ends settled

end Starts

/-! ## Runs -/

section Runs

variable {state : Pool} {pid : Nat} {before : Process}

/-- A process stops that owes nothing, or whose delivery has no other job. -/
theorem covered_of_stop (holds : carriageOutline.Holds state) (covered : Pool.Covered state)
    (running : state.process? pid = some before)
    (stops : (before.stage ≠ .owes ∧ before.stage ≠ .finishes) ∨
      state.shared.mayStop before = true) :
    Pool.Covered (state.update state.shared pid none) := by
  have lone : ∀ first ∈ state.shared.queue.jobs, ∀ second ∈ state.shared.queue.jobs,
      Job.unfinished second → first.data.deliveryId = second.data.deliveryId →
        before.Ends first.id → first.id = second.id := by
    intro first inFirst second inSecond runsSecond same ending
    obtain ⟨_, unfinished⟩ | only := stops
    · exact absurd ending.1 unfinished
    · have on := on_of_job holds running inFirst ending.2
      have free := (Bool.and_eq_true_iff.mp only).2
      rw [on, all_some] at free
      have other := all_eq_true.mp free second inSecond
      rw [Job.unfinished] at runsSecond
      rw [ending.2] at other
      simpa [runsSecond, same, eq_comm] using other
  constructor
  · intro row listed queued
    apply (covered.queued row listed queued).update running
    · exact fun job inside _ _ => inside
    · rintro job _ _ _ ⟨⟩
    · intro owing
      obtain ⟨free, _⟩ | only := stops
      · exact absurd owing.1 free
      · simp [Store.mayStop, owing.1] at only
  · intro first inFirst second inSecond runsFirst runsSecond same
    by_cases named : first.id = second.id
    · exact .inl named
    · obtain same' | ends | ends :=
        covered.single first inFirst second inSecond runsFirst runsSecond same
      · exact .inl same'
      · exact .inr (.inl (ends.update_of running fun ending =>
          absurd (lone first inFirst second inSecond runsSecond same ending) named))
      · exact .inr (.inr (ends.update_of running fun ending =>
          absurd (lone second inSecond first inFirst runsFirst same.symm ending).symm named))

/-- A worker that fails to end its job stops. -/
theorem Process.fails_of_finishes (finishes : process.stage = .finishes) (answer : Answer) :
    (process.statement store answer).perform store .failed = (store, none) := by
  cases process with
  | deliver call point =>
    cases point with
    | finish | fail =>
      simp only [statement, step, Call.deliverWebhook, Statement.perform]
      split <;> rfl
    | addRetry delivery =>
      simp only [stage] at finishes
      split at finishes <;> cases finishes
    | findDelivery | findWebhook | reject | post | recordAttempt | markSent | recordError
    | markFailed | markQueued => cases finishes
  | createDeliveries point | resendDelivery point | resend point | testWebhook point =>
    cases point <;> cases finishes

/-- A statement that ends as permitted keeps the outline and the cover. -/
theorem advance_carries (holds : carriageOutline.Holds state) (covered : Pool.Covered state)
    {input : Input Answer} {shared : Store} {next : Option Process}
    (allowed : Pool.Carries state (.advance pid input))
    (running : state.process? pid = some before)
    (performed : (before.statement state.shared input.answer).perform state.shared input.ending =
      (shared, next)) :
    carriageOutline.Keeps state pid shared next ∧
      Pool.Covered (state.update shared pid next) := by
  simp only [Pool.Carries, Pool.carries, running, all_some, Bool.or_eq_true,
    Bool.and_eq_true, decide_eq_true_eq] at allowed
  obtain permitted | ⟨failed, stops⟩ := allowed
  · have moves := Process.perform_moves permitted performed
    exact ⟨carries_of_moves holds running moves, covered_of_moves holds covered running moves⟩
  · have finishes : before.stage = .finishes :=
      of_decide_eq_true (Bool.and_eq_true_iff.mp stops).1
    rw [failed, Process.fails_of_finishes finishes] at performed
    cases performed
    refine ⟨⟨holds.global, by simp, ?_, by simp⟩, covered_of_stop holds covered running (.inr stops)⟩
    exact fun other point _ runs => holds.locals other point runs

theorem carriage_holds (reachable : notifications.system.Reachable Pool.Carries state) :
    carriageOutline.HoldsWith Pool.Covered state := by
  apply ProofOutline.reachable_with reachable
  · intro shared valid
    have empty : shared = .initial shared.webhooks := valid
    rw [empty]
    refine ⟨Store.initial_numbered _, ?_, ?_⟩
    · simp [Store.initial]
    · simp [Store.initial, JobQueue.empty]
  · intro state begun shared process holds covered allowed started
    exact (start_carries holds covered allowed started).1
  · intro state pid before input shared process holds covered allowed running moved
    exact (advance_carries holds covered allowed running (Option.some.inj moved)).1
  · intro state action after holds covered allowed stepped
    cases action with
    | launch begun =>
      obtain ⟨shared, process, started, rfl⟩ := ProcessPool.step_launch stepped
      exact (start_carries holds covered allowed started).2
    | advance pid input =>
      obtain ⟨before, shared, process, running, moved, rfl⟩ := ProcessPool.step_advance stepped
      exact (advance_carries holds covered allowed running (Option.some.inj moved)).2
    | crash pid =>
      obtain ⟨before, running, rfl⟩ := ProcessPool.step_crash stepped
      apply covered_of_stop holds covered running
      simpa [Pool.Carries, Pool.carries, running] using allowed

/-- In every run in which no process stops between its two writes and calls by hand begin on idle
deliveries, each queued delivery has a job and no delivery has two. -/
theorem queued_deliveries_carried
    (reachable : notifications.system.Reachable Pool.Carries state) : Pool.Carried state := by
  obtain ⟨holds, covered⟩ := carriage_holds reachable
  constructor
  · intro delivery listed queued
    obtain ⟨job, inside, unfinished, on, _⟩ | owing := covered.queued delivery listed queued
    · exact .inl ⟨job, inside, unfinished, on⟩
    · exact .inr owing
  · intro first inFirst second inSecond runsFirst runsSecond on
    obtain same | ends := covered.single first inFirst second inSecond runsFirst runsSecond on
    · exact .inl (eq_of_id holds.global inFirst inSecond same)
    · exact .inr ends

end Runs

/-- The endpoint answers with 500, and the worker adds the retry and ends its job. -/
theorem queued_deliveries_carried_sample :
    ∃ state : Pool, state.shared.queue.jobs.map Job.state = [.completed, .delayed] ∧
      Pool.Carried state := by
  obtain ⟨state, reachable, retried⟩ := @TransitionSystem.exists_reachable _ _ notifications.system
    Pool.Carries _ samplePool (fun state => state.shared.queue.jobs.map Job.state = [.completed,
    .delayed]) _ samplePool_initial (.launch (.publish ⟨1, "deposit.confirmed", "x"⟩) :: advances 0
    3 ++ .launch (.take 1) :: advances 1 2 ++ .advance 1 ⟨.done, some 500⟩ :: advances 1 4)
    (by decide +kernel)
  exact ⟨state, retried, queued_deliveries_carried reachable⟩

/-- `createDeliveries` stops between the INSERT and the job: the delivery stays queued. -/
theorem queued_delivery_stranded :
    ∃ state, notifications.system.Reachable Unrestricted state ∧ ¬ Pool.Carried state := by
  obtain ⟨state, reachable, stopped, empty, rows⟩ := @TransitionSystem.exists_reachable _ _
    notifications.system Unrestricted _ samplePool (fun state => state.processes = [none] ∧
    state.shared.queue.jobs.length = 0 ∧ state.shared.deliveries.map Delivery.status = [.queued]) _
    samplePool_initial (.launch (.publish ⟨1, "deposit.confirmed", "x"⟩) :: advances 0 2 ++ [.crash
    0]) (by decide +kernel)
  refine ⟨state, reachable, fun carried => ?_⟩
  obtain ⟨row, listed, queued⟩ := mem_map.mp (rows ▸ mem_singleton_self _)
  obtain ⟨job, inside, _⟩ | owing := carried.queued row listed queued
  · rw [length_eq_zero_iff.mp empty] at inside
    cases inside
  · rw [PoolState.runs_iff_mem, stopped] at owing
    simp at owing

end CryptoVaultHub.Notification
