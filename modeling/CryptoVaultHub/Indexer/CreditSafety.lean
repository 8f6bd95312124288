import CryptoVaultHub.Indexer.CreditCharges
import CryptoVaultHub.Indexer.MonitoringEffects

/-!
# No inflow is credited twice

In every run whose scans and publications claim no inflow that another has claimed, the rows
of a forwarder and token add up to no more than was received.
-/

namespace CryptoVaultHub.Indexer

open TransitionSystem List Option

abbrev MonitoringState := PoolState Monitoring MonitoringProcess

abbrev MonitoringAction := PoolAction (Input MonitoringAnswer) MonitoringStart

/-! ## The condition -/

/-- What a statement finds was received, and what it publishes claims nothing twice. -/
def MonitoringProcess.fits (monitoring : Monitoring) (answer : MonitoringAnswer) :
    MonitoringProcess → Bool
  | .detection (.realtime point) =>
    monitoring.scans (point.found monitoring.detector
      (monitoring.realtimeAnswer answer (.realtime point)))
  | .polling (.poll point) =>
    !answer.streamed || point.publication?.all monitoring.publishes
  | .detection (.handler _) | .polling (.reconcile _) => true

def MonitoringState.healthy (state : MonitoringState) : MonitoringAction → Bool
  | .launch _ | .crash _ => true
  | .advance pid input =>
    decide (input.ending = .failed) ||
      (state.process? pid).all fun process => process.fits state.shared input.answer

@[reducible] def MonitoringState.Healthy (state : MonitoringState) (action : MonitoringAction) : Prop :=
  MonitoringState.healthy state action = true

/-! ## What only grows -/

structure Monitoring.Extends (before after : Monitoring) : Prop where
  store : before.polling.store.Extends after.polling.store
  movements : before.movements <+: after.movements
  seen : ∀ transfer ∈ before.seen.flatten, transfer ∈ after.seen.flatten

theorem Monitoring.Extends.refl (monitoring : Monitoring) : monitoring.Extends monitoring :=
  ⟨.refl _, prefix_rfl, fun _ member => member⟩

variable {monitoring after : Monitoring}

theorem take_of_prefix {movements longer : List Movement} {time : Nat}
    (grown : movements <+: longer) (past : time ≤ movements.length) :
    longer.take time = movements.take time := by
  obtain ⟨rest, rfl⟩ := grown
  exact take_append_of_le_length past

theorem Truthful.extend {movements longer : List Movement} {key : BalanceKey} {reading : Reading}
    (truthful : Truthful movements key reading) (grown : movements <+: longer) :
    Truthful longer key reading := by
  obtain ⟨past, balance⟩ := truthful
  refine ⟨past.trans grown.length_le, ?_⟩
  rw [balance, take_of_prefix grown past]

variable {publication : Publication}

theorem between_extend (grown : monitoring.movements <+: after.movements)
    (past : publication.time ≤ monitoring.movements.length) :
    after.between publication = monitoring.between publication := by
  rw [Monitoring.between, Monitoring.between, take_of_prefix grown past]

theorem single_extend (grown : monitoring.movements <+: after.movements)
    (past : publication.time ≤ monitoring.movements.length) :
    after.single publication = monitoring.single publication := by
  simp only [Monitoring.single, between_extend grown past]

theorem any_congr_mem {Item : Type} {items : List Item} {first second : Item → Bool}
    (same : ∀ item ∈ items, first item = second item) : items.any first = items.any second := by
  induction items with
  | nil => rfl
  | cons item rest ih =>
    rw [any_cons, any_cons, same item (mem_cons_self ..),
      ih fun other member => same other (mem_cons_of_mem _ member)]

/-! ## Steps that claim nothing -/

/-- The records stay as they are while the movements, the store and the cache change. -/
theorem Monitoring.Consistent.extend (consistent : monitoring.Consistent)
    (grown : monitoring.movements <+: after.movements) (seen : after.seen = monitoring.seen)
    (publications : after.polling.publications = monitoring.polling.publications)
    (rows : after.polling.store.Sound)
    (cache : ∀ key reading, (key, reading) ∈ after.polling.cache →
      Truthful after.movements key reading)
    (messages : ∀ message ∈ after.polling.store.stream,
      message ∈ monitoring.polling.store.stream ∨ ∃ transfer ∈ monitoring.seen.flatten,
        ∃ blockNumber, message = transfer.message blockNumber) :
    after.Consistent := by
  have past : ∀ publication ∈ monitoring.polling.publications,
      publication.time ≤ monitoring.movements.length :=
    fun publication published => (consistent.bounded publication published).past
  have single : ∀ publication ∈ monitoring.polling.publications,
      after.single publication = monitoring.single publication :=
    fun publication published => single_extend grown (past publication published)
  have claimed : ∀ hash address, after.claimed hash address = monitoring.claimed hash address := by
    intro hash address
    rw [Monitoring.claimed, Monitoring.claimed, seen, publications]
    congr 1
    refine any_congr_mem ?_
    intro publication published
    rw [single publication published]
  have merged : ∀ hash address, after.merged hash address = monitoring.merged hash address := by
    intro hash address
    rw [Monitoring.merged, Monitoring.merged, publications]
    refine any_congr_mem ?_
    intro publication published
    rw [single publication published, between_extend grown (past publication published)]
  refine ⟨rows, cache, ?_, ?_, ?_, ?_, ?_⟩
  · intro message sent
    rw [seen, publications]
    rcases messages message sent with before | ofTransfer
    · exact consistent.messages message before
    · exact .inl ofTransfer
  · intro transfer found
    rw [seen] at found
    obtain ⟨movement, moved, into⟩ := consistent.received transfer found
    exact ⟨movement, grown.subset moved, into⟩
  · intro publication published
    rw [publications] at published
    obtain ⟨ordered, inside, amount⟩ := consistent.bounded publication published
    refine ⟨ordered, inside.trans grown.length_le, ?_⟩
    rw [between_extend grown inside]
    exact amount
  · intro hash address
    rw [claimed, merged]
    exact consistent.exclusive hash address
  · rw [publications]
    have same : (monitoring.polling.publications.filter fun publication =>
        !after.single publication) = monitoring.polling.publications.filter fun publication =>
          !monitoring.single publication := by
      refine filter_congr ?_
      intro publication published
      rw [single publication published]
    rw [same]
    exact consistent.apart

/-! ## Steps that claim -/

/-- What a scan has found was received and not merged. -/
theorem Monitoring.scans_apply {found : List Transfer} (scans : monitoring.scans found = true)
    {transfer : Transfer} (member : transfer ∈ found) :
    monitoring.merged transfer.txHash (transfer.message 0).toAddress = false ∧
      monitoring.Receives transfer := by
  obtain ⟨free, inflow⟩ := Bool.and_eq_true_iff.mp (all_eq_true.mp scans transfer member)
  obtain ⟨movement, moved, fits⟩ := any_eq_true.mp inflow
  obtain ⟨into, same⟩ := Bool.and_eq_true_iff.mp fits
  obtain ⟨sends, amount⟩ := of_decide_eq_true same
  exact ⟨by simpa using free, movement, moved, into, sends, amount⟩

/-- The transfers that a scan has found are recorded. -/
theorem Monitoring.Consistent.see {found : List Transfer} (consistent : monitoring.Consistent)
    (scans : monitoring.scans found = true) :
    ({ monitoring with seen := monitoring.seen ++ [found] } : Monitoring).Consistent := by
  have listed : (monitoring.seen ++ [found]).flatten = monitoring.seen.flatten ++ found := by
    simp
  have bounded : ∀ publication ∈ monitoring.polling.publications,
      ({ monitoring with seen := monitoring.seen ++ [found] } : Monitoring).Bounded publication := by
    intro publication published
    obtain ⟨ordered, past, amount⟩ := consistent.bounded publication published
    exact ⟨ordered, past, amount⟩
  refine ⟨consistent.rows, consistent.cache, ?_, ?_, bounded, ?_, consistent.apart⟩
  · intro message sent
    rcases consistent.messages message sent with ⟨transfer, seen, ofTransfer⟩ | published
    · refine .inl ⟨transfer, ?_, ofTransfer⟩
      rw [listed]
      exact mem_append_left _ seen
    · exact .inr published
  · intro transfer seen
    rw [listed] at seen
    rcases mem_append.mp seen with before | new
    · exact consistent.received transfer before
    · exact (Monitoring.scans_apply scans new).2
  · intro hash address claimed
    rw [Monitoring.claimed, listed, any_append, Bool.or_assoc, Bool.or_left_comm] at claimed
    rcases Bool.or_eq_true_iff.mp claimed with new | before
    · obtain ⟨transfer, member, same⟩ := any_eq_true.mp new
      cases of_decide_eq_true same
      exact (Monitoring.scans_apply scans member).1
    · exact consistent.exclusive hash address before

def Monitoring.publish (monitoring : Monitoring) (publication : Publication) : Monitoring :=
  { monitoring with polling := monitoring.polling.publish publication }

theorem claimed_publish (publication : Publication) (hash : TxHash) (address : Address) :
    (monitoring.publish publication).claimed hash address =
      (monitoring.claimed hash address || (monitoring.single publication &&
        decide (publication.message.key = (.transaction hash, address)))) := by
  show (_ || (monitoring.polling.publications ++ [publication]).any fun published =>
    monitoring.single published && decide (published.message.key = (.transaction hash, address))) =
      _
  rw [any_append, any_cons, any_nil, Bool.or_false, ← Bool.or_assoc]
  rfl

theorem merged_publish (publication : Publication) (hash : TxHash) (address : Address) :
    (monitoring.publish publication).merged hash address =
      (monitoring.merged hash address ||
        (!monitoring.single publication && decide (publication.message.toAddress = address) &&
          (monitoring.between publication).any fun movement => movement.txHash = some hash)) := by
  show ((monitoring.polling.publications ++ [publication]).any fun published =>
    !monitoring.single published && decide (published.message.toAddress = address) &&
      (monitoring.between published).any fun movement => movement.txHash = some hash) = _
  rw [any_append, any_cons, any_nil, Bool.or_false]
  rfl

/-- A publication of one transaction is not of inflows that were merged. -/
theorem Monitoring.publishes_single {hash : TxHash}
    (publishes : monitoring.publishes publication = true)
    (single : monitoring.single publication = true)
    (names : publication.message.txHash = .transaction hash) :
    monitoring.merged hash publication.message.toAddress = false := by
  obtain ⟨_, claims⟩ := Bool.and_eq_true_iff.mp publishes
  rw [if_pos single] at claims
  simpa [names] using claims

/-- Any other begins where those before it have ended, and its inflows are not claimed. -/
theorem Monitoring.publishes_several (publishes : monitoring.publishes publication = true)
    (several : monitoring.single publication = false) :
    (∀ before ∈ monitoring.polling.publications, monitoring.single before = false →
        before.key = publication.key → before.time ≤ publication.base) ∧
      ∀ movement ∈ monitoring.between publication, ∀ hash, movement.txHash = some hash →
        monitoring.claimed hash publication.message.toAddress = false := by
  obtain ⟨_, claims⟩ := Bool.and_eq_true_iff.mp publishes
  rw [several, if_neg Bool.false_ne_true] at claims
  obtain ⟨apart, free⟩ := Bool.and_eq_true_iff.mp claims
  refine ⟨?_, ?_⟩
  · intro before published other same
    simpa [other, same] using all_eq_true.mp apart before published
  · intro movement member hash sends
    simpa [sends] using all_eq_true.mp free movement member

/-- A publication that claims nothing twice is recorded with its message. -/
theorem Monitoring.Consistent.publish (consistent : monitoring.Consistent)
    (bounded : monitoring.Bounded publication) (publishes : monitoring.publishes publication = true) :
    (monitoring.publish publication).Consistent := by
  refine ⟨consistent.rows.extend (Store.publish_extends ..) rfl, consistent.cache, ?_,
    consistent.received, ?_, ?_, ?_⟩
  · intro message sent
    rcases mem_append.mp sent with before | new
    · rcases consistent.messages message before with ofTransfer | ⟨other, published, same⟩
      · exact .inl ofTransfer
      · exact .inr ⟨other, mem_append_left _ published, same⟩
    · exact .inr ⟨publication, mem_append_right _ (mem_singleton_self _),
        mem_singleton.mp new⟩
  · intro other published
    rcases mem_append.mp published with before | new
    · obtain ⟨ordered, past, amount⟩ := consistent.bounded other before
      exact ⟨ordered, past, amount⟩
    · cases mem_singleton.mp new
      obtain ⟨ordered, past, amount⟩ := bounded
      exact ⟨ordered, past, amount⟩
  · intro hash address claimed
    rw [claimed_publish] at claimed
    rw [merged_publish]
    by_cases single : monitoring.single publication = true
    · rcases Bool.or_eq_true_iff.mp claimed with before | now
      · simpa [single] using consistent.exclusive hash address before
      · have key := of_decide_eq_true (Bool.and_eq_true_iff.mp now).2
        cases congrArg Prod.snd key
        simpa [single] using publishes_single publishes single (congrArg Prod.fst key)
    · have several : monitoring.single publication = false := by simpa using single
      rw [several, Bool.false_and, Bool.or_false] at claimed
      rw [consistent.exclusive hash address claimed, Bool.false_or]
      by_contra merged
      simp only [several, Bool.not_false, Bool.true_and, Bool.not_eq_false, Bool.and_eq_true,
        decide_eq_true_eq] at merged
      obtain ⟨rfl, among⟩ := merged
      obtain ⟨movement, member, sends⟩ := any_eq_true.mp among
      have free := (publishes_several publishes several).2 movement member hash
        (of_decide_eq_true sends)
      rw [free] at claimed
      cases claimed
  · show ((monitoring.polling.publications ++ [publication]).filter fun published =>
      !monitoring.single published).Pairwise _
    rw [filter_append]
    refine pairwise_append.mpr ⟨consistent.apart, ?_, ?_⟩
    · exact (pairwise_singleton _ publication).sublist filter_sublist
    · intro before earlier other new same
      obtain ⟨published, beforeSeveral⟩ := mem_filter.mp earlier
      obtain ⟨own, several⟩ := mem_filter.mp new
      cases mem_singleton.mp own
      exact (publishes_several publishes (by simpa using several)).1 before published
        (by simpa using beforeSeveral) same

/-! ## What an increase was received from -/

/-- An increase is no more than what was received between the two readings. -/
theorem Entry.increase_le {movements : List Movement} {entry : Entry}
    (holds : entry.Holds (Truthful movements)) (ordered : entry.base ≤ entry.reading.time) :
    entry.increase ≤ total Movement.amount
      (((movements.take entry.reading.time).drop entry.base).filter
        (Movement.into entry.key)) := by
  have previous : entry.previousBalance = balance (movements.take entry.base) entry.key := by
    rcases cached : entry.previous with _ | _ | reading
    · simp [Entry.previousBalance, Entry.base, cached, balance]
    · simp [Entry.previousBalance, Entry.base, cached, balance]
    · simpa [Entry.previousBalance, Entry.base, cached] using (holds.2 reading cached).2
  have earlier : movements.take entry.base =
      (movements.take entry.reading.time).take entry.base := by
    rw [take_take, Nat.min_eq_left ordered]
  have parts : ∀ keep : Movement → Bool,
      total Movement.amount ((movements.take entry.reading.time).filter keep) =
        total Movement.amount ((movements.take entry.base).filter keep) +
          total Movement.amount
            (((movements.take entry.reading.time).drop entry.base).filter keep) := by
    intro keep
    rw [earlier, ← total_append, ← filter_append, take_append_drop]
  have inflows := parts (Movement.into entry.key)
  have outflows := parts (Movement.outOf entry.key)
  rw [Entry.increase, previous, holds.1.2, balance, balance]
  omega

theorem Entry.bounded {entry : Entry} (holds : entry.Holds (Truthful monitoring.movements))
    (ordered : entry.base ≤ entry.reading.time) (currentBlock : Nat)
    (resolved : Option ResolvedTx) :
    monitoring.Bounded
      ⟨entry.message currentBlock resolved, entry.base, entry.reading.time⟩ :=
  ⟨ordered, holds.1.1, Entry.increase_le holds ordered⟩

/-! ## What a process knows -/

def MonitoringProcess.Known (monitoring : Monitoring) : MonitoringProcess → Prop
  | .detection (.realtime point) =>
    ∀ transfer ∈ point.carried, transfer ∈ monitoring.seen.flatten
  | .detection (.handler point) => point.Sound monitoring.polling.store
  | .polling (.poll point) => ∀ entry ∈ point.held, entry.Holds (Truthful monitoring.movements)
  | .polling (.reconcile point) =>
    ∀ entry ∈ point.held, entry.Holds (Truthful monitoring.movements)

theorem MonitoringProcess.Known.extend {process : MonitoringProcess}
    (known : process.Known monitoring) (extended : monitoring.Extends after) :
    process.Known after := by
  have entries : ∀ entry : Entry, entry.Holds (Truthful monitoring.movements) →
      entry.Holds (Truthful after.movements) :=
    fun entry holds => ⟨holds.1.extend extended.movements,
      fun reading read => (holds.2 reading read).extend extended.movements⟩
  rcases process with (point | point) | (point | point)
  · exact fun transfer carried => extended.seen transfer (known transfer carried)
  · exact HandlerPoint.Sound.extend known extended.store
  · exact fun entry member => entries entry (known entry member)
  · exact fun entry member => entries entry (known entry member)

/-- The provider answers with the balances of now. -/
theorem pollAnswer_truthful (answer : MonitoringAnswer) (process : PollingProcess) :
    ∀ key balance, (monitoring.pollAnswer answer process).balances key = some balance →
      Truthful monitoring.movements key
        ⟨balance, (monitoring.pollAnswer answer process).time⟩ := by
  intro key amount answered
  have now : Truthful monitoring.movements key
      ⟨balance monitoring.movements key, monitoring.movements.length⟩ :=
    ⟨Nat.le_refl _, by rw [take_length]⟩
  cases process with
  | poll point | reconcile point =>
    simp only [Monitoring.pollAnswer] at answered ⊢
    split at answered
    · cases answered
      exact now
    · cases answered

/-- What a statement leaves when it takes effect. -/
structure Monitoring.Keeps (monitoring : Monitoring)
    (statement : Statement Monitoring MonitoringProcess) : Prop where
  extended : monitoring.Extends statement.after
  consistent : statement.after.Consistent
  next : ∀ later, statement.next = some later → later.Known statement.after
  thrown : ∀ later, statement.thrown = some later → later.Known monitoring

variable {answer : MonitoringAnswer}

theorem RealtimePoint.statement_keeps {point : RealtimePoint} (consistent : monitoring.Consistent)
    (known : (MonitoringProcess.detection (.realtime point)).Known monitoring)
    (fits : (MonitoringProcess.detection (.realtime point)).fits monitoring answer = true) :
    monitoring.Keeps
      ((MonitoringProcess.detection (.realtime point)).statement monitoring answer) := by
  let answered := monitoring.realtimeAnswer answer (.realtime point)
  let left := (point.statement monitoring.detector answered).after
  obtain ⟨seen, store, next, thrown⟩ := point.statement_effect monitoring.detector answered
  have recorded : ({ monitoring with seen := left.seen } : Monitoring).Consistent := by
    rcases seen with same | new
    · rw [show left.seen = monitoring.seen from same]
      exact consistent
    · rw [show left.seen = monitoring.seen ++ [point.found monitoring.detector answered] from new]
      exact consistent.see fits
  have grows : ∀ transfer ∈ monitoring.seen.flatten, transfer ∈ left.seen.flatten := by
    intro transfer member
    rcases seen with same | new
    · rw [show left.seen = monitoring.seen from same]
      exact member
    · rw [show left.seen = monitoring.seen ++ [point.found monitoring.detector answered] from new,
        flatten_append]
      exact mem_append_left _ member
  have sent : monitoring.polling.store.Extends left.store ∧ left.store.Sound ∧
      ∀ message ∈ left.store.stream, message ∈ monitoring.polling.store.stream ∨
        ∃ transfer ∈ left.seen.flatten, ∃ blockNumber, message = transfer.message blockNumber := by
    rcases store with same | ⟨transfer, carried, blockNumber, published⟩
    · rw [show left.store = monitoring.polling.store from same]
      exact ⟨.refl _, consistent.rows, fun message member => .inl member⟩
    · rw [show left.store = monitoring.polling.store.publish (transfer.message blockNumber) from
        published]
      refine ⟨Store.publish_extends .., consistent.rows.extend (Store.publish_extends ..) rfl, ?_⟩
      intro message member
      rcases mem_append.mp member with before | new
      · exact .inl before
      · exact .inr ⟨transfer, grows transfer (known transfer carried), blockNumber,
          mem_singleton.mp new⟩
  obtain ⟨extended, rows, messages⟩ := sent
  refine ⟨⟨extended, prefix_rfl, grows⟩, ?_, ?_, ?_⟩
  · have moved : (monitoring.withDetector left).Consistent :=
      recorded.extend prefix_rfl rfl rfl rows consistent.cache messages
    exact moved
  · rintro process continues
    obtain ⟨wrapped, goesOn, rfl⟩ := map_eq_some_iff.mp continues
    obtain ⟨later, follows, rfl⟩ := map_eq_some_iff.mp goesOn
    intro transfer carried
    rcases next later follows transfer carried with before | ⟨member, new⟩
    · exact grows transfer (known transfer before)
    · show transfer ∈ left.seen.flatten
      rw [show left.seen = monitoring.seen ++ [point.found monitoring.detector answered] from new,
        flatten_append]
      exact mem_append_right _ (by simpa using member)
  · rintro process continues
    obtain ⟨wrapped, goesOn, rfl⟩ := map_eq_some_iff.mp continues
    obtain ⟨later, follows, rfl⟩ := map_eq_some_iff.mp goesOn
    exact fun transfer carried => known transfer (thrown later follows transfer carried)

theorem HandlerPoint.statement_keeps {point : HandlerPoint} (consistent : monitoring.Consistent)
    (known : (MonitoringProcess.detection (.handler point)).Known monitoring) :
    monitoring.Keeps
      ((MonitoringProcess.detection (.handler point)).statement monitoring answer) := by
  have extended := point.statement_extends monitoring.polling.store
  have messages : ∀ message ∈ (point.statement monitoring.polling.store).after.stream,
      message ∈ monitoring.polling.store.stream := by
    cases point with
    | findAddress | findToken | findChain | ack => exact fun _ sent => sent
    | insert =>
      intro message sent
      simpa [HandlerPoint.statement] using sent
  refine ⟨⟨extended, prefix_rfl, fun _ member => member⟩, ?_, ?_, ?_⟩
  · exact consistent.extend prefix_rfl rfl rfl
      (HandlerPoint.statement_sound consistent.rows known) consistent.cache
      fun message sent => .inl (messages message sent)
  · rintro process continues
    obtain ⟨wrapped, goesOn, rfl⟩ := map_eq_some_iff.mp continues
    obtain ⟨later, follows, rfl⟩ := map_eq_some_iff.mp goesOn
    exact HandlerPoint.next_sound known follows
  · cases point <;> simp [MonitoringProcess.statement, DetectionProcess.statement, Statement.map,
      Statement.within, HandlerPoint.statement]

theorem PollPoint.statement_keeps {point : PollPoint} (consistent : monitoring.Consistent)
    (known : (MonitoringProcess.polling (.poll point)).Known monitoring)
    (fits : (MonitoringProcess.polling (.poll point)).fits monitoring answer = true) :
    monitoring.Keeps
      ((MonitoringProcess.polling (.poll point)).statement monitoring answer) := by
  let answered := monitoring.pollAnswer answer (.poll point)
  let left := (point.statement monitoring.polling answered).after
  obtain ⟨cache, next, thrown⟩ := PollPoint.statement_holds consistent.cache known
    (pollAnswer_truthful answer (.poll point))
  have kept : monitoring.polling.store.Extends left.store ∧
      ({ monitoring with polling := left } : Monitoring).Consistent := by
    rcases point.statement_publishes monitoring.polling answered with
      ⟨store, publications⟩ | ⟨streamed, publication, about, store, publications⟩
    · rw [show left.store = monitoring.polling.store from store]
      refine ⟨.refl _, consistent.extend prefix_rfl rfl publications ?_ cache ?_⟩
      · show left.store.Sound
        rw [show left.store = monitoring.polling.store from store]
        exact consistent.rows
      · show ∀ message ∈ left.store.stream, _
        rw [show left.store = monitoring.polling.store from store]
        exact fun message sent => .inl sent
    · rw [show left.store = monitoring.polling.store.publish publication.message from store]
      have streamed : answer.streamed = true := streamed
      have publishes : monitoring.publishes publication = true := by
        simpa [MonitoringProcess.fits, streamed, about] using fits
      have bounded : monitoring.Bounded publication := by
        obtain ⟨currentBlock, entry, held, resolved, rfl⟩ :=
          PollPoint.publication?_eq_some about
        have ordered := of_decide_eq_true (Bool.and_eq_true_iff.mp publishes).1
        exact Entry.bounded (known entry held) ordered currentBlock resolved
      have recorded := consistent.publish bounded publishes
      refine ⟨Store.publish_extends .., recorded.extend prefix_rfl rfl publications ?_
        cache ?_⟩
      · show left.store.Sound
        rw [show left.store = monitoring.polling.store.publish publication.message from store]
        exact recorded.rows
      · show ∀ message ∈ left.store.stream, _
        rw [show left.store = monitoring.polling.store.publish publication.message from store]
        exact fun message sent => .inl sent
  obtain ⟨extended, kept⟩ := kept
  refine ⟨⟨extended, prefix_rfl, fun _ member => member⟩, kept, ?_, ?_⟩
  · rintro process continues
    obtain ⟨wrapped, goesOn, rfl⟩ := map_eq_some_iff.mp continues
    obtain ⟨later, follows, rfl⟩ := map_eq_some_iff.mp goesOn
    exact next later follows
  · rintro process continues
    obtain ⟨wrapped, goesOn, rfl⟩ := map_eq_some_iff.mp continues
    obtain ⟨later, follows, rfl⟩ := map_eq_some_iff.mp goesOn
    exact thrown later follows

theorem ReconcilePoint.statement_keeps {point : ReconcilePoint} (consistent : monitoring.Consistent)
    (known : (MonitoringProcess.polling (.reconcile point)).Known monitoring) :
    monitoring.Keeps
      ((MonitoringProcess.polling (.reconcile point)).statement monitoring answer) := by
  let answered := monitoring.pollAnswer answer (.reconcile point)
  let left := (point.statement monitoring.polling answered).after
  obtain ⟨cache, next⟩ := ReconcilePoint.statement_holds consistent.cache known
    (pollAnswer_truthful answer (.reconcile point))
  obtain ⟨store, publications⟩ := point.statement_store monitoring.polling answered
  refine ⟨⟨?_, prefix_rfl, fun _ member => member⟩, ?_, ?_, ?_⟩
  · show monitoring.polling.store.Extends left.store
    rw [show left.store = monitoring.polling.store from store]
    exact .refl _
  · refine consistent.extend prefix_rfl rfl publications ?_ cache ?_
    · show left.store.Sound
      rw [show left.store = monitoring.polling.store from store]
      exact consistent.rows
    · show ∀ message ∈ left.store.stream, _
      rw [show left.store = monitoring.polling.store from store]
      exact fun message sent => .inl sent
  · rintro process continues
    obtain ⟨wrapped, goesOn, rfl⟩ := map_eq_some_iff.mp continues
    obtain ⟨later, follows, rfl⟩ := map_eq_some_iff.mp goesOn
    exact next later follows
  · cases point <;> simp [MonitoringProcess.statement, PollingProcess.statement, Statement.map,
      Statement.within, ReconcilePoint.statement]

/-! ## The run -/

/-- The assertion of every process, and what holds of the records. -/
def crediting : ProofOutline Monitoring MonitoringProcess where
  Global := Monitoring.Consistent
  Local := fun monitoring process => process.Known monitoring
  Apart _ _ := True
  apart_symm := fun _ => trivial

theorem MonitoringProcess.statement_keeps {process : MonitoringProcess}
    (consistent : monitoring.Consistent) (known : process.Known monitoring)
    (fits : process.fits monitoring answer = true) :
    monitoring.Keeps (process.statement monitoring answer) := by
  rcases process with (point | point) | (point | point)
  · exact RealtimePoint.statement_keeps consistent known fits
  · exact HandlerPoint.statement_keeps consistent known
  · exact PollPoint.statement_keeps consistent known fits
  · exact ReconcilePoint.statement_keeps consistent known

/-- A statement that fails changes nothing, so that nothing has to fit. -/
theorem MonitoringProcess.thrown_known {process later : MonitoringProcess}
    (consistent : monitoring.Consistent) (known : process.Known monitoring)
    (thrown : (process.statement monitoring answer).thrown = some later) :
    later.Known monitoring := by
  rcases process with (point | point) | (point | point)
  · obtain ⟨wrapped, goesOn, rfl⟩ := map_eq_some_iff.mp thrown
    obtain ⟨next, follows, rfl⟩ := map_eq_some_iff.mp goesOn
    exact fun transfer carried => known transfer
      ((point.statement_effect monitoring.detector _).thrown next follows transfer carried)
  · exact (HandlerPoint.statement_keeps consistent known).thrown later thrown
  · obtain ⟨wrapped, goesOn, rfl⟩ := map_eq_some_iff.mp thrown
    obtain ⟨next, follows, rfl⟩ := map_eq_some_iff.mp goesOn
    exact (PollPoint.statement_holds consistent.cache known
      (pollAnswer_truthful answer (.poll point))).2.2 next follows
  · exact (ReconcilePoint.statement_keeps consistent known).thrown later thrown

/-- What begins from outside adds movements, addresses and tokens, and empties the cache. -/
structure Monitoring.Stays (before after : Monitoring) : Prop where
  movements : before.movements <+: after.movements
  seen : after.seen = before.seen
  publications : after.polling.publications = before.polling.publications
  store : before.polling.store.Extends after.polling.store
  deposits : after.polling.store.deposits = before.polling.store.deposits
  stream : after.polling.store.stream = before.polling.store.stream
  cache : after.polling.cache ⊆ before.polling.cache

theorem Monitoring.Stays.refl (monitoring : Monitoring) : monitoring.Stays monitoring :=
  ⟨prefix_rfl, rfl, rfl, .refl _, rfl, rfl, List.Subset.refl _⟩

theorem Monitoring.Stays.extends (stays : monitoring.Stays after) : monitoring.Extends after :=
  ⟨stays.store, stays.movements, fun transfer member => by rwa [stays.seen]⟩

theorem Monitoring.Stays.consistent (stays : monitoring.Stays after)
    (consistent : monitoring.Consistent) : after.Consistent := by
  refine consistent.extend stays.movements stays.seen stays.publications
    (consistent.rows.extend stays.store stays.deposits) ?_ ?_
  · exact fun key reading member =>
      (consistent.cache key reading (stays.cache member)).extend stays.movements
  · rw [stays.stream]
    exact fun message sent => .inl sent

theorem Monitoring.start_detect {begun : DetectionStart} {detector : Detector}
    {process : Option DetectionProcess} (inside : ∀ message, begun ≠ .poll message)
    (started : monitoring.detector.start begun = some (detector, process)) :
    monitoring.Stays (monitoring.withDetector detector) ∧
      ∀ point, process = some point →
        (MonitoringProcess.detection point).Known (monitoring.withDetector detector) := by
  cases begun with
  | block blockNumber =>
    cases started
    refine ⟨.refl monitoring, ?_⟩
    rintro point ⟨⟩ transfer carried
    cases carried
  | deliver position =>
    obtain ⟨message, found, equal⟩ := map_eq_some_iff.mp started
    cases equal
    refine ⟨.refl monitoring, ?_⟩
    rintro point ⟨⟩
    exact found
  | loadMonitoredAddresses watched =>
    cases started
    exact ⟨⟨prefix_rfl, rfl, rfl, .refl _, rfl, rfl, List.Subset.refl _⟩, by simp⟩
  | registerAddress row =>
    cases started
    have store : monitoring.polling.store.Extends { monitoring.polling.store with
        depositAddresses := monitoring.polling.store.depositAddresses ++ [row] } :=
      ⟨prefix_rfl, prefix_rfl, fun _ has => has⟩
    exact ⟨⟨prefix_rfl, rfl, rfl, store, rfl, rfl, List.Subset.refl _⟩, by simp⟩
  | registerToken token =>
    cases started
    have store : monitoring.polling.store.Extends { monitoring.polling.store with
        tokens := monitoring.polling.store.tokens ++ [token] } :=
      ⟨prefix_rfl, ⟨_, rfl⟩, fun _ has => has⟩
    exact ⟨⟨prefix_rfl, rfl, rfl, store, rfl, rfl, List.Subset.refl _⟩, by simp⟩
  | poll message => exact absurd rfl (inside message)

theorem Monitoring.start_poll {begun : PollingStart} {polling : Polling}
    {process : Option PollingProcess}
    (inside : ∀ addresses modes tokens known, begun ≠ .configure addresses modes tokens known)
    (started : monitoring.polling.start begun = some (polling, process)) :
    monitoring.Stays { monitoring with polling := polling } ∧
      ∀ point, process = some point →
        (MonitoringProcess.polling point).Known { monitoring with polling := polling } := by
  cases begun with
  | poll | reconcile =>
    cases started
    refine ⟨.refl monitoring, ?_⟩
    rintro point ⟨⟩ entry held
    cases held
  | expire key =>
    cases started
    refine ⟨⟨prefix_rfl, rfl, rfl, .refl _, rfl, rfl, ?_⟩, by simp⟩
    exact filter_subset_self _
  | expireHead | moveCursor =>
    cases started
    exact ⟨⟨prefix_rfl, rfl, rfl, .refl _, rfl, rfl, List.Subset.refl _⟩, by simp⟩
  | configure addresses modes tokens known =>
    exact absurd rfl (inside addresses modes tokens known)

/-- What begins from outside leaves the records, and a new process knows nothing yet. -/
theorem Monitoring.start_stays {begun : MonitoringStart} {process : Option MonitoringProcess}
    (started : monitoring.start begun = some (after, process)) :
    monitoring.Stays after ∧ ∀ point, process = some point → point.Known after := by
  cases begun with
  | mine block =>
    cases started
    exact ⟨⟨⟨_, rfl⟩, rfl, rfl, .refl _, rfl, rfl, List.Subset.refl _⟩, by simp⟩
  | credit key amount =>
    cases started
    exact ⟨⟨⟨_, rfl⟩, rfl, rfl, .refl _, rfl, rfl, List.Subset.refl _⟩, by simp⟩
  | withdraw key amount =>
    simp only [Monitoring.start] at started
    split at started
    · cases started
      exact ⟨⟨⟨_, rfl⟩, rfl, rfl, .refl _, rfl, rfl, List.Subset.refl _⟩, by simp⟩
    · cases started
  | detect begun =>
    have began : ∃ detector process', monitoring.detector.start begun =
        some (detector, process') ∧ (∀ message, begun ≠ .poll message) ∧
        after = monitoring.withDetector detector ∧ process = process'.map .detection := by
      cases begun with
      | poll message => cases started
      | block | deliver | loadMonitoredAddresses | registerAddress | registerToken =>
        simp only [Monitoring.start, map_eq_some_iff] at started
        obtain ⟨⟨detector, process'⟩, moved, same⟩ := started
        cases same
        exact ⟨detector, process', moved, by simp, rfl, rfl⟩
    obtain ⟨detector, process', moved, inside, rfl, rfl⟩ := began
    obtain ⟨stays, own⟩ := Monitoring.start_detect inside moved
    refine ⟨stays, ?_⟩
    intro point continues
    obtain ⟨detecting, found, rfl⟩ := map_eq_some_iff.mp continues
    exact own detecting found
  | poll begun =>
    have began : ∃ polling process', monitoring.polling.start begun = some (polling, process') ∧
        (∀ addresses modes tokens known,
          begun ≠ .configure addresses modes tokens known) ∧
        after = { monitoring with polling := polling } ∧ process = process'.map .polling := by
      cases begun with
      | configure => cases started
      | poll | reconcile | expire | expireHead | moveCursor =>
        simp only [Monitoring.start, map_eq_some_iff] at started
        obtain ⟨⟨polling, process'⟩, moved, same⟩ := started
        cases same
        exact ⟨polling, process', moved, by simp, rfl, rfl⟩
    obtain ⟨polling, process', moved, inside, rfl, rfl⟩ := began
    obtain ⟨stays, own⟩ := Monitoring.start_poll inside moved
    refine ⟨stays, ?_⟩
    intro point continues
    obtain ⟨polls, found, rfl⟩ := map_eq_some_iff.mp continues
    exact own polls found
  | configure addresses modes chainKnown =>
    cases started
    exact ⟨⟨prefix_rfl, rfl, rfl, .refl _, rfl, rfl, List.Subset.refl _⟩, by simp⟩

/-- In every healthy run, no more is credited than was received. -/
theorem inflows_credited_once {state : MonitoringState}
    (reached : monitoringServices.system.Reachable MonitoringState.Healthy state)
    (forwarder : Address) (tokenId : Nat) :
    state.shared.credited forwarder tokenId ≤ state.shared.received forwarder tokenId := by
  have joint : crediting.Holds state := by
    refine ProofOutline.reachable reached ?_ ?_ ?_
    · rintro monitoring ⟨chain, movements, ⟨seen, stream, acked, deposits⟩, ⟨cache, _, _,
        publications⟩⟩
      have nothing : monitoring.seen = [] := seen
      have none : monitoring.polling.store.stream = [] := stream
      have rows : monitoring.polling.store.deposits = [] := deposits
      refine ⟨⟨by simp [rows], by simp [rows]⟩, by simp [cache], by simp [none],
        by simp [nothing], by simp [publications], ?_, by simp [publications]⟩
      intro hash address claimed
      simp [Monitoring.claimed, nothing, publications] at claimed
    · intro before begun shared process holds _ started
      obtain ⟨stays, own⟩ := Monitoring.start_stays started
      exact ⟨stays.consistent holds.global, own,
        fun other point _ running => (holds.locals other point running).extend stays.extends,
        fun _ _ _ _ _ _ => trivial⟩
    · intro before pid process input shared next holds healthy running moved
      have known := holds.locals pid process running
      have thrown : ∀ later, (process.statement before.shared input.answer).thrown = some later →
          later.Known before.shared :=
        fun later goesOn => MonitoringProcess.thrown_known holds.global known goesOn
      have others : ∀ shared, before.shared.Extends shared → ∀ other point, other ≠ pid →
          before.process? other = some point → point.Known shared :=
        fun shared extended other point _ runs => (holds.locals other point runs).extend extended
      obtain ⟨rfl, ending⟩ | ⟨_, rfl, rfl⟩ :=
        Statement.perform_cases (Option.some.inj moved)
      · have takes : input.ending ≠ .failed := by
          rcases ending with ⟨done, _⟩ | ⟨lost, _⟩
          · simp [done]
          · simp [lost]
        have fits : process.fits before.shared input.answer = true := by
          simpa [MonitoringState.Healthy, MonitoringState.healthy, running, takes] using healthy
        have keeps := MonitoringProcess.statement_keeps holds.global known fits
        refine ⟨keeps.consistent, ?_, others _ keeps.extended, fun _ _ _ _ _ _ => trivial⟩
        rcases ending with ⟨_, rfl⟩ | ⟨_, rfl⟩
        · exact keeps.next
        · exact fun later goesOn => (thrown later goesOn).extend keeps.extended
      · exact ⟨holds.global, thrown, others _ (.refl _), fun _ _ _ _ _ _ => trivial⟩
  exact joint.global.credited_le forwarder tokenId

/-! ## A forwarder with one inflow -/

/-- The forwarder 7 is monitored by both detectors. -/
def sampleMonitoring : Monitoring where
  chain := []
  movements := []
  watched := [7]
  lastBlock := 0
  seen := []
  polling := samplePolling

theorem sampleMonitoring_initial : monitoringServices.system.Initial ⟨sampleMonitoring, []⟩ :=
  ⟨⟨rfl, rfl, ⟨rfl, rfl, rfl, rfl⟩, rfl, rfl, rfl, rfl⟩, rfl⟩

/-- A statement that succeeds; the provider has the block. -/
def monitors (pid : Nat) : MonitoringAction :=
  .advance pid ⟨.done, ⟨fun _ => true, true, 0, true⟩⟩

/-- Block 1 sends the forwarder 3, is scanned, and its message handled. -/
def detectInflow (pid : Nat) : List MonitoringAction :=
  [.launch (.mine [⟨⟨1, 9, some 7, 3⟩, true, []⟩]), .launch (.detect (.block 1))] ++
    List.replicate 7 (monitors (pid + 1)) ++ [.launch (.detect (.deliver 0))] ++
    List.replicate 5 (monitors (pid + 2))

/-- The inflow is polled once, then detected in its block, and credited once. -/
theorem inflows_credited_once_sample :
    ∃ state : MonitoringState, state.shared.credited 7 1 = 3 ∧
      state.shared.credited 7 1 ≤ state.shared.received 7 1 := by
  obtain ⟨state, reached, credited⟩ : ∃ state,
      monitoringServices.system.Reachable MonitoringState.Healthy state ∧
      state.shared.credited 7 1 = 3 :=
    exists_reachable sampleMonitoring_initial
      ([.launch (.mine []), .launch (.poll .poll)] ++ List.replicate 12 (monitors 1) ++
        [.launch (.poll .expireHead)] ++ detectInflow 3 ++ [.launch (.poll .poll)] ++
        List.replicate 15 (monitors 6) ++ [.launch (.detect (.deliver 1))] ++
        List.replicate 5 (monitors 7)) (by decide +kernel)
  exact ⟨state, credited, inflows_credited_once reached 7 1⟩

/-- The first poll of an address finds no transaction, so that an inflow that was detected
in its block is credited again. -/
theorem inflow_credited_twice :
    ¬ ∀ state : MonitoringState, monitoringServices.system.Reachable Unrestricted state →
      ∀ forwarder tokenId,
        state.shared.credited forwarder tokenId ≤ state.shared.received forwarder tokenId := by
  intro always
  obtain ⟨state, reached, credited, received⟩ : ∃ state,
      monitoringServices.system.Reachable Unrestricted state ∧
      state.shared.credited 7 1 = 6 ∧ state.shared.received 7 1 = 3 :=
    exists_reachable sampleMonitoring_initial
      ([.launch (.mine [])] ++ detectInflow 1 ++ [.launch (.poll .poll)] ++
        List.replicate 13 (monitors 4) ++ [.launch (.detect (.deliver 1))] ++
        List.replicate 5 (monitors 5)) (by decide +kernel)
  have bounded := always state reached 7 1
  omega

end CryptoVaultHub.Indexer
