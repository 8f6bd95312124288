import CryptoVaultHub.Indexer.DepositAccounting
import CryptoVaultHub.Indexer.PollingIncreases

/-!
# What a statement of a detector can do

A statement of the detector of blocks records what it finds and publishes what it carries.
A statement of a poll, or of the reconciliation, takes its balances from the provider and
from the cache, and publishes at one point only. Nothing here depends on how the
statement ends.
-/

namespace CryptoVaultHub.Indexer

open List Option

/-! ## The detector of blocks -/

/-- What a statement of the detector of blocks leaves. -/
structure RealtimePoint.Effect (detector after : Detector) (found : List Transfer)
    (point : RealtimePoint) (next thrown : Option RealtimePoint) : Prop where
  seen : after.seen = detector.seen ∨ after.seen = detector.seen ++ [found]
  store : after.store = detector.store ∨ ∃ transfer ∈ point.carried, ∃ blockNumber,
    after.store = detector.store.publish (transfer.message blockNumber)
  next : ∀ later, next = some later → ∀ transfer ∈ later.carried,
    transfer ∈ point.carried ∨ (transfer ∈ found ∧ after.seen = detector.seen ++ [found])
  thrown : ∀ later, thrown = some later → ∀ transfer ∈ later.carried, transfer ∈ point.carried

theorem RealtimePoint.statement_effect (point : RealtimePoint) (detector : Detector)
    (answer : RealtimeAnswer) :
    point.Effect detector (point.statement detector answer).after (point.found detector answer)
      (point.statement detector answer).next (point.statement detector answer).thrown := by
  have none : ∀ later : RealtimePoint, (Option.none : Option RealtimePoint) = some later →
      ∀ transfer ∈ later.carried, transfer ∈ point.carried := by
    rintro later ⟨⟩
  cases point with
  | getProvider blockNumber =>
    refine ⟨.inl rfl, .inl rfl, ?_, none⟩
    rintro later ⟨⟩ transfer member
    cases member
  | getLogs blockNumber =>
    refine ⟨.inr rfl, .inl rfl, ?_, none⟩
    rintro later ⟨⟩ transfer member
    exact .inr ⟨member, rfl⟩
  | getBlock blockNumber deposits =>
    refine ⟨.inr rfl, .inl rfl, ?_, none⟩
    rintro later ⟨⟩ transfer member
    exact (mem_append.mp member).imp_right fun new => ⟨new, rfl⟩
  | getHash blockNumber deposits =>
    refine ⟨.inl rfl, .inl rfl, ?_, none⟩
    intro later continues transfer member
    simp only [RealtimePoint.statement] at continues
    split at continues
    · cases continues
      exact .inl member
    · exact .inl (publishing_carried continues transfer member)
  | cacheHash blockNumber deposits =>
    refine ⟨.inl rfl, .inl rfl, ?_, none⟩
    exact fun later continues transfer member =>
      .inl (publishing_carried continues transfer member)
  | publish blockNumber left failed =>
    simp only [RealtimePoint.statement]
    split
    · refine ⟨.inl rfl, .inl rfl, ?_, ?_⟩
      · rintro later ⟨⟩ transfer member
        exact .inl member
      · rintro later ⟨⟩ transfer member
        exact member
    · rename_i transfer found
      have rest : ∀ flag, ∀ later, RealtimePoint.publishing blockNumber
          (left.eraseIdx answer.chosen) flag = some later →
          ∀ transfer ∈ later.carried, transfer ∈ left :=
        fun flag later continues other member =>
          mem_of_mem_eraseIdx (publishing_carried continues other member)
      refine ⟨?_, ?_, fun later continues other member =>
        .inl (rest failed later continues other member), rest true⟩
      · split <;> exact .inl rfl
      · split
        · exact .inr ⟨transfer, mem_of_getElem? found, blockNumber, rfl⟩
        · exact .inl rfl
  | updateCursor blockNumber =>
    refine ⟨.inl rfl, .inl rfl, ?_, none⟩
    rintro later ⟨⟩

/-! ## Polls -/

/-- The entries that a poll holds. -/
def PollPoint.held (point : PollPoint) : List Entry :=
  point.entries ++ point.unpublished

def ReconcilePoint.held : ReconcilePoint → List Entry
  | .multicall _ => []
  | .readCache key onChain rest | .writeCache key onChain rest => Entry.start key onChain :: rest

/-- A property of what was read for a key, of the balance and of the entry of the cache. -/
def Entry.Holds (Property : BalanceKey → Reading → Prop) (entry : Entry) : Prop :=
  Property entry.key entry.reading ∧
    ∀ reading, entry.previous = some (some reading) → Property entry.key reading

variable {Property : BalanceKey → Reading → Prop}

theorem mem_of_lookup {cache : List (BalanceKey × Reading)} {key : BalanceKey}
    {reading : Reading} (found : cache.lookup key = some reading) : (key, reading) ∈ cache := by
  induction cache with
  | nil => cases found
  | cons entry rest ih =>
    obtain ⟨first, stored⟩ := entry
    by_cases same : key = first
    · subst same
      simp only [lookup_cons, beq_self_eq_true] at found
      cases found
      exact mem_cons_self ..
    · have skipped : (key == first) = false := beq_eq_false_iff_ne.mpr same
      rw [lookup_cons, skipped] at found
      exact mem_cons_of_mem _ (ih found)

theorem emit_held {currentBlock : Nat} {entries : List Entry} {later : PollPoint}
    (continues : PollPoint.emit currentBlock entries = some later) :
    ∀ entry ∈ later.held, entry ∈ entries := by
  induction entries with
  | nil => cases continues
  | cons entry rest ih =>
    unfold PollPoint.emit at continues
    split at continues
    · split at continues <;> cases continues <;> exact fun _ member => member
    · exact fun other member =>
        mem_cons_of_mem _ (ih continues other member)

theorem writing_held {currentBlock : Nat} {entries : List Entry} {failed : Bool}
    {later : PollPoint} (continues : PollPoint.writing currentBlock entries failed = some later) :
    ∀ entry ∈ later.held, entry ∈ entries := by
  unfold PollPoint.writing at continues
  split at continues
  · split at continues
    · cases continues
    · exact emit_held continues
  · cases continues
    intro entry member
    rcases mem_append.mp member with held | written
    · exact held
    · exact mem_of_mem_filter written

theorem reading_held {currentBlock : Nat} {entries : List Entry} {later : PollPoint}
    (continues : PollPoint.reading currentBlock entries = some later) :
    ∀ entry ∈ later.held, entry ∈ entries := by
  unfold PollPoint.reading at continues
  split at continues
  · exact writing_held continues
  · cases continues
    intro entry member
    rcases mem_append.mp member with held | written
    · exact held
    · exact mem_of_mem_filter written

theorem decodeBalances_holds {answer : PollAnswer} {calls : List BalanceKey}
    (answers : ∀ key balance, answer.balances key = some balance →
      Property key ⟨balance, answer.time⟩) :
    ∀ entry ∈ decodeBalances answer calls, entry.Holds Property := by
  intro entry member
  obtain ⟨key, _, decoded⟩ := mem_filterMap.mp member
  obtain ⟨balance, answered, rfl⟩ := map_eq_some_iff.mp decoded
  refine ⟨answers key balance answered, ?_⟩
  rintro reading ⟨⟩

/-- What a poll holds after a statement was read from the provider or the cache. -/
theorem PollPoint.statement_holds {polling : Polling} {answer : PollAnswer} {point : PollPoint}
    (cache : ∀ key reading, (key, reading) ∈ polling.cache → Property key reading)
    (held : ∀ entry ∈ point.held, entry.Holds Property)
    (answers : ∀ key balance, answer.balances key = some balance →
      Property key ⟨balance, answer.time⟩) :
    (∀ key reading, (key, reading) ∈ (point.statement polling answer).after.cache →
        Property key reading) ∧
      (∀ later, (point.statement polling answer).next = some later →
        ∀ entry ∈ later.held, entry.Holds Property) ∧
      ∀ later, (point.statement polling answer).thrown = some later →
        ∀ entry ∈ later.held, entry.Holds Property := by
  have same : ∀ {entries : List Entry} {later : PollPoint},
      (∀ entry ∈ later.held, entry ∈ entries) → (∀ entry ∈ entries, entry.Holds Property) →
      ∀ entry ∈ later.held, entry.Holds Property :=
    fun inside holds entry member => holds entry (inside entry member)
  have none : ∀ later : PollPoint, (Option.none : Option PollPoint) = some later →
      ∀ entry ∈ later.held, entry.Holds Property := by
    rintro later ⟨⟩
  have kept : ∀ next : PollPoint, (∀ entry ∈ next.held, entry.Holds Property) →
      ∀ later, some next = some later → ∀ entry ∈ later.held, entry.Holds Property := by
    rintro next holds later ⟨⟩
    exact holds
  cases point with
  | findAddresses | findConfigs =>
    refine ⟨cache, ?_, none⟩
    intro later continues
    simp only [PollPoint.statement] at continues
    split at continues
    · cases continues
    · cases continues
      exact held
  | findChain calls =>
    refine ⟨cache, ?_, none⟩
    intro later continues
    simp only [PollPoint.statement] at continues
    split at continues
    · cases continues
      exact held
    · cases continues
  | findTokens addresses =>
    exact ⟨cache, kept (.getProvider _) held, none⟩
  | getProvider calls =>
    exact ⟨cache, kept (.findChain calls) held, none⟩
  | multicall calls =>
    refine ⟨cache, kept (.getHead (decodeBalances answer calls)) ?_, none⟩
    have decoded : ∀ entry ∈ decodeBalances answer calls, entry.Holds Property :=
      decodeBalances_holds answers
    refine same ?_ decoded
    intro entry member
    rcases mem_append.mp member with inside | unpublished
    · exact inside
    · cases unpublished
  | getHead entries =>
    refine ⟨cache, ?_, none⟩
    intro later continues
    simp only [PollPoint.statement] at continues
    split at continues <;> cases continues <;> exact held
  | getBlockNumber entries =>
    exact ⟨cache, kept (.setHead entries answer.blockNumber) held,
      kept (.findCursor entries) held⟩
  | setHead entries head =>
    exact ⟨cache, kept (.updateCursor entries head) held, kept (.findCursor entries) held⟩
  | findCursor entries =>
    exact ⟨cache, kept (.updateCursor entries (polling.cursor.getD 0)) held, none⟩
  | updateCursor entries currentBlock =>
    have holds : ∀ entry ∈ entries, entry.Holds Property :=
      fun entry member => held entry (mem_append_left _ member)
    exact ⟨cache, fun later continues => same (reading_held continues) holds,
      fun later continues => same (reading_held continues) holds⟩
  | readCache currentBlock entries =>
    have holds : ∀ entry ∈ entries, entry.Holds Property :=
      fun entry member => held entry (mem_append_left _ member)
    simp only [PollPoint.statement]
    split
    · rename_i key balance done found
      refine ⟨cache, fun later continues => same (reading_held continues) ?_, none⟩
      intro entry member
      rcases mem_or_eq_of_mem_set member with old | rfl
      · exact holds entry old
      · refine ⟨(holds _ (mem_of_getElem? found)).1, ?_⟩
        intro reading read
        exact cache key reading (mem_of_lookup (Option.some.inj read))
    · exact ⟨cache, kept (.readCache currentBlock entries) held, none⟩
  | writeCache currentBlock entries failed =>
    have holds : ∀ entry ∈ entries, entry.Holds Property :=
      fun entry member => held entry (mem_append_left _ member)
    simp only [PollPoint.statement]
    split
    · rename_i key balance previous found
      have own := holds _ (mem_of_getElem? found)
      have written : ∀ entry ∈ entries.set answer.chosen ⟨key, balance, previous, true⟩,
          entry.Holds Property := by
        intro entry member
        rcases mem_or_eq_of_mem_set member with old | rfl
        · exact holds entry old
        · exact own
      refine ⟨?_, fun later continues => same (writing_held continues) written,
        fun later continues => same (writing_held continues) written⟩
      intro other reading member
      rcases mem_cons.mp member with same | before
      · cases same
        exact own.1
      · exact cache other reading (mem_of_mem_filter before)
    · exact ⟨cache, kept (.writeCache currentBlock entries failed) held,
        kept (.writeCache currentBlock entries failed) held⟩
  | lookupProvider currentBlock entry rest =>
    refine ⟨cache, ?_, kept (.publish currentBlock entry rest .none) held⟩
    intro later continues
    simp only [PollPoint.statement] at continues
    split at continues <;> cases continues <;> exact held
  | lookupBlock currentBlock entry rest blockNumber =>
    refine ⟨cache, ?_, kept (.publish currentBlock entry rest .none) held⟩
    intro later continues
    simp only [PollPoint.statement, PollPoint.lookupBefore] at continues
    split at continues
    · cases continues
      exact held
    · split at continues <;> cases continues <;> exact held
  | lookupLogs currentBlock entry rest =>
    exact ⟨cache, kept (.publish currentBlock entry rest _) held,
      kept (.publish currentBlock entry rest .none) held⟩
  | publish currentBlock entry rest resolved =>
    have holds : ∀ other ∈ rest, other.Holds Property :=
      fun other member => held other (mem_cons_of_mem _ member)
    refine ⟨?_, fun later continues => same (emit_held continues) holds, none⟩
    simp only [PollPoint.statement]
    split <;> exact cache

theorem ReconcilePoint.statement_holds {polling : Polling} {answer : PollAnswer}
    {point : ReconcilePoint}
    (cache : ∀ key reading, (key, reading) ∈ polling.cache → Property key reading)
    (held : ∀ entry ∈ point.held, entry.Holds Property)
    (answers : ∀ key balance, answer.balances key = some balance →
      Property key ⟨balance, answer.time⟩) :
    (∀ key reading, (key, reading) ∈ (point.statement polling answer).after.cache →
        Property key reading) ∧
      ∀ later, (point.statement polling answer).next = some later →
        ∀ entry ∈ later.held, entry.Holds Property := by
  have continued : ∀ {entries : List Entry} {later : ReconcilePoint},
      ReconcilePoint.continue entries = some later →
      (∀ entry ∈ entries, entry.Holds Property) → ∀ entry ∈ later.held, entry.Holds Property := by
    intro entries later continues holds
    cases entries with
    | nil => cases continues
    | cons first rest =>
      cases continues
      intro entry member
      rcases mem_cons.mp member with rfl | inRest
      · refine ⟨(holds first (mem_cons_self ..)).1, ?_⟩
        rintro reading ⟨⟩
      · exact holds entry (mem_cons_of_mem _ inRest)
  cases point with
  | multicall calls =>
    exact ⟨cache, fun later continues => continued continues (decodeBalances_holds answers)⟩
  | readCache key onChain rest =>
    refine ⟨?_, ?_⟩
    · simp only [ReconcilePoint.statement]
      split <;> exact cache
    · rintro later ⟨⟩
      exact held
  | writeCache key onChain rest =>
    refine ⟨?_, fun later continues => continued continues fun entry member =>
      held entry (mem_cons_of_mem _ member)⟩
    intro other reading member
    rcases mem_cons.mp member with same | before
    · cases same
      exact (held _ (mem_cons_self ..)).1
    · exact cache other reading (mem_of_mem_filter before)

/-- The publication that a poll is about to make. -/
def PollPoint.publication? : PollPoint → Option Publication
  | .publish currentBlock entry _ resolved =>
    some ⟨entry.message currentBlock resolved, entry.base, entry.reading.time⟩
  | .findAddresses | .findConfigs _ | .findTokens _ | .getProvider _ | .findChain _
  | .multicall _ | .getHead _ | .getBlockNumber _ | .setHead .. | .findCursor _
  | .updateCursor .. | .readCache .. | .writeCache .. | .lookupProvider .. | .lookupBlock ..
  | .lookupLogs .. => none

theorem PollPoint.publication?_eq_some {point : PollPoint} {publication : Publication}
    (about : point.publication? = some publication) :
    ∃ currentBlock, ∃ entry ∈ point.held, ∃ resolved, publication =
      ⟨entry.message currentBlock resolved, entry.base, entry.reading.time⟩ := by
  cases point with
  | publish currentBlock entry rest resolved =>
    cases about
    exact ⟨currentBlock, entry, mem_cons_self .., resolved, rfl⟩
  | findAddresses | findConfigs | findTokens | getProvider | findChain | multicall | getHead
  | getBlockNumber | setHead | findCursor | updateCursor | readCache | writeCache
  | lookupProvider | lookupBlock | lookupLogs => cases about

/-- A statement leaves the store and the record, or makes its publication. -/
theorem PollPoint.statement_publishes (point : PollPoint) (polling : Polling)
    (answer : PollAnswer) :
    ((point.statement polling answer).after.store = polling.store ∧
        (point.statement polling answer).after.publications = polling.publications) ∨
      answer.streamed = true ∧ ∃ publication, point.publication? = some publication ∧
        (point.statement polling answer).after.store =
          polling.store.publish publication.message ∧
        (point.statement polling answer).after.publications =
          polling.publications ++ [publication] := by
  cases point with
  | publish currentBlock entry rest resolved =>
    simp only [PollPoint.statement]
    split
    · rename_i streamed
      exact .inr ⟨streamed, _, rfl, rfl, rfl⟩
    · exact .inl ⟨rfl, rfl⟩
  | readCache currentBlock entries | writeCache currentBlock entries failed =>
    simp only [PollPoint.statement]
    split <;> exact .inl ⟨rfl, rfl⟩
  | findAddresses | findConfigs | findTokens | getProvider | findChain | multicall | getHead
  | getBlockNumber | setHead | findCursor | updateCursor | lookupProvider | lookupBlock
  | lookupLogs => exact .inl ⟨rfl, rfl⟩

theorem ReconcilePoint.statement_store (point : ReconcilePoint) (polling : Polling)
    (answer : PollAnswer) :
    (point.statement polling answer).after.store = polling.store ∧
      (point.statement polling answer).after.publications = polling.publications := by
  cases point with
  | multicall | writeCache => exact ⟨rfl, rfl⟩
  | readCache key onChain rest =>
    simp only [ReconcilePoint.statement]
    split <;> exact ⟨rfl, rfl⟩

end CryptoVaultHub.Indexer
