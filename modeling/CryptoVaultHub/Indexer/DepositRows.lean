import CryptoVaultHub.Indexer.DepositPersistence

/-!
# Rows and the messages they come from

The stream, the tokens and the keys of the rows only grow. A row has the amount and the
token of a message with its key, and no two rows have the same key, however often and in
whatever order the messages are handled.
-/

namespace CryptoVaultHub.Indexer

/-- What a row is unique on, in the message it is made from. -/
def Message.key (message : Message) : DepositHash × Address :=
  (message.txHash, message.toAddress)

/-- Some row has the key of a message. -/
def Store.HasRow (store : Store) (message : Message) : Prop :=
  ∃ row ∈ store.deposits, row.key = message.key

/-! ## What only grows -/

structure Store.Extends (before after : Store) : Prop where
  stream : before.stream <+: after.stream
  tokens : before.tokens <+: after.tokens
  rows : ∀ message, before.HasRow message → after.HasRow message

theorem Store.Extends.refl (store : Store) : store.Extends store :=
  ⟨List.prefix_rfl, List.prefix_rfl, fun _ has => has⟩

variable {before after : Store}

theorem Store.Extends.getElem? (extended : before.Extends after) {position : Nat}
    {message : Message} (found : before.stream[position]? = some message) :
    after.stream[position]? = some message := by
  obtain ⟨rest, grown⟩ := extended.stream
  obtain ⟨inside, _⟩ := List.getElem?_eq_some_iff.mp found
  rw [← grown, List.getElem?_append_left inside]
  exact found

theorem Store.Extends.mem (extended : before.Extends after) {message : Message}
    (sent : message ∈ before.stream) : message ∈ after.stream :=
  extended.stream.subset sent

/-- The first match stays the first when tokens are added. -/
theorem Store.Extends.tokenId? (extended : before.Extends after) {contractAddress : Address}
    {id : Nat} (known : before.tokenId? contractAddress = some id) :
    after.tokenId? contractAddress = some id := by
  obtain ⟨rest, grown⟩ := extended.tokens
  obtain ⟨token, found, rfl⟩ := Option.map_eq_some_iff.mp known
  refine Option.map_eq_some_iff.mpr ⟨token, ?_, rfl⟩
  by_cases native : contractAddress = zeroAddress
  · simp only [if_pos native] at found ⊢
    rw [← grown, List.find?_append, found, Option.some_or]
  · simp only [if_neg native] at found ⊢
    rw [← grown, List.find?_append, found, Option.some_or]

/-! ## Inserting a row -/

/-- The keys after an insertion. -/
theorem Store.insert_keys (store : Store) (deposit : Deposit) :
    (store.insert deposit).deposits.map Deposit.key =
      if deposit.key ∈ store.deposits.map Deposit.key then store.deposits.map Deposit.key
      else store.deposits.map Deposit.key ++ [deposit.key] := by
  have listed : (store.deposits.any fun row => row.key = deposit.key) = true ↔
      deposit.key ∈ store.deposits.map Deposit.key := by
    simp only [List.any_eq_true, decide_eq_true_eq, List.mem_map]
  by_cases present : (store.deposits.any fun row => row.key = deposit.key) = true
  · rw [if_pos (listed.mp present), Store.insert, if_pos present, List.map_map]
    refine List.map_congr_left ?_
    intro row _
    by_cases same : row.key = deposit.key
    · simp only [Function.comp_apply, if_pos same]
      rfl
    · simp only [Function.comp_apply, if_neg same]
  · have absent : deposit.key ∉ store.deposits.map Deposit.key := mt listed.mpr present
    rw [if_neg absent, Store.insert, if_neg present, List.map_append]
    rfl

variable {store : Store}

/-- The row that an insertion leaves is the new one or differs from an old one only in the
confirmations it requires. -/
theorem Store.mem_insert {deposit row : Deposit} (stored : row ∈ (store.insert deposit).deposits) :
    row = deposit ∨ ∃ old ∈ store.deposits,
      row = { old with confirmationsRequired := row.confirmationsRequired } := by
  unfold Store.insert at stored
  split at stored
  · right
    obtain ⟨old, before, rfl⟩ := List.mem_map.mp stored
    refine ⟨old, before, ?_⟩
    by_cases same : old.key = deposit.key
    · simp only [if_pos same]
    · simp only [if_neg same]
  · rcases List.mem_append.mp stored with before | new
    · exact .inr ⟨row, before, rfl⟩
    · exact .inl (List.mem_singleton.mp new)

theorem Store.insert_hasKey {deposit : Deposit} :
    ∃ row ∈ (store.insert deposit).deposits, row.key = deposit.key := by
  refine List.mem_map.mp ?_
  rw [Store.insert_keys]
  by_cases present : deposit.key ∈ store.deposits.map Deposit.key
  · simpa only [if_pos present] using present
  · simp only [if_neg present, List.mem_append, List.mem_singleton, or_true]

@[simp] theorem Store.insert_stream (store : Store) (deposit : Deposit) :
    (store.insert deposit).stream = store.stream := by
  unfold Store.insert
  split <;> rfl

@[simp] theorem Store.insert_tokens (store : Store) (deposit : Deposit) :
    (store.insert deposit).tokens = store.tokens := by
  unfold Store.insert
  split <;> rfl

@[simp] theorem Store.insert_acked (store : Store) (deposit : Deposit) :
    (store.insert deposit).acked = store.acked := by
  unfold Store.insert
  split <;> rfl

theorem Store.insert_extends (store : Store) (deposit : Deposit) :
    store.Extends (store.insert deposit) where
  stream := by simp
  tokens := by simp
  rows := by
    rintro message ⟨row, stored, key⟩
    refine List.mem_map.mp ?_
    rw [Store.insert_keys, ← key]
    have before := List.mem_map_of_mem (f := Deposit.key) stored
    by_cases present : deposit.key ∈ store.deposits.map Deposit.key
    · simpa only [if_pos present] using before
    · simpa only [if_neg present, List.mem_append] using Or.inl before

theorem Store.publish_extends (store : Store) (message : Message) :
    store.Extends (store.publish message) :=
  ⟨⟨_, rfl⟩, List.prefix_rfl, fun _ has => has⟩

/-! ## The handler -/

theorem HandlerPoint.statement_extends (point : HandlerPoint) (store : Store) :
    store.Extends (point.statement store).after := by
  cases point with
  | findAddress | findToken | findChain => exact .refl store
  | insert => exact store.insert_extends _
  | ack => exact ⟨List.prefix_rfl, List.prefix_rfl, fun _ has => has⟩

/-- A row is made from a message: it has its key and amount, and the id of its token. -/
def Store.Stems (store : Store) (row : Deposit) (message : Message) : Prop :=
  row.key = message.key ∧ row.amount = message.amount ∧
    store.tokenId? message.contractAddress = some row.tokenId

/-- What holds of the rows in every run. -/
structure Store.Sound (store : Store) : Prop where
  unique : (store.deposits.map Deposit.key).Nodup
  origin : ∀ row ∈ store.deposits, ∃ message ∈ store.stream, store.Stems row message

/-- What the handler knows at each of its points. -/
def HandlerPoint.Sound (store : Store) : HandlerPoint → Prop
  | .findAddress position message | .findToken position message _ =>
    store.stream[position]? = some message
  | .findChain position message _ tokenId | .insert position message _ tokenId _ =>
    store.stream[position]? = some message ∧
      store.tokenId? message.contractAddress = some tokenId
  | .ack _ => True

variable {point : HandlerPoint}

theorem HandlerPoint.Sound.extend {store after : Store} (sound : point.Sound store)
    (extended : store.Extends after) : point.Sound after := by
  cases point with
  | findAddress | findToken => exact extended.getElem? sound
  | findChain | insert => exact ⟨extended.getElem? sound.1, extended.tokenId? sound.2⟩
  | ack => trivial

/-- The rows stay as they are while the stream and the tokens grow. -/
theorem Store.Sound.extend {store after : Store} (sound : store.Sound)
    (extended : store.Extends after) (same : after.deposits = store.deposits) :
    after.Sound where
  unique := by
    rw [same]
    exact sound.unique
  origin := by
    intro row stored
    rw [same] at stored
    obtain ⟨message, sent, key, amount, token⟩ := sound.origin row stored
    exact ⟨message, extended.mem sent, key, amount, extended.tokenId? token⟩

/-- A row made from a message of the stream is inserted soundly. -/
theorem Store.Sound.insert {store : Store} {deposit : Deposit} (sound : store.Sound)
    (origin : ∃ message ∈ store.stream, store.Stems deposit message) :
    (store.insert deposit).Sound where
  unique := by
    rw [Store.insert_keys]
    by_cases present : deposit.key ∈ store.deposits.map Deposit.key
    · rw [if_pos present]
      exact sound.unique
    · rw [if_neg present]
      exact List.Nodup.append sound.unique (List.nodup_singleton _)
        (List.disjoint_singleton.mpr present)
  origin := by
    have extended := store.insert_extends deposit
    intro row stored
    rcases Store.mem_insert stored with rfl | ⟨old, before, same⟩
    · obtain ⟨message, sent, key, amount, token⟩ := origin
      exact ⟨message, extended.mem sent, key, amount, extended.tokenId? token⟩
    · obtain ⟨message, sent, key, amount, token⟩ := sound.origin old before
      rw [same]
      exact ⟨message, extended.mem sent, key, amount, extended.tokenId? token⟩

/-- What the handler knows after a statement. -/
theorem HandlerPoint.next_sound {point later : HandlerPoint} (known : point.Sound store)
    (continues : (point.statement store).next = some later) :
    later.Sound (point.statement store).after := by
  cases point with
  | findAddress position message =>
    cases continues
    split
    · trivial
    · exact known
  | findToken position message address =>
    cases continues
    split
    · trivial
    · rename_i id found
      exact ⟨known, found⟩
  | findChain position message address tokenId =>
    cases continues
    exact known
  | insert position message address tokenId confirmationsRequired =>
    cases continues
    trivial
  | ack position => cases continues

/-- One statement of the handler keeps the rows sound. -/
theorem HandlerPoint.statement_sound (sound : store.Sound) (known : point.Sound store) :
    (point.statement store).after.Sound := by
  cases point with
  | findAddress | findToken | findChain => exact sound
  | insert position message address tokenId confirmationsRequired =>
    refine sound.insert ?_
    exact ⟨message, List.mem_of_getElem? known.1, rfl, rfl, known.2⟩
  | ack position => exact ⟨sound.unique, sound.origin⟩

/-! ## Acknowledged messages -/

/-- Each acknowledged position holds a message with a row. -/
def Store.Handled (store : Store) : Prop :=
  ∀ position ∈ store.acked, ∃ message, store.stream[position]? = some message ∧
    store.HasRow message

/-- What is about to be acknowledged has a row. -/
def HandlerPoint.Handled (store : Store) : HandlerPoint → Prop
  | .ack position => ∃ message, store.stream[position]? = some message ∧ store.HasRow message
  | .findAddress .. | .findToken .. | .findChain .. | .insert .. => True

theorem HandlerPoint.Handled.extend {store after : Store} (handled : point.Handled store)
    (extended : store.Extends after) : point.Handled after := by
  cases point with
  | ack =>
    obtain ⟨message, found, has⟩ := handled
    exact ⟨message, extended.getElem? found, extended.rows message has⟩
  | findAddress | findToken | findChain | insert => trivial

theorem Store.Handled.extend {store after : Store} (handled : store.Handled)
    (extended : store.Extends after) (same : after.acked = store.acked) : after.Handled := by
  intro position acked
  rw [same] at acked
  obtain ⟨message, found, has⟩ := handled position acked
  exact ⟨message, extended.getElem? found, extended.rows message has⟩

/-- The rows that the handler looks for are there. -/
def HandlerPoint.finds (store : Store) : HandlerPoint → Bool
  | .findAddress _ message => (store.depositAddress? message.toAddress).isSome
  | .findToken _ message _ => (store.tokenId? message.contractAddress).isSome
  | .findChain .. | .insert .. | .ack .. => true

theorem HandlerPoint.statement_handled (handled : store.Handled) (known : point.Sound store)
    (done : point.Handled store) :
    (point.statement store).after.Handled ∧
      (point.finds store = true → ∀ later, (point.statement store).next = some later →
        later.Handled (point.statement store).after) := by
  cases point with
  | findAddress position message =>
    refine ⟨handled, ?_⟩
    rintro present later ⟨⟩
    split
    · rename_i missing
      simp [HandlerPoint.finds, missing] at present
    · trivial
  | findToken position message address =>
    refine ⟨handled, ?_⟩
    rintro present later ⟨⟩
    split
    · rename_i missing
      simp [HandlerPoint.finds, missing] at present
    · trivial
  | findChain position message address tokenId =>
    refine ⟨handled, ?_⟩
    rintro _ later ⟨⟩
    trivial
  | insert position message address tokenId confirmationsRequired =>
    refine ⟨handled.extend (store.insert_extends _) (by simp [HandlerPoint.statement]), ?_⟩
    rintro _ later ⟨⟩
    exact ⟨message, (store.insert_extends _).getElem? known.1, Store.insert_hasKey⟩
  | ack position =>
    refine ⟨?_, ?_⟩
    · intro other acked
      rcases List.mem_cons.mp acked with rfl | before
      · exact done
      · exact handled other before
    · rintro _ later ⟨⟩

end CryptoVaultHub.Indexer
