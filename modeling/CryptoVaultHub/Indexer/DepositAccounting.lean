import CryptoVaultHub.Indexer.DepositRows
import CryptoVaultHub.Indexer.RealtimeDetector

/-!
# Every transfer that was seen is accounted for

A transfer that a scan has found is still to be published, or waits in the stream, or the
rows of its transaction, forwarder and token add up to what the scan has found for them.
This needs what a row can tell apart: the rows are unique on the transaction and the
forwarder, so that one transaction may not send to a forwarder twice.
-/

namespace CryptoVaultHub.Indexer

open TransitionSystem

abbrev DetectionState := PoolState Detector DetectionProcess

abbrev DetectionAction := PoolAction (Input RealtimeAnswer) DetectionStart

/-! ## The property -/

def Transfer.key (transfer : Transfer) : DepositHash × Address :=
  (.transaction transfer.txHash, transfer.recipient.getD zeroAddress)

/-- What a scan has found for the transaction, recipient and token of a transfer. -/
def amountFound (found : List Transfer) (transfer : Transfer) : Nat :=
  ((found.filter fun other => other.key = transfer.key ∧
    other.contractAddress = transfer.contractAddress).map Transfer.amount).sum

/-- The rows for the transaction, recipient and token of a transfer. -/
def Store.rowsFor (store : Store) (transfer : Transfer) : List Deposit :=
  store.deposits.filter fun row =>
    row.key = transfer.key ∧ store.tokenId? transfer.contractAddress = some row.tokenId

/-- There is a row for a transfer, and the rows add up to what was found. -/
@[reducible] def Store.Accounts (store : Store) (found : List Transfer) (transfer : Transfer) : Prop :=
  store.rowsFor transfer ≠ [] ∧
    ((store.rowsFor transfer).map Deposit.amount).sum = amountFound found transfer

/-- The transfers that a process has yet to publish. -/
def RealtimePoint.carried : RealtimePoint → List Transfer
  | .getBlock _ deposits | .getHash _ deposits | .cacheHash _ deposits => deposits
  | .publish _ left _ => left
  | .getProvider _ | .getLogs _ | .updateCursor _ => []

def DetectionProcess.carried : DetectionProcess → List Transfer
  | .realtime point => point.carried
  | .handler _ => []

/-- Some process has yet to publish a transfer. -/
def DetectionState.Carries (state : DetectionState) (transfer : Transfer) : Prop :=
  ∃ process ∈ state.processes, ∃ running ∈ process, transfer ∈ running.carried

/-- A message of a transfer is in the stream and not acknowledged. -/
def Store.Awaits (store : Store) (transfer : Transfer) : Prop :=
  ∃ position < store.stream.length, position ∉ store.acked ∧
    ∃ message ∈ store.stream[position]?, message = transfer.message message.blockNumber

/-- What was seen is on its way or accounted for. -/
def DetectionState.Accounted (state : DetectionState) : Prop :=
  ∀ found ∈ state.shared.seen, ∀ transfer ∈ found,
    DetectionState.Carries state transfer ∨ state.shared.store.Awaits transfer ∨
      state.shared.store.Accounts found transfer

instance (state : DetectionState) : Decidable (DetectionState.Accounted state) :=
  inferInstanceAs (Decidable (∀ found ∈ state.shared.seen, ∀ transfer ∈ found,
    (∃ process ∈ state.processes, ∃ running ∈ process, transfer ∈ running.carried) ∨
      (∃ position < state.shared.store.stream.length, position ∉ state.shared.store.acked ∧
        ∃ message ∈ state.shared.store.stream[position]?,
          message = transfer.message message.blockNumber) ∨
      state.shared.store.Accounts found transfer))

/-! ## The condition -/

/-- The message is not of this transaction and recipient, or it has the token and amount of
the transfer. -/
def Transfer.agrees (transfer : Transfer) (message : Message) : Bool :=
  message.key ≠ transfer.key ∨
    message.contractAddress = transfer.contractAddress ∧ message.amount = transfer.amount

/-- A transfer that was found is all that its transaction sends to its recipient. -/
def Detector.separate (detector : Detector) (found : List Transfer) : Bool :=
  found.all fun transfer =>
    amountFound found transfer = transfer.amount &&
      (found ++ detector.seen.flatten).all (fun other => transfer.agrees (other.message 0)) &&
      detector.store.stream.all transfer.agrees

/-- What a statement of the detector finds. -/
def RealtimePoint.found (detector : Detector) (answer : RealtimeAnswer) :
    RealtimePoint → List Transfer
  | .getLogs _ => scanERC20Transfers detector.watched answer.logs
  | .getBlock .. => scanNativeTransfers detector.watched answer.transactions
  | .getProvider _ | .getHash .. | .cacheHash .. | .publish .. | .updateCursor _ => []

/-- No error comes between a transfer and its message in the stream, and what is found is
separate. -/
def RealtimePoint.healthy (detector : Detector) (input : Input RealtimeAnswer)
    (point : RealtimePoint) : Bool :=
  match point with
  | .publish .. => input.answer.streamed && decide (input.ending ≠ .failed)
  | .getProvider _ | .getLogs _ | .getBlock .. | .getHash .. | .cacheHash .. | .updateCursor _ =>
    match input.ending with
    | .done => detector.separate (point.found detector input.answer)
    | .failed => point.carried = []
    | .lost => point.carried = [] && (point.found detector input.answer).isEmpty

/-- The handler finds the forwarder and the token of a message. -/
def DetectionProcess.healthy (detector : Detector) (input : Input RealtimeAnswer) :
    DetectionProcess → Bool
  | .realtime point => point.healthy detector input
  | .handler point => point.finds detector.store

/-- A message of the polling detector agrees with what was seen. -/
def DetectionStart.healthy (detector : Detector) : DetectionStart → Bool
  | .poll message => detector.seen.flatten.all fun transfer => transfer.agrees message
  | .block _ | .deliver _ | .loadMonitoredAddresses _ | .registerAddress _ | .registerToken _ =>
    true

/-- A process does not stop while it carries transfers. -/
def DetectionState.healthy (state : DetectionState) : DetectionAction → Bool
  | .launch begun => begun.healthy state.shared
  | .advance pid input => (state.process? pid).all fun process => process.healthy state.shared input
  | .crash pid => (state.process? pid).all fun process => process.carried.isEmpty

@[reducible] def DetectionState.Healthy (state : DetectionState) (action : DetectionAction) : Prop :=
  DetectionState.healthy state action = true

/-! ## What the detector has seen -/

/-- What was seen tells its rows apart. -/
structure Detector.Agreement (detector : Detector) : Prop where
  whole : ∀ found ∈ detector.seen, ∀ transfer ∈ found,
    amountFound found transfer = transfer.amount
  transfers : ∀ transfer ∈ detector.seen.flatten, ∀ other ∈ detector.seen.flatten,
    transfer.agrees (other.message 0) = true
  messages : ∀ transfer ∈ detector.seen.flatten, ∀ message ∈ detector.store.stream,
    transfer.agrees message = true

variable {transfer : Transfer}

theorem Transfer.agrees_iff {message : Message} :
    transfer.agrees message = true ↔ (message.key = transfer.key →
      message.contractAddress = transfer.contractAddress ∧ message.amount = transfer.amount) := by
  simp only [Transfer.agrees, decide_eq_true_eq]
  exact ⟨fun holds same => holds.resolve_left fun differ => differ same,
    fun holds => or_iff_not_imp_left.mpr fun same => holds (not_not.mp same)⟩

theorem Transfer.agrees_symm {transfer other : Transfer}
    (agrees : transfer.agrees (other.message 0) = true) :
    other.agrees (transfer.message 0) = true := by
  rw [Transfer.agrees_iff] at agrees ⊢
  intro same
  obtain ⟨contract, amount⟩ := agrees same.symm
  exact ⟨contract.symm, amount.symm⟩

variable {found : List Transfer}

theorem Detector.separate_apply {detector : Detector} (separate : detector.separate found = true)
    (member : transfer ∈ found) :
    amountFound found transfer = transfer.amount ∧
      (∀ other ∈ found ++ detector.seen.flatten, transfer.agrees (other.message 0) = true) ∧
      ∀ message ∈ detector.store.stream, transfer.agrees message = true := by
  have passed := List.all_eq_true.mp separate transfer member
  simp only [Bool.and_eq_true, decide_eq_true_eq, List.all_eq_true] at passed
  exact ⟨passed.1.1, passed.1.2, passed.2⟩

theorem Detector.Agreement.see {detector : Detector} (agreement : detector.Agreement)
    (separate : detector.separate found = true) :
    (detector.see found).Agreement where
  whole := by
    intro scan scanned transfer member
    rcases List.mem_append.mp scanned with before | new
    · exact agreement.whole scan before transfer member
    · cases List.mem_singleton.mp new
      exact (Detector.separate_apply separate member).1
  transfers := by
    intro transfer seen other seenToo
    simp only [Detector.see, List.flatten_append, List.flatten_singleton] at seen seenToo
    rcases List.mem_append.mp seen with before | new
    · rcases List.mem_append.mp seenToo with otherBefore | otherNew
      · exact agreement.transfers transfer before other otherBefore
      · have agrees := (Detector.separate_apply separate otherNew).2.1 transfer
          (List.mem_append_right _ before)
        exact Transfer.agrees_symm agrees
    · have agrees := (Detector.separate_apply separate new).2.1 other
      rcases List.mem_append.mp seenToo with otherBefore | otherNew
      · exact agrees (List.mem_append_right _ otherBefore)
      · exact agrees (List.mem_append_left _ otherNew)
  messages := by
    intro transfer seen message sent
    simp only [Detector.see, List.flatten_append, List.flatten_singleton] at seen
    rcases List.mem_append.mp seen with before | new
    · exact agreement.messages transfer before message sent
    · exact (Detector.separate_apply separate new).2.2 message sent

variable {detector after : Detector}

/-- Any other change of the store keeps the agreement. -/
theorem Detector.Agreement.withStore (agreement : detector.Agreement)
    (seen : after.seen = detector.seen)
    (messages : ∀ message ∈ after.store.stream, message ∈ detector.store.stream ∨
      ∀ transfer ∈ detector.seen.flatten, transfer.agrees message = true) :
    after.Agreement where
  whole := by
    rw [seen]
    exact agreement.whole
  transfers := by
    rw [seen]
    exact agreement.transfers
  messages := by
    rw [seen]
    intro transfer known message sent
    rcases messages message sent with before | agrees
    · exact agreement.messages transfer known message before
    · exact agrees transfer known

/-! ## Rows that account for a transfer -/

/-- Among rows with different keys, those of one key are one row. -/
theorem sum_of_unique {rows : List Deposit} {row : Deposit} {fits : Deposit → Bool}
    (unique : (rows.map Deposit.key).Nodup) (stored : row ∈ rows) (fit : fits row = true)
    (keyed : ∀ other, fits other = true → other.key = row.key) :
    rows.filter fits = [row] := by
  induction rows with
  | nil => cases stored
  | cons head tail ih =>
    simp only [List.map_cons, List.nodup_cons] at unique
    obtain ⟨absent, rest⟩ := unique
    rcases List.mem_cons.mp stored with rfl | later
    · rw [List.filter_cons_of_pos fit]
      congr 1
      refine List.filter_eq_nil_iff.mpr ?_
      intro other inTail fits
      exact absent (keyed other fits ▸ List.mem_map_of_mem inTail)
    · have skipped : fits head ≠ true := by
        intro fits
        exact absent (keyed head fits ▸ List.mem_map_of_mem later)
      rw [List.filter_cons_of_neg skipped]
      exact ih rest later

/-- A message with a row accounts for its transfer. -/
theorem Detector.accounts_of_row {detector : Detector} {blockNumber : Nat}
    (sound : detector.store.Sound) (agreement : detector.Agreement)
    (scanned : found ∈ detector.seen) (member : transfer ∈ found)
    (has : detector.store.HasRow (transfer.message blockNumber)) :
    detector.store.Accounts found transfer := by
  obtain ⟨row, stored, key⟩ := has
  obtain ⟨message, sent, rowKey, amount, token⟩ := sound.origin row stored
  have seen : transfer ∈ detector.seen.flatten := List.mem_flatten.mpr ⟨found, scanned, member⟩
  have same : message.key = transfer.key := rowKey.symm.trans key
  obtain ⟨contract, exact⟩ :=
    Transfer.agrees_iff.mp (agreement.messages transfer seen message sent) same
  rw [contract] at token
  have rows : detector.store.rowsFor transfer = [row] := by
    refine sum_of_unique sound.unique stored ?_ ?_
    · exact decide_eq_true ⟨key, token⟩
    · intro other fits
      exact (of_decide_eq_true fits).1.trans key.symm
  refine ⟨by simp [rows], ?_⟩
  rw [rows, agreement.whole found scanned transfer member]
  simp [amount, exact]

/-! ## Statements -/

/-- A message of a transfer is in the stream. -/
def Store.Sent (store : Store) (transfer : Transfer) : Prop :=
  ∃ blockNumber, transfer.message blockNumber ∈ store.stream

/-- Some process carries a transfer on. -/
def CarriesOn (next : Option RealtimePoint) (transfer : Transfer) : Prop :=
  ∃ later, next = some later ∧ transfer ∈ later.carried

variable {left : List Transfer}

theorem publishing_carriesOn {blockNumber : Nat} {failed : Bool} (member : transfer ∈ left) :
    CarriesOn (RealtimePoint.publishing blockNumber left failed) transfer := by
  have some : left.isEmpty = false := List.isEmpty_eq_false_iff_exists_mem.mpr ⟨transfer, member⟩
  rw [RealtimePoint.publishing, if_neg (by simp [some])]
  exact ⟨_, rfl, member⟩

theorem publishing_carried {blockNumber : Nat} {failed : Bool} {later : RealtimePoint}
    (continues : RealtimePoint.publishing blockNumber left failed = some later) :
    ∀ transfer ∈ later.carried, transfer ∈ left := by
  unfold RealtimePoint.publishing at continues
  split at continues
  · split at continues
    · cases continues
    · cases continues
      simp [RealtimePoint.carried]
  · cases continues
    exact fun _ member => member

/-- What a statement of the detector may do. -/
structure RealtimePoint.Advances (detector after : Detector) (point : RealtimePoint)
    (next : Option RealtimePoint) : Prop where
  extended : detector.store.Extends after.store
  deposits : after.store.deposits = detector.store.deposits
  acked : after.store.acked = detector.store.acked
  seen : after.seen = detector.seen ∧ (∀ message ∈ after.store.stream,
      message ∈ detector.store.stream ∨
        ∃ transfer ∈ point.carried, ∃ blockNumber, message = transfer.message blockNumber) ∨
    ∃ found, after = detector.see found ∧ detector.separate found = true ∧
      ∀ transfer ∈ found, CarriesOn next transfer
  kept : ∀ transfer ∈ point.carried, CarriesOn next transfer ∨ after.store.Sent transfer
  carried : ∀ later, next = some later → ∀ transfer ∈ later.carried,
    transfer ∈ point.carried ∨ transfer ∈ after.seen.flatten

variable {point : RealtimePoint} {next : Option RealtimePoint}

/-- A statement that neither finds nor publishes a transfer. -/
theorem RealtimePoint.advances_quiet (store : after.store = detector.store)
    (seen : after.seen = detector.seen) (kept : ∀ transfer ∈ point.carried, CarriesOn next transfer)
    (carried : ∀ later, next = some later → ∀ transfer ∈ later.carried, transfer ∈ point.carried) :
    point.Advances detector after next where
  extended := by
    rw [store]
    exact .refl _
  deposits := by rw [store]
  acked := by rw [store]
  seen := by
    refine .inl ⟨seen, ?_⟩
    rw [store]
    exact fun message sent => .inl sent
  kept := fun transfer member => .inl (kept transfer member)
  carried := fun later continues transfer member => .inl (carried later continues transfer member)

/-- A scan whose findings are carried on together with what was carried before. -/
theorem RealtimePoint.advances_scan {detector : Detector}
    (separate : detector.separate found = true)
    (kept : ∀ transfer ∈ point.carried ++ found, CarriesOn next transfer)
    (carried : ∀ later, next = some later → later.carried = point.carried ++ found) :
    point.Advances detector (detector.see found) next where
  extended := .refl _
  deposits := rfl
  acked := rfl
  seen := .inr ⟨found, rfl, separate, fun transfer member =>
    kept transfer (List.mem_append_right _ member)⟩
  kept := fun transfer member => .inl (kept transfer (List.mem_append_left _ member))
  carried := by
    intro later continues transfer member
    rw [carried later continues] at member
    rcases List.mem_append.mp member with before | new
    · exact .inl before
    · right
      simp only [Detector.see, List.flatten_append, List.flatten_singleton]
      exact List.mem_append_right _ new

/-- A message is published; the others are carried on. -/
theorem RealtimePoint.advances_publish {detector : Detector} {blockNumber chosen : Nat}
    {failed later : Bool} (found : left[chosen]? = some transfer) :
    (RealtimePoint.publish blockNumber left failed).Advances detector
      { detector with store := detector.store.publish (transfer.message blockNumber) }
      (RealtimePoint.publishing blockNumber (left.eraseIdx chosen) later) where
  extended := detector.store.publish_extends _
  deposits := rfl
  acked := rfl
  seen := by
    refine .inl ⟨rfl, ?_⟩
    intro message sent
    rcases List.mem_append.mp sent with before | new
    · exact .inl before
    · exact .inr ⟨transfer, List.mem_of_getElem? found, blockNumber, List.mem_singleton.mp new⟩
  kept := by
    intro other member
    obtain ⟨index, entry⟩ := List.getElem?_of_mem member
    by_cases same : index = chosen
    · subst same
      cases found.symm.trans entry
      exact .inr ⟨blockNumber, List.mem_append_right _ (List.mem_singleton_self _)⟩
    · exact .inl (publishing_carriesOn (List.mem_eraseIdx_iff_getElem?.mpr ⟨index, same, entry⟩))
  carried := by
    intro point continues other member
    exact .inl (List.mem_of_mem_eraseIdx (publishing_carried continues other member))

/-- A statement after which nothing runs, when nothing was carried or found. -/
theorem RealtimePoint.advances_end (nothing : point.carried = [])
    (same : after = detector ∨ after = detector.see []) : point.Advances detector after none := by
  rcases same with rfl | rfl
  · refine advances_quiet rfl rfl (by simp [nothing]) ?_
    rintro later ⟨⟩
  · refine advances_scan (by simp [Detector.separate]) (by simp [nothing]) ?_
    rintro later ⟨⟩

/-- A statement that returns finds what is separate; one that throws carries nothing, and has
found nothing if it took effect. -/
def RealtimePoint.Fits (detector : Detector) (point : RealtimePoint) (found : List Transfer) :
    Ending → Prop
  | .done => detector.separate found = true
  | .failed => point.carried = []
  | .lost => point.carried = [] ∧ found = []

variable {input : Input RealtimeAnswer}

theorem RealtimePoint.healthy_fits {detector : Detector}
    (healthy : point.healthy detector input = true)
    (other : ∀ blockNumber left failed, point ≠ .publish blockNumber left failed) :
    point.Fits detector (point.found detector input.answer) input.ending := by
  obtain ⟨ending, answer⟩ := input
  cases point with
  | publish blockNumber left failed => exact absurd rfl (other blockNumber left failed)
  | getProvider | getLogs | getBlock | getHash | cacheHash | updateCursor =>
    rcases ending with _ | _ | _ <;> simpa [RealtimePoint.healthy, Fits] using healthy

/-- A scan that returns, or fails while nothing is carried. -/
theorem RealtimePoint.advances_found {point later : RealtimePoint} {ending : Ending}
    (carried : later.carried = point.carried ++ found) (fits : point.Fits detector found ending)
    (performed : (⟨detector.see found, some later, none⟩ : Statement Detector RealtimePoint).perform
      detector ending = (after, next)) : point.Advances detector after next := by
  rcases ending with _ | _ | _ <;> cases performed
  · refine advances_scan fits ?_ ?_
    · intro transfer member
      exact ⟨later, rfl, carried ▸ member⟩
    · rintro point ⟨⟩
      exact carried
  · exact advances_end fits (.inl rfl)
  · obtain ⟨nothing, rfl⟩ := fits
    exact advances_end nothing (.inr rfl)

/-- A statement that finds nothing returns, or fails while nothing is carried. -/
theorem RealtimePoint.advances_read {detector after updated : Detector} {ending : Ending}
    {continues next : Option RealtimePoint} (store : updated.store = detector.store)
    (seen : updated.seen = detector.seen)
    (kept : ∀ transfer ∈ point.carried, CarriesOn continues transfer)
    (carried : ∀ later, continues = some later → ∀ transfer ∈ later.carried,
      transfer ∈ point.carried) (fits : point.Fits detector found ending)
    (performed : (⟨updated, continues, none⟩ : Statement Detector RealtimePoint).perform
      detector ending = (after, next)) : point.Advances detector after next := by
  rcases ending with _ | _ | _ <;> cases performed
  · exact advances_quiet store seen kept carried
  · exact advances_end fits (.inl rfl)
  · refine advances_quiet store seen (by simp [fits.1]) ?_
    rintro later ⟨⟩

/-- Every healthy statement of the detector. -/
theorem RealtimePoint.healthy_advances (healthy : point.healthy detector input = true)
    (performed : (point.statement detector input.answer).perform detector input.ending =
      (after, next)) : point.Advances detector after next := by
  cases point with
  | getProvider blockNumber =>
    refine advances_read rfl rfl (by simp [carried]) ?_ (healthy_fits healthy (by simp)) performed
    rintro later ⟨⟩
    exact fun _ member => member
  | getLogs blockNumber =>
    refine advances_found ?_ (healthy_fits healthy (by simp)) performed
    rfl
  | getBlock blockNumber deposits =>
    refine advances_found ?_ (healthy_fits healthy (by simp)) performed
    rfl
  | getHash blockNumber deposits =>
    refine advances_read rfl rfl ?_ ?_ (healthy_fits healthy (by simp)) performed
    · intro transfer member
      split
      · exact ⟨_, rfl, member⟩
      · exact publishing_carriesOn member
    · intro later continues
      split at continues
      · cases continues
        exact fun _ member => member
      · exact publishing_carried continues
  | cacheHash blockNumber deposits =>
    refine advances_read rfl rfl ?_ ?_ (healthy_fits healthy (by simp)) performed
    · exact fun transfer member => publishing_carriesOn member
    · exact fun later continues => publishing_carried continues
  | publish blockNumber left failed =>
    obtain ⟨streamed, succeeds⟩ : input.answer.streamed = true ∧ input.ending ≠ .failed := by
      simpa [RealtimePoint.healthy] using healthy
    simp only [RealtimePoint.statement, streamed, if_true] at performed
    cases found : left[input.answer.chosen]? with
    | none =>
      have stays : after = detector ∧ next = some (.publish blockNumber left failed) := by
        rw [found] at performed
        obtain ⟨rfl, ⟨_, rfl⟩ | ⟨_, rfl⟩⟩ | ⟨_, rfl, rfl⟩ := Statement.perform_cases performed <;>
          exact ⟨rfl, rfl⟩
      obtain ⟨rfl, rfl⟩ := stays
      refine advances_quiet rfl rfl (fun transfer member => ⟨_, rfl, member⟩) ?_
      rintro later ⟨⟩
      exact fun _ member => member
    | some transfer =>
      rw [found] at performed
      obtain ⟨rfl, ⟨_, rfl⟩ | ⟨_, rfl⟩⟩ | ⟨failed, _⟩ := Statement.perform_cases performed
      · exact advances_publish found
      · exact advances_publish found
      · exact absurd failed succeeds
  | updateCursor blockNumber =>
    rcases ended : input.ending with _ | _ | _ <;> rw [ended] at performed <;> cases performed
    · exact advances_quiet rfl rfl (by simp [carried]) (by rintro later ⟨⟩)
    · exact advances_end rfl (.inl rfl)
    · exact advances_quiet rfl rfl (by simp [carried]) (by rintro later ⟨⟩)

/-! ## Runs -/

/-- What holds of the detector. -/
structure Detector.Consistent (detector : Detector) : Prop where
  store : detector.store.Sound
  handled : detector.store.Handled
  agreement : detector.Agreement

/-- What holds of a process at each of its points. -/
def DetectionProcess.Sound (detector : Detector) : DetectionProcess → Prop
  | .realtime point => ∀ transfer ∈ point.carried, transfer ∈ detector.seen.flatten
  | .handler point => point.Sound detector.store ∧ point.Handled detector.store

theorem DetectionProcess.Sound.extend {process : DetectionProcess} (sound : process.Sound detector)
    (extended : detector.store.Extends after.store) (seen : detector.seen <+: after.seen) :
    process.Sound after := by
  cases process with
  | realtime point =>
    intro transfer carried
    obtain ⟨found, scanned, member⟩ := List.mem_flatten.mp (sound transfer carried)
    exact List.mem_flatten.mpr ⟨found, seen.subset scanned, member⟩
  | handler point => exact ⟨sound.1.extend extended, sound.2.extend extended⟩

def accounting : ProofOutline Detector DetectionProcess where
  Global := Detector.Consistent
  Local := DetectionProcess.Sound
  Apart _ _ := True
  apart_symm := fun _ => trivial

/-- Every transfer that was seen is carried by a process or sent. -/
def DetectionState.Covered (state : DetectionState) : Prop :=
  ∀ found ∈ state.shared.seen, ∀ transfer ∈ found,
    state.Runs (fun process => transfer ∈ process.carried) ∨ state.shared.store.Sent transfer

theorem Store.Sent.extend {store after : Store} (sent : store.Sent transfer)
    (extended : store.Extends after) : after.Sent transfer := by
  obtain ⟨blockNumber, published⟩ := sent
  exact ⟨blockNumber, extended.mem published⟩

/-- A healthy statement of the detector keeps what holds of the tables, and of itself. -/
theorem RealtimePoint.Advances.keeps (advances : point.Advances detector after next)
    (consistent : detector.Consistent)
    (sound : ∀ transfer ∈ point.carried, transfer ∈ detector.seen.flatten) :
    detector.seen <+: after.seen ∧ after.Consistent ∧
      ∀ later, next = some later → (DetectionProcess.realtime later).Sound after := by
  have seen : detector.seen <+: after.seen := by
    rcases advances.seen with ⟨same, _⟩ | ⟨found, rfl, _⟩
    · rw [same]
    · exact ⟨_, rfl⟩
  have agreement : after.Agreement := by
    rcases advances.seen with ⟨same, messages⟩ | ⟨found, rfl, separate, _⟩
    · refine consistent.agreement.withStore same ?_
      intro message sent
      rcases messages message sent with before | ⟨transfer, carried, blockNumber, rfl⟩
      · exact .inl before
      · right
        intro other known
        exact consistent.agreement.transfers other known transfer (sound transfer carried)
    · exact consistent.agreement.see separate
  refine ⟨seen, ⟨?_, ?_, agreement⟩, ?_⟩
  · exact consistent.store.extend advances.extended advances.deposits
  · exact consistent.handled.extend advances.extended advances.acked
  · intro later continues transfer carried
    rcases advances.carried later continues transfer carried with before | found
    · obtain ⟨scan, scanned, member⟩ := List.mem_flatten.mp (sound transfer before)
      exact List.mem_flatten.mpr ⟨scan, seen.subset scanned, member⟩
    · exact found

/-- A healthy statement of any process keeps the outline. -/
theorem DetectionProcess.statement_keeps {process : DetectionProcess}
    {next : Option DetectionProcess} (consistent : detector.Consistent)
    (sound : process.Sound detector) (healthy : process.healthy detector input = true)
    (performed : (process.statement detector input.answer).perform detector input.ending =
      (after, next)) :
    detector.store.Extends after.store ∧ detector.seen <+: after.seen ∧ after.Consistent ∧
      ∀ later, next = some later → later.Sound after := by
  cases process with
  | realtime point =>
    obtain ⟨later, moved, rfl⟩ : ∃ later,
        (point.statement detector input.answer).perform detector input.ending =
          (after, later) ∧ next = later.map .realtime := by
      obtain ⟨ending, answer⟩ := input
      rcases ending with _ | _ | _ <;> cases performed <;> exact ⟨_, rfl, rfl⟩
    have advances := RealtimePoint.healthy_advances healthy moved
    obtain ⟨seen, kept, goesOn⟩ := advances.keeps consistent sound
    refine ⟨advances.extended, seen, kept, ?_⟩
    intro process continues
    obtain ⟨point, found, rfl⟩ := Option.map_eq_some_iff.mp continues
    exact goesOn point found
  | handler point =>
    have extended := point.statement_extends detector.store
    have rows := HandlerPoint.statement_sound consistent.store sound.1
    obtain ⟨acked, finds⟩ := HandlerPoint.statement_handled consistent.handled sound.1 sound.2
    have messages : ∀ message ∈ (point.statement detector.store).after.stream,
        message ∈ detector.store.stream := by
      cases point with
      | findAddress | findToken | findChain | ack => exact fun _ sent => sent
      | insert =>
        intro message sent
        simpa [HandlerPoint.statement] using sent
    have changed : ({ detector with store := (point.statement detector.store).after } :
        Detector).Consistent :=
      ⟨rows, acked, consistent.agreement.withStore rfl fun message sent =>
        .inl (messages message sent)⟩
    obtain ⟨rfl, ⟨_, rfl⟩ | ⟨_, rfl⟩⟩ | ⟨_, rfl, rfl⟩ := Statement.perform_cases performed
    · refine ⟨extended, List.prefix_rfl, changed, ?_⟩
      intro later continues
      obtain ⟨found, goes, rfl⟩ := Option.map_eq_some_iff.mp continues
      exact ⟨HandlerPoint.next_sound sound.1 goes, finds healthy found goes⟩
    · refine ⟨extended, List.prefix_rfl, changed, ?_⟩
      cases point <;> simp [DetectionProcess.statement, Statement.map, Statement.within,
        HandlerPoint.statement]
    · refine ⟨.refl _, List.prefix_rfl, consistent, ?_⟩
      cases point <;> simp [DetectionProcess.statement, Statement.map, Statement.within,
        HandlerPoint.statement]

/-- What begins from outside keeps the outline. -/
theorem Detector.start_keeps {begun : DetectionStart} {process : Option DetectionProcess}
    (consistent : detector.Consistent) (healthy : begun.healthy detector = true)
    (started : detector.start begun = some (after, process)) :
    detector.store.Extends after.store ∧ after.seen = detector.seen ∧ after.Consistent ∧
      ∀ point, process = some point → point.Sound after := by
  have stays : ∀ {other : Detector}, other.store.deposits = detector.store.deposits →
      other.store.acked = detector.store.acked → other.store.stream = detector.store.stream →
      other.seen = detector.seen → detector.store.Extends other.store → other.Consistent := by
    intro other deposits acked stream seen extended
    refine ⟨consistent.store.extend extended deposits, consistent.handled.extend extended acked,
      consistent.agreement.withStore seen ?_⟩
    rw [stream]
    exact fun message sent => .inl sent
  cases begun with
  | block blockNumber =>
    cases started
    refine ⟨.refl _, rfl, consistent, ?_⟩
    rintro point ⟨⟩ transfer carried
    cases carried
  | deliver position =>
    obtain ⟨message, found, same⟩ := Option.map_eq_some_iff.mp started
    cases same
    refine ⟨.refl _, rfl, consistent, ?_⟩
    rintro point ⟨⟩
    exact ⟨found, trivial⟩
  | loadMonitoredAddresses watched =>
    cases started
    exact ⟨.refl _, rfl, stays rfl rfl rfl rfl (.refl _), by simp⟩
  | registerAddress row =>
    cases started
    have extended : detector.store.Extends { detector.store with
        depositAddresses := detector.store.depositAddresses ++ [row] } :=
      ⟨List.prefix_rfl, List.prefix_rfl, fun _ has => has⟩
    exact ⟨extended, rfl, stays rfl rfl rfl rfl extended, by simp⟩
  | registerToken token =>
    cases started
    have extended : detector.store.Extends { detector.store with
        tokens := detector.store.tokens ++ [token] } :=
      ⟨List.prefix_rfl, ⟨_, rfl⟩, fun _ has => has⟩
    exact ⟨extended, rfl, stays rfl rfl rfl rfl extended, by simp⟩
  | poll message =>
    simp only [Detector.start] at started
    split at started
    · cases started
      have extended := detector.store.publish_extends message
      refine ⟨extended, rfl, ⟨consistent.store.extend extended rfl,
        consistent.handled.extend extended rfl, consistent.agreement.withStore rfl ?_⟩, by simp⟩
      intro other sent
      rcases List.mem_append.mp sent with before | new
      · exact .inl before
      · cases List.mem_singleton.mp new
        exact .inr (List.all_eq_true.mp healthy)
    · cases started

/-- What was carried is carried on or sent, and what is newly seen is carried on. -/
theorem covered_step {state next : DetectionState} {action : DetectionAction}
    (covered : DetectionState.Covered state) (healthy : DetectionState.Healthy state action)
    (consistent : state.shared.Consistent)
    (sound : ∀ pid process, state.process? pid = some process → process.Sound state.shared)
    (transition : detection.system.step state action = some next) :
    DetectionState.Covered next := by
  cases action with
  | launch begun =>
    obtain ⟨shared, process, started, rfl⟩ := ProcessPool.step_launch transition
    obtain ⟨extended, seen, _⟩ := Detector.start_keeps consistent healthy started
    intro found scanned transfer member
    rw [PoolState.shared_spawn, seen] at scanned
    rcases covered found scanned transfer member with carried | sent
    · exact .inl (carried.spawn shared process)
    · exact .inr (sent.extend extended)
  | crash pid =>
    obtain ⟨before, running, rfl⟩ := ProcessPool.step_crash transition
    intro found scanned transfer member
    rcases covered found scanned transfer member with carried | sent
    · rcases carried.update_cases running state.shared none with held | stays
      · have nothing : before.carried = [] := by
          simpa [DetectionState.Healthy, DetectionState.healthy, running] using healthy
        rw [nothing] at held
        cases held
      · exact .inl stays
    · exact .inr sent
  | advance pid input =>
    obtain ⟨before, shared, process, running, moved, rfl⟩ := ProcessPool.step_advance transition
    have performed := Option.some.inj moved
    have fit : before.healthy state.shared input = true := by
      simpa [DetectionState.Healthy, DetectionState.healthy, running] using healthy
    obtain ⟨extended, _⟩ :=
      DetectionProcess.statement_keeps consistent (sound pid before running) fit performed
    cases before with
    | handler point =>
      intro found scanned transfer member
      have seen : shared.seen = state.shared.seen :=
        Statement.perform_shared (fun detector => detector.seen = state.shared.seen)
          performed rfl rfl
      rw [PoolState.shared_update, seen] at scanned
      rcases covered found scanned transfer member with carried | sent
      · rcases carried.update_cases running shared process with held | stays
        · cases held
        · exact .inl stays
      · exact .inr (sent.extend extended)
    | realtime point =>
      obtain ⟨later, advanced, rfl⟩ : ∃ later,
          (point.statement state.shared input.answer).perform state.shared input.ending =
            (shared, later) ∧ process = later.map .realtime := by
        obtain ⟨ending, answer⟩ := input
        rcases ending with _ | _ | _ <;> cases performed <;> exact ⟨_, rfl, rfl⟩
      have advances := RealtimePoint.healthy_advances fit advanced
      have goesOn : ∀ transfer, CarriesOn later transfer →
          (state.update shared pid (later.map .realtime)).Runs
            fun process => transfer ∈ process.carried := by
        rintro transfer ⟨point, rfl, member⟩
        have carries : transfer ∈ (DetectionProcess.realtime point).carried := member
        exact PoolState.runs_update running carries shared
      have old : ∀ found ∈ state.shared.seen, ∀ transfer ∈ found,
          (state.update shared pid (later.map .realtime)).Runs
              (fun process => transfer ∈ process.carried) ∨ shared.store.Sent transfer := by
        intro found scanned transfer member
        rcases covered found scanned transfer member with carried | sent
        · rcases carried.update_cases running shared (later.map .realtime) with held | stays
          · exact (advances.kept transfer held).imp_left (goesOn transfer)
          · exact .inl stays
        · exact .inr (sent.extend extended)
      intro found scanned transfer member
      rw [PoolState.shared_update] at scanned
      rcases advances.seen with ⟨same, _⟩ | ⟨new, rfl, _, carried⟩
      · rw [same] at scanned
        exact old found scanned transfer member
      · rcases List.mem_append.mp scanned with before | fresh
        · exact old found before transfer member
        · cases List.mem_singleton.mp fresh
          exact .inl (goesOn transfer (carried transfer member))

/-- In every healthy run, each transfer that a scan has found is carried by a process, waits
in the stream, or is accounted for by its rows. -/
theorem seen_transfers_accounted {state : DetectionState}
    (reached : detection.system.Reachable DetectionState.Healthy state) :
    DetectionState.Accounted state := by
  have joint : accounting.HoldsWith DetectionState.Covered state := by
    refine ProofOutline.reachable_with reached ?_ ?_ ?_ ?_
    · rintro detector ⟨seen, stream, acked, deposits⟩
      refine ⟨⟨⟨by simp [deposits], by simp [deposits]⟩, ?_, ⟨?_, ?_, ?_⟩⟩, ?_⟩
      · simp [Store.Handled, acked]
      · simp [seen]
      · simp [seen]
      · simp [seen]
      · simp [DetectionState.Covered, seen]
    · intro before begun shared process holds _ healthy started
      obtain ⟨extended, seen, consistent, own⟩ :=
        Detector.start_keeps holds.global healthy started
      have grows : before.shared.seen <+: shared.seen := by
        rw [seen]
      exact ⟨consistent, own,
        fun other point _ running => (holds.locals other point running).extend extended grows,
        fun _ _ _ _ _ _ => trivial⟩
    · intro before pid process input shared next holds _ healthy running moved
      have fit : process.healthy before.shared input = true := by
        simpa [DetectionState.Healthy, DetectionState.healthy, running] using healthy
      obtain ⟨extended, seen, consistent, own⟩ :=
        DetectionProcess.statement_keeps holds.global (holds.locals pid process running) fit
          (Option.some.inj moved)
      exact ⟨consistent, own,
        fun other point _ runs => (holds.locals other point runs).extend extended seen,
        fun _ _ _ _ _ _ => trivial⟩
    · intro before action next holds covered healthy transition
      exact covered_step covered healthy holds.global holds.locals transition
  intro found scanned transfer member
  have consistent := joint.holds.global
  rcases joint.covered found scanned transfer member with carried | ⟨blockNumber, sent⟩
  · exact .inl (PoolState.runs_iff_mem.mp carried)
  · right
    obtain ⟨position, entry⟩ := List.getElem?_of_mem sent
    by_cases acked : position ∈ state.shared.store.acked
    · right
      obtain ⟨message, found', has⟩ := consistent.handled position acked
      cases entry.symm.trans found'
      exact Detector.accounts_of_row consistent.store consistent.agreement scanned member has
    · left
      obtain ⟨inside, _⟩ := List.getElem?_eq_some_iff.mp entry
      exact ⟨position, inside, acked, _, entry, rfl⟩

/-! ## A block with deposits to one forwarder -/

/-- A detector that watches the forwarder 7, with the native currency and the token 20. -/
def sampleDetector : Detector where
  watched := [7]
  lastBlock := 4
  seen := []
  store := ⟨[], [], [⟨7, 1, 1, 1⟩], [⟨1, zeroAddress, true⟩, ⟨2, 20, false⟩], some 12, []⟩

theorem sampleDetector_initial : detection.system.Initial ⟨sampleDetector, []⟩ :=
  ⟨⟨rfl, rfl, rfl, rfl⟩, rfl⟩

/-- A process goes on; the provider has the given block. -/
def detects (pid : Nat) (logs : List Log) (transactions : List Transaction) : DetectionAction :=
  .advance pid ⟨.done, ⟨logs, some transactions, 0, true⟩⟩

/-- Block 5 is scanned, both messages are published, and each is handled. -/
def detectBlock (logs : List Log) (transactions : List Transaction) : List DetectionAction :=
  [.launch (.block 5)] ++ List.replicate 8 (detects 0 logs transactions) ++
    [.launch (.deliver 0)] ++ List.replicate 5 (detects 1 [] []) ++
    [.launch (.deliver 1)] ++ List.replicate 5 (detects 2 [] [])

/-- A token transfer and a native one, of different transactions, are accounted for. -/
theorem seen_transfers_accounted_sample :
    ∃ state : DetectionState, state.shared.store.deposits.map Deposit.amount = [10, 3] ∧
      state.shared.store.acked = [1, 0] ∧ DetectionState.Accounted state := by
  obtain ⟨state, reached, amounts, acked⟩ : ∃ state,
      detection.system.Reachable DetectionState.Healthy state ∧
      state.shared.store.deposits.map Deposit.amount = [10, 3] ∧
        state.shared.store.acked = [1, 0] :=
    exists_reachable sampleDetector_initial
      (detectBlock [⟨2, 4, 20, 3, 9, 7, some 10⟩] [⟨1, 9, some 7, 3⟩, ⟨2, 9, some 20, 0⟩]) (by decide +kernel)
  exact ⟨state, amounts, acked, seen_transfers_accounted reached⟩

/-- One transaction sends the forwarder 10 and then 4 of a token: the second message finds the
row of the first and adds nothing. -/
theorem second_transfer_lost :
    ¬ ∀ state : DetectionState, detection.system.Reachable Unrestricted state →
      DetectionState.Accounted state := by
  intro always
  obtain ⟨state, reached, passed⟩ : ∃ state, detection.system.Reachable Unrestricted state ∧
      ¬ DetectionState.Accounted state :=
    exists_reachable sampleDetector_initial
      (detectBlock [⟨2, 4, 20, 3, 9, 7, some 10⟩, ⟨2, 5, 20, 3, 9, 7, some 4⟩]
        [⟨2, 9, some 20, 0⟩]) (by decide +kernel)
  exact passed (always state reached)

end CryptoVaultHub.Indexer
