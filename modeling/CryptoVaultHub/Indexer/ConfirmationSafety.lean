import CryptoVaultHub.Indexer.ConfirmationTracker
import CryptoVaultHub.Indexer.DepositRows

/-!
# What a confirmed deposit has under it

A deposit is set to 'confirmed' when the receipt read for it has enough blocks over it.
What was read still holds at the update if no reorganisation comes in between; and what
was read is a success only where the status of the receipt is one.
-/

namespace CryptoVaultHub.Indexer

open TransitionSystem List

abbrev TrackingState := PoolState Tracking TrackingProcess

abbrev TrackingAction := PoolAction (Input TrackingAnswer) TrackingStart

/-! ## The property -/

/-- The transaction is in the chain, has succeeded, and has the required depth. -/
def Confirmation.final (confirmation : Confirmation) : Bool :=
  match confirmation.deposit.txHash with
  | .polling .. => false
  | .transaction hash =>
    (confirmation.chain.receipt? hash).any fun receipt =>
      receipt.succeeded &&
        decide (receipt.blockNumber + confirmation.deposit.confirmationsRequired ≤
          confirmation.chain.blockNumber)

/-- Each deposit was final when it was set to 'confirmed'. -/
@[reducible] def Tracking.ConfirmedFinal (tracking : Tracking) : Prop :=
  (∀ confirmation ∈ tracking.confirmed, confirmation.final = true) ∧
    ∀ row ∈ tracking.detector.store.deposits, row.status = .confirmed →
      ∃ confirmation ∈ tracking.confirmed,
        confirmation.deposit.id = row.id ∧ confirmation.deposit.txHash = row.txHash

/-! ## The condition -/

/-- The deposits that a tick still holds. -/
def TrackerPoint.deposits : TrackerPoint → List PendingDeposit
  | .select => []
  | .getProvider deposits | .getBlockNumber deposits => deposits
  | .receipt tick deposit | .publishReverted tick deposit | .updateReverted tick deposit
  | .milestone tick deposit _ _ _ | .publishConfirmed tick deposit _
  | .updateConfirmed tick deposit _ | .updateConfirming tick deposit _ => deposit :: tick.rest

def TrackerPoint.tick? : TrackerPoint → Option Tick
  | .select | .getProvider _ | .getBlockNumber _ => none
  | .receipt tick _ | .publishReverted tick _ | .updateReverted tick _
  | .milestone tick _ _ _ _ | .publishConfirmed tick _ _
  | .updateConfirmed tick _ _ | .updateConfirming tick _ _ => some tick

/-- The deposit whose confirmations were counted and can still be published as enough. -/
def TrackerPoint.counted? : TrackerPoint → Option (Tick × PendingDeposit × Nat)
  | .milestone tick deposit confirmations _ _ | .publishConfirmed tick deposit confirmations
  | .updateConfirmed tick deposit confirmations => some (tick, deposit, confirmations)
  | .select | .getProvider _ | .getBlockNumber _ | .receipt .. | .publishReverted ..
  | .updateReverted .. | .updateConfirming .. => none

/-- A deposit has enough confirmations. -/
def PendingDeposit.enough (deposit : PendingDeposit) (confirmations : Nat) : Bool :=
  deposit.deposit.confirmationsRequired ≤ confirmations

/-- A receipt that is deep enough has the status of a success. -/
def Tick.trusts (chain : CanonicalChain) (tick : Tick) (deposit : PendingDeposit) : Bool :=
  match deposit.deposit.txHash with
  | .polling .. => true
  | .transaction hash =>
    (chain.receipt? hash).all fun receipt =>
      receipt.succeeded || !deposit.enough (tick.current - receipt.blockNumber)

/-- A reorganisation does not take the chain below the height of a tick, and does not touch
the receipt of a deposit that the tick is about to confirm. -/
def TrackerPoint.survives (before after : CanonicalChain) (point : TrackerPoint) : Bool :=
  (point.tick?.all fun tick => tick.current ≤ after.blockNumber) &&
    point.counted?.all fun (_, deposit, confirmations) =>
      !deposit.enough confirmations ||
        match deposit.deposit.txHash with
        | .polling .. => true
        | .transaction hash => after.receipt? hash = before.receipt? hash

/-- A row that is inserted again does not come to require more than a tick has read. -/
def TrackerPoint.allows (message : Message) (confirmationsRequired : Nat)
    (point : TrackerPoint) : Bool :=
  point.deposits.all fun deposit =>
    deposit.deposit.key ≠ message.key ||
      decide (confirmationsRequired ≤ deposit.deposit.confirmationsRequired)

def TrackingProcess.tracker? : TrackingProcess → Option TrackerPoint
  | .tracker point => some point
  | .detection _ => none

/-- A condition on every tick that is running. -/
def TrackingState.ticks (state : TrackingState) (check : TrackerPoint → Bool) : Bool :=
  state.every fun _ process => process.tracker?.all check

def TrackingState.healthy (state : TrackingState) : TrackingAction → Bool
  | .launch (.reorg chain) =>
    TrackingState.ticks state fun point => point.survives state.shared.chain chain
  | .launch .tick | .launch (.mine _) | .launch (.configure _) | .launch (.detect _)
  | .crash _ => true
  | .advance pid _ =>
    (state.process? pid).all fun process =>
      match process with
      | .tracker (.receipt tick deposit) => tick.trusts state.shared.chain deposit
      | .detection (.handler (.insert _ message _ _ confirmationsRequired)) =>
        TrackingState.ticks state fun point => point.allows message confirmationsRequired
      | _ => true

@[reducible] def TrackingState.Healthy (state : TrackingState) (action : TrackingAction) : Prop :=
  TrackingState.healthy state action = true

/-! ## Receipts -/

variable {chain : CanonicalChain}

theorem CanonicalChain.receipt?_le {hash : TxHash} {receipt : Receipt}
    (found : chain.receipt? hash = some receipt) : receipt.blockNumber ≤ chain.blockNumber := by
  obtain ⟨⟨block, number⟩, inside, matched⟩ := exists_of_findSome?_eq_some found
  obtain ⟨mined, _, rfl⟩ := Option.map_eq_some_iff.mp matched
  have below := snd_lt_of_mem_zipIdx inside
  simp only [CanonicalChain.blockNumber]
  simp only at below
  omega

/-- A new block leaves the receipts of the blocks below. -/
theorem CanonicalChain.receipt?_mine {hash : TxHash} {receipt : Receipt} (block : MinedBlock)
    (found : chain.receipt? hash = some receipt) :
    CanonicalChain.receipt? (chain ++ [block]) hash = some receipt := by
  have earlier : List.findSome? (fun (entry : MinedBlock × Nat) =>
      (entry.1.find? fun mined => mined.transaction.hash = hash).map fun mined =>
        (⟨entry.2, mined.succeeded⟩ : Receipt)) chain.zipIdx = some receipt := found
  rw [CanonicalChain.receipt?, zipIdx_append, findSome?_append]
  simp only [earlier, Option.some_or]

/-! ## Rows by id -/

/-- The ids of the rows count them. -/
def Store.Numbered (store : Store) : Prop :=
  store.deposits.map Deposit.id = List.range' 1 store.deposits.length

variable {store : Store}

theorem Store.Numbered.unique (numbered : store.Numbered) {row other : Deposit}
    (stored : row ∈ store.deposits) (storedToo : other ∈ store.deposits) (same : row.id = other.id) :
    row = other := by
  have distinct : (store.deposits.map Deposit.id).Nodup := by
    rw [numbered]
    exact nodup_range'
  exact inj_on_of_nodup_map distinct stored storedToo same

theorem Store.Numbered.insert {store : Store} (numbered : store.Numbered) {deposit : Deposit}
    (id : deposit.id = store.deposits.length + 1) : (store.insert deposit).Numbered := by
  unfold Store.Numbered Store.insert
  split
  · simp only [map_map, length_map]
    rw [← numbered]
    refine map_congr_left ?_
    intro row _
    by_cases same : row.key = deposit.key
    · simp only [Function.comp_apply, if_pos same]
    · simp only [Function.comp_apply, if_neg same]
  · simp only [map_append, map_cons, map_nil, length_append,
      length_singleton]
    rw [numbered, range'_concat, id]
    simp [Nat.add_comm]

variable {change : Deposit → Deposit}

theorem Store.mem_updateDeposit {id : Nat} {row : Deposit}
    (stored : row ∈ (store.updateDeposit id change).deposits) :
    ∃ old ∈ store.deposits, (old.id = id ∧ row = change old) ∨ (old.id ≠ id ∧ row = old) := by
  obtain ⟨old, before, rfl⟩ := mem_map.mp stored
  refine ⟨old, before, ?_⟩
  by_cases same : old.id = id
  · exact .inl ⟨same, if_pos same⟩
  · exact .inr ⟨same, if_neg same⟩

theorem Store.Numbered.updateDeposit (numbered : store.Numbered) (id : Nat)
    (keeps : ∀ row, (change row).id = row.id) : (store.updateDeposit id change).Numbered := by
  unfold Store.Numbered Store.updateDeposit
  simp only [map_map, length_map]
  rw [← numbered]
  refine map_congr_left ?_
  intro row _
  by_cases same : row.id = id
  · simp only [Function.comp_apply, if_pos same, keeps]
  · simp only [Function.comp_apply, if_neg same]

/-- The row of a selected deposit, which requires no more than it did then. -/
def Store.Has (store : Store) (deposit : PendingDeposit) : Prop :=
  ∃ row ∈ store.deposits, row.id = deposit.deposit.id ∧ row.key = deposit.deposit.key ∧
    row.confirmationsRequired ≤ deposit.deposit.confirmationsRequired

variable {deposit : PendingDeposit}

theorem Store.Has.updateDeposit (has : store.Has deposit) (id : Nat)
    (keeps : ∀ row, (change row).id = row.id ∧ (change row).key = row.key ∧
      (change row).confirmationsRequired = row.confirmationsRequired) :
    (store.updateDeposit id change).Has deposit := by
  obtain ⟨row, stored, sameId, sameKey, requires⟩ := has
  refine ⟨_, mem_map_of_mem stored, ?_⟩
  by_cases hit : row.id = id
  · obtain ⟨keepsId, keepsKey, keepsRequired⟩ := keeps row
    simp only [if_pos hit]
    exact ⟨keepsId.trans sameId, keepsKey.trans sameKey, keepsRequired ▸ requires⟩
  · simp only [if_neg hit]
    exact ⟨sameId, sameKey, requires⟩

theorem Store.Has.insert {store : Store} {deposit : PendingDeposit} (has : store.Has deposit)
    {inserted : Deposit} (allowed : deposit.deposit.key ≠ inserted.key ∨
      inserted.confirmationsRequired ≤ deposit.deposit.confirmationsRequired) :
    (store.insert inserted).Has deposit := by
  obtain ⟨row, stored, sameId, sameKey, requires⟩ := has
  unfold Store.insert
  split
  · refine ⟨_, mem_map_of_mem stored, ?_⟩
    by_cases hit : row.key = inserted.key
    · simp only [if_pos hit]
      exact ⟨sameId, sameKey, allowed.resolve_left fun differ => differ (sameKey.symm.trans hit)⟩
    · simp only [if_neg hit]
      exact ⟨sameId, sameKey, requires⟩
  · exact ⟨row, mem_append_left _ stored, sameId, sameKey, requires⟩

/-! ## The tracker -/

/-- Enough confirmations were counted from a successful receipt that is still there. -/
def Counts (chain : CanonicalChain) (tick : Tick) (deposit : PendingDeposit)
    (confirmations : Nat) : Prop :=
  deposit.enough confirmations = true →
    ∃ hash blockNumber, deposit.deposit.txHash = .transaction hash ∧
      chain.receipt? hash = some ⟨blockNumber, true⟩ ∧
      confirmations = tick.current - blockNumber

/-- What a tick knows at each of its points. -/
structure TrackerPoint.Sound (tracking : Tracking) (point : TrackerPoint) : Prop where
  deposits : ∀ deposit ∈ point.deposits, tracking.detector.store.Has deposit
  current : ∀ tick ∈ point.tick?, tick.current ≤ tracking.chain.blockNumber
  counted : ∀ tick deposit confirmations, point.counted? = some (tick, deposit, confirmations) →
    Counts tracking.chain tick deposit confirmations
  enough : ∀ tick deposit confirmations, point = .publishConfirmed tick deposit confirmations ∨
    point = .updateConfirmed tick deposit confirmations → deposit.enough confirmations = true

variable {point : TrackerPoint}

/-- A change that keeps the rows and the counted receipts of a tick. -/
theorem TrackerPoint.Sound.extend {tracking after : Tracking} (sound : point.Sound tracking)
    (has : ∀ deposit ∈ point.deposits, tracking.detector.store.Has deposit →
      after.detector.store.Has deposit)
    (current : ∀ tick ∈ point.tick?, tick.current ≤ tracking.chain.blockNumber →
      tick.current ≤ after.chain.blockNumber)
    (counted : ∀ tick deposit confirmations,
      point.counted? = some (tick, deposit, confirmations) →
      Counts tracking.chain tick deposit confirmations →
      Counts after.chain tick deposit confirmations) : point.Sound after where
  deposits := fun deposit held => has deposit held (sound.deposits deposit held)
  current := fun tick running => current tick running (sound.current tick running)
  counted := fun tick deposit confirmations counts =>
    counted tick deposit confirmations counts (sound.counted tick deposit confirmations counts)
  enough := sound.enough

/-- A change of the rows alone. -/
theorem TrackerPoint.Sound.extend_rows {tracking after : Tracking} (sound : point.Sound tracking)
    (has : ∀ deposit ∈ point.deposits, tracking.detector.store.Has deposit →
      after.detector.store.Has deposit) (chain : after.chain = tracking.chain) :
    point.Sound after := by
  refine sound.extend has ?_ ?_
  · rw [chain]
    exact fun _ _ below => below
  · rw [chain]
    exact fun _ _ _ _ counts => counts

section Continuations

variable {tracking : Tracking} {tick : Tick} {deposit : PendingDeposit} {later : TrackerPoint}

/-- The height and the rows that a tick holds. -/
structure Tick.Sound (tracking : Tracking) (tick : Tick) : Prop where
  current : tick.current ≤ tracking.chain.blockNumber
  rest : ∀ deposit ∈ tick.rest, tracking.detector.store.Has deposit

/-- At a point where nothing is counted. -/
theorem TrackerPoint.sound_of_tick {point : TrackerPoint} (sound : tick.Sound tracking)
    (has : tracking.detector.store.Has deposit)
    (held : point.deposits = deposit :: tick.rest) (at_tick : point.tick? = some tick)
    (counted : point.counted? = none) : point.Sound tracking where
  deposits := by
    rw [held]
    exact forall_mem_cons.mpr ⟨has, sound.rest⟩
  current := by
    rw [at_tick]
    rintro other ⟨⟩
    exact sound.current
  counted := by simp [counted]
  enough := by
    rintro other counts confirmations (rfl | rfl) <;> cases counted

theorem Tick.Sound.next (sound : tick.Sound tracking) (continues : tick.next = some later) :
    later.Sound tracking := by
  unfold Tick.next at continues
  split at continues
  · cases continues
  · rename_i deposit rest held
    cases continues
    have members := sound.rest
    rw [held] at members
    obtain ⟨has, others⟩ := forall_mem_cons.mp members
    have tick : Tick.Sound tracking { tick with rest := rest } := ⟨sound.current, others⟩
    exact TrackerPoint.sound_of_tick tick has rfl rfl rfl

variable {confirmations : Nat}

/-- At a point where the confirmations of the deposit are counted. -/
theorem TrackerPoint.sound_of_counts {point : TrackerPoint} (sound : tick.Sound tracking)
    (has : tracking.detector.store.Has deposit)
    (counts : Counts tracking.chain tick deposit confirmations)
    (held : point.deposits = deposit :: tick.rest) (at_tick : point.tick? = some tick)
    (counted : point.counted? = some (tick, deposit, confirmations))
    (enough : deposit.enough confirmations = true ∨
      ∃ crossed left, point = .milestone tick deposit confirmations crossed left) :
    point.Sound tracking where
  deposits := by
    rw [held]
    exact forall_mem_cons.mpr ⟨has, sound.rest⟩
  current := by
    rw [at_tick]
    rintro other ⟨⟩
    exact sound.current
  counted := by
    rw [counted]
    rintro _ _ _ ⟨⟩
    exact counts
  enough := by
    rcases enough with enough | ⟨crossed, left, rfl⟩
    · rintro other others number (rfl | rfl) <;> cases counted <;> exact enough
    · rintro other others number (same | same) <;> cases same

theorem Tick.Sound.conclude (sound : tick.Sound tracking)
    (has : tracking.detector.store.Has deposit)
    (counts : Counts tracking.chain tick deposit confirmations)
    (continues : tick.conclude deposit confirmations = some later) : later.Sound tracking := by
  unfold Tick.conclude at continues
  split at continues
  · rename_i enough
    cases continues
    exact TrackerPoint.sound_of_counts sound has counts rfl rfl rfl (.inl (decide_eq_true enough))
  · split at continues
    · cases continues
      exact TrackerPoint.sound_of_tick sound has rfl rfl rfl
    · exact sound.next continues

theorem Tick.Sound.publishMilestones (sound : tick.Sound tracking)
    (has : tracking.detector.store.Has deposit)
    (counts : Counts tracking.chain tick deposit confirmations) {left : List Nat}
    (continues : tick.publishMilestones deposit confirmations left = some later) :
    later.Sound tracking := by
  cases left with
  | nil => exact sound.conclude has counts continues
  | cons crossed left =>
    cases continues
    exact TrackerPoint.sound_of_counts sound has counts rfl rfl rfl (.inr ⟨_, _, rfl⟩)

theorem Tick.Sound.checked (sound : tick.Sound tracking)
    (has : tracking.detector.store.Has deposit) {hash : TxHash}
    (txHash : deposit.deposit.txHash = .transaction hash)
    (trusts : tick.trusts tracking.chain deposit = true)
    (continues : tick.checked deposit (tracking.chain.receipt? hash) = some later) :
    later.Sound tracking := by
  cases found : tracking.chain.receipt? hash with
  | none =>
    rw [found] at continues
    cases continues
    exact TrackerPoint.sound_of_tick sound has rfl rfl rfl
  | some receipt =>
    rw [found] at continues
    refine sound.publishMilestones has ?_ continues
    intro enough
    have succeeded : receipt.succeeded = true := by
      simpa [Tick.trusts, txHash, found, enough] using trusts
    exact ⟨hash, receipt.blockNumber, txHash, by rw [found, ← succeeded], rfl⟩

end Continuations

/-- What holds of the tables and of the record. -/
structure Tracking.Consistent (tracking : Tracking) : Prop where
  numbered : tracking.detector.store.Numbered
  confirmed : tracking.ConfirmedFinal
  stream : ∀ message ∈ tracking.detector.store.stream, message.isPolling = false

variable {tracking : Tracking}

/-- An update that sets another status than 'confirmed'. -/
theorem Tracking.Consistent.updateDeposit (consistent : tracking.Consistent) (id : Nat)
    (keeps : ∀ row, (change row).id = row.id ∧ (change row).txHash = row.txHash)
    (open_status : ∀ row, (change row).status ≠ .confirmed) :
    (tracking.updateDeposit id change).Consistent where
  numbered := consistent.numbered.updateDeposit id fun row => (keeps row).1
  confirmed := by
    refine ⟨consistent.confirmed.1, ?_⟩
    intro row stored status
    obtain ⟨old, before, ⟨_, rfl⟩ | ⟨_, rfl⟩⟩ := Store.mem_updateDeposit stored
    · exact absurd status (open_status old)
    · exact consistent.confirmed.2 row before status
  stream := consistent.stream

/-- The row of a deposit with enough confirmations is final. -/
theorem final_of_counts {tick : Tick} {confirmations : Nat} {row : Deposit}
    (numbered : tracking.detector.store.Numbered) (has : tracking.detector.store.Has deposit)
    (current : tick.current ≤ tracking.chain.blockNumber)
    (counts : Counts tracking.chain tick deposit confirmations)
    (enough : deposit.enough confirmations = true) (stored : row ∈ tracking.detector.store.deposits)
    (id : row.id = deposit.deposit.id) : Confirmation.final ⟨row, tracking.chain⟩ = true := by
  obtain ⟨other, storedToo, otherId, key, requires⟩ := has
  obtain rfl := numbered.unique stored storedToo (id.trans otherId.symm)
  obtain ⟨hash, blockNumber, txHash, found, counted⟩ := counts enough
  have sameHash : row.txHash = .transaction hash := (congrArg Prod.fst key).trans txHash
  have needed : deposit.deposit.confirmationsRequired ≤ confirmations := of_decide_eq_true enough
  have mined := CanonicalChain.receipt?_le found
  simp only at mined
  have deep : blockNumber + row.confirmationsRequired ≤ tracking.chain.blockNumber := by omega
  simp [Confirmation.final, sameHash, found, deep]

theorem Tracking.Consistent.confirm {tick : Tick} {confirmations : Nat}
    (consistent : tracking.Consistent) (has : tracking.detector.store.Has deposit)
    (current : tick.current ≤ tracking.chain.blockNumber)
    (counts : Counts tracking.chain tick deposit confirmations)
    (enough : deposit.enough confirmations = true) :
    (tracking.confirm deposit.deposit.id confirmations).Consistent where
  numbered := consistent.numbered.updateDeposit _ fun _ => rfl
  confirmed := by
    refine ⟨?_, ?_⟩
    · intro confirmation recorded
      rcases mem_append.mp recorded with before | new
      · exact consistent.confirmed.1 confirmation before
      · obtain ⟨row, chosen, rfl⟩ := mem_map.mp new
        obtain ⟨stored, id⟩ := mem_filter.mp chosen
        exact final_of_counts consistent.numbered has current counts enough stored
          (of_decide_eq_true id)
    · intro row stored status
      obtain ⟨old, before, ⟨hit, rfl⟩ | ⟨_, rfl⟩⟩ := Store.mem_updateDeposit stored
      · refine ⟨⟨old, tracking.chain⟩, mem_append_right _ ?_, rfl, rfl⟩
        exact mem_map_of_mem (mem_filter.mpr ⟨before, decide_eq_true hit⟩)
      · obtain ⟨confirmation, recorded, same⟩ := consistent.confirmed.2 row before status
        exact ⟨confirmation, mem_append_left _ recorded, same⟩
  stream := consistent.stream

/-- A statement of a tick keeps the tables, and the rows and the chain that other ticks know. -/
theorem TrackerPoint.statement_consistent (consistent : tracking.Consistent)
    (sound : point.Sound tracking) :
    (point.statement tracking).after.Consistent ∧
      (point.statement tracking).after.chain = tracking.chain ∧
      ∀ deposit, tracking.detector.store.Has deposit →
        (point.statement tracking).after.detector.store.Has deposit := by
  cases point with
  | select | getProvider | getBlockNumber | receipt => exact ⟨consistent, rfl, fun _ has => has⟩
  | publishReverted | milestone | publishConfirmed =>
    exact ⟨⟨consistent.numbered, consistent.confirmed, consistent.stream⟩, rfl,
      fun _ has => has⟩
  | updateReverted tick deposit =>
    refine ⟨consistent.updateDeposit _ (fun _ => ⟨rfl, rfl⟩) (by simp), rfl, ?_⟩
    exact fun _ has => has.updateDeposit _ fun _ => ⟨rfl, rfl, rfl⟩
  | updateConfirming tick deposit confirmations =>
    refine ⟨consistent.updateDeposit _ (fun _ => ⟨rfl, rfl⟩) (by simp), rfl, ?_⟩
    exact fun _ has => has.updateDeposit _ fun _ => ⟨rfl, rfl, rfl⟩
  | updateConfirmed tick deposit confirmations =>
    refine ⟨consistent.confirm (sound.deposits deposit (mem_cons_self ..))
      (sound.current tick rfl) (sound.counted tick deposit confirmations rfl)
      (sound.enough tick deposit confirmations (.inr rfl)), rfl, ?_⟩
    exact fun _ has => has.updateDeposit _ fun _ => ⟨rfl, rfl, rfl⟩

/-- The selected deposits have their rows. -/
theorem Store.pendingDeposits_has (selected : deposit ∈ store.pendingDeposits) :
    store.Has deposit := by
  obtain ⟨row, chosen, rfl⟩ := mem_map.mp selected
  exact ⟨row, (mem_filter.mp chosen).1, rfl, rfl, Nat.le_refl _⟩

/-- A point that only holds deposits. -/
theorem TrackerPoint.sound_of_deposits
    (has : ∀ deposit ∈ point.deposits, tracking.detector.store.Has deposit)
    (no_tick : point.tick? = none) (counted : point.counted? = none) : point.Sound tracking where
  deposits := has
  current := by simp [no_tick]
  counted := by simp [counted]
  enough := by
    rintro tick deposit confirmations (rfl | rfl) <;> cases counted

/-- What a tick knows after a statement that has returned, in terms of what it knew. -/
theorem TrackerPoint.statement_sound {point later : TrackerPoint} (consistent : tracking.Consistent)
    (sound : point.Sound tracking)
    (trusts : ∀ tick deposit, point = .receipt tick deposit →
      tick.trusts tracking.chain deposit = true)
    (continues : (point.statement tracking).next = some later ∨
      (point.statement tracking).thrown = some later) :
    later.Sound (point.statement tracking).after := by
  obtain ⟨_, chain, rows⟩ := statement_consistent consistent sound
  have ticks : ∀ tick deposit, point.tick? = some tick → point.deposits = deposit :: tick.rest →
      tick.Sound (point.statement tracking).after ∧
        (point.statement tracking).after.detector.store.Has deposit := by
    intro tick deposit running held
    have members := sound.deposits
    rw [held] at members
    obtain ⟨has, others⟩ := forall_mem_cons.mp members
    refine ⟨⟨?_, fun other rest => rows other (others other rest)⟩, rows deposit has⟩
    rw [chain]
    exact sound.current tick running
  cases point with
  | select =>
    simp only [TrackerPoint.statement] at continues ⊢
    rcases continues with continues | thrown
    · split at continues
      · cases continues
      · cases continues
        exact sound_of_deposits (fun _ selected => Store.pendingDeposits_has selected) rfl rfl
    · cases thrown
  | getProvider deposits =>
    rcases continues with continues | thrown
    · cases continues
      exact sound_of_deposits sound.deposits rfl rfl
    · cases thrown
  | getBlockNumber deposits =>
    rcases continues with continues | thrown
    · have tick : Tick.Sound tracking ⟨tracking.chain.blockNumber, deposits⟩ :=
        ⟨Nat.le_refl _, sound.deposits⟩
      exact tick.next continues
    · cases thrown
  | receipt tick deposit =>
    obtain ⟨holds, has⟩ := ticks tick deposit rfl rfl
    rcases continues with continues | thrown
    · simp only [TrackerPoint.statement] at continues
      split at continues
      · exact holds.next continues
      · rename_i hash txHash
        exact holds.checked has txHash (trusts tick deposit rfl) continues
    · exact holds.next thrown
  | publishReverted tick deposit =>
    obtain ⟨holds, has⟩ := ticks tick deposit rfl rfl
    rcases continues with continues | thrown
    · cases continues
      exact sound_of_tick holds has rfl rfl rfl
    · exact holds.next thrown
  | updateReverted tick deposit | updateConfirmed tick deposit _ | updateConfirming tick deposit _ =>
    obtain ⟨holds, _⟩ := ticks tick deposit rfl rfl
    rcases continues with continues | thrown
    · exact holds.next continues
    · exact holds.next thrown
  | milestone tick deposit confirmations crossed left =>
    obtain ⟨holds, has⟩ := ticks tick deposit rfl rfl
    have counts := sound.counted tick deposit confirmations rfl
    rcases continues with continues | thrown
    · exact holds.publishMilestones has (chain ▸ counts) continues
    · exact holds.next thrown
  | publishConfirmed tick deposit confirmations =>
    obtain ⟨holds, has⟩ := ticks tick deposit rfl rfl
    have counts := sound.counted tick deposit confirmations rfl
    have enough := sound.enough tick deposit confirmations (.inl rfl)
    rcases continues with continues | thrown
    · cases continues
      exact sound_of_counts holds has (chain ▸ counts) rfl rfl rfl (.inl enough)
    · exact holds.next thrown

/-! ## The detector and the handler -/

/-- A change that keeps the rows and sends nothing that polling has found. -/
theorem Tracking.Consistent.sameRows {tracking after : Tracking}
    (consistent : tracking.Consistent)
    (rows : after.detector.store.deposits = tracking.detector.store.deposits)
    (confirmed : after.confirmed = tracking.confirmed)
    (stream : ∀ message ∈ after.detector.store.stream,
      message ∈ tracking.detector.store.stream ∨ message.isPolling = false) :
    after.Consistent where
  numbered := by
    unfold Store.Numbered
    rw [rows]
    exact consistent.numbered
  confirmed := by
    unfold Tracking.ConfirmedFinal
    rw [rows, confirmed]
    exact consistent.confirmed
  stream := by
    intro message sent
    exact (stream message sent).elim (consistent.stream message) id

theorem Store.Has.sameRows {store after : Store} (has : store.Has deposit)
    (rows : after.deposits = store.deposits) : after.Has deposit := by
  unfold Store.Has
  rw [rows]
  exact has

/-- A row of the realtime detector is not confirmed when it is inserted. -/
theorem Tracking.Consistent.insert {tracking after : Tracking} {message : Message}
    {address : DepositAddress} {tokenId confirmationsRequired : Nat}
    (consistent : tracking.Consistent) (realtime : message.isPolling = false)
    (store : after.detector.store = tracking.detector.store.insert
      (message.deposit (tracking.detector.store.deposits.length + 1) address tokenId
        confirmationsRequired))
    (confirmed : after.confirmed = tracking.confirmed) : after.Consistent where
  numbered := by
    rw [store]
    exact consistent.numbered.insert rfl
  confirmed := by
    unfold Tracking.ConfirmedFinal
    rw [store, confirmed]
    refine ⟨consistent.confirmed.1, ?_⟩
    intro row stored status
    rcases Store.mem_insert stored with rfl | ⟨old, before, same⟩
    · simp [Message.deposit, realtime] at status
    · rw [same] at status ⊢
      exact consistent.confirmed.2 old before status
  stream := by
    rw [store, Store.insert_stream]
    exact consistent.stream

/-- A statement of the detector leaves the store or publishes a message of its own. -/
theorem RealtimePoint.statement_store (point : RealtimePoint) (detector : Detector)
    (answer : RealtimeAnswer) :
    (point.statement detector answer).after.store = detector.store ∨
      ∃ message : Message, message.isPolling = false ∧
        (point.statement detector answer).after.store = detector.store.publish message := by
  cases point with
  | getProvider | getLogs | getBlock | getHash | cacheHash | updateCursor => exact .inl rfl
  | publish blockNumber left failed =>
    simp only [RealtimePoint.statement]
    split
    · exact .inl rfl
    · rename_i transfer _
      split
      · exact .inr ⟨transfer.message blockNumber, rfl, rfl⟩
      · exact .inl rfl

/-- What a process knows at each of its points. -/
def TrackingProcess.Sound (tracking : Tracking) : TrackingProcess → Prop
  | .tracker point => point.Sound tracking
  | .detection (.handler point) => point.Sound tracking.detector.store
  | .detection (.realtime _) => True

/-- What other processes and the environment may do to the tables. -/
structure Tracking.Changes (tracking after : Tracking) (kept : PendingDeposit → Prop) : Prop where
  store : tracking.detector.store.Extends after.detector.store
  chain : after.chain = tracking.chain
  rows : ∀ deposit, kept deposit → tracking.detector.store.Has deposit →
    after.detector.store.Has deposit

variable {process : TrackingProcess}

theorem TrackingProcess.Sound.extend {tracking after : Tracking} {kept : PendingDeposit → Prop}
    (sound : process.Sound tracking) (changes : tracking.Changes after kept)
    (holds : ∀ point, process = .tracker point → ∀ deposit ∈ point.deposits, kept deposit) :
    process.Sound after := by
  cases process with
  | tracker point =>
    exact TrackerPoint.Sound.extend_rows sound
      (fun deposit held => changes.rows deposit (holds point rfl deposit held)) changes.chain
  | detection process =>
    cases process with
    | realtime => trivial
    | handler point => exact HandlerPoint.Sound.extend sound changes.store

/-- What the insertion of a message allows a tick to hold. -/
def DetectionProcess.keeps : DetectionProcess → PendingDeposit → Prop
  | .handler (.insert _ message _ _ confirmationsRequired), deposit =>
    deposit.deposit.key ≠ message.key ∨
      confirmationsRequired ≤ deposit.deposit.confirmationsRequired
  | _, _ => True

/-- A statement of the detector or the handler, in the whole state. -/
theorem DetectionProcess.statement_changes {process : DetectionProcess} (answer : RealtimeAnswer)
    (consistent : tracking.Consistent) (sound : (TrackingProcess.detection process).Sound tracking) :
    let after := { tracking with detector := (process.statement tracking.detector answer).after }
    Tracking.Consistent after ∧ tracking.Changes after process.keeps := by
  cases process with
  | realtime point =>
    rcases point.statement_store tracking.detector answer with same | ⟨message, own, published⟩
    · have store : ((DetectionProcess.realtime point).statement tracking.detector
          answer).after.store = tracking.detector.store := same
      refine ⟨consistent.sameRows (by rw [store]) rfl ?_, ?_, rfl, ?_⟩
      · simp only [store]
        exact fun message sent => .inl sent
      · simp only [store]
        exact .refl _
      · exact fun deposit _ has => has.sameRows (by rw [store])
    · have store : ((DetectionProcess.realtime point).statement tracking.detector
          answer).after.store = tracking.detector.store.publish message := published
      refine ⟨consistent.sameRows (by rw [store]; rfl) rfl ?_, ?_, rfl, ?_⟩
      · simp only [store]
        intro other sent
        rcases mem_append.mp sent with before | new
        · exact .inl before
        · cases mem_singleton.mp new
          exact .inr own
      · simp only [store]
        exact Store.publish_extends _ _
      · exact fun deposit _ has => has.sameRows (by rw [store]; rfl)
  | handler point =>
    have extended := point.statement_extends tracking.detector.store
    cases point with
    | findAddress | findToken | findChain | ack =>
      exact ⟨consistent.sameRows rfl rfl fun message sent => .inl sent,
        extended, rfl, fun _ _ has => has.sameRows rfl⟩
    | insert position message address tokenId confirmationsRequired =>
      have realtime := consistent.stream message (mem_of_getElem? sound.1)
      exact ⟨consistent.insert realtime rfl rfl, extended, rfl,
        fun deposit kept has => has.insert kept⟩

/-! ## Runs -/

theorem Store.updateDeposit_extends (store : Store) (id : Nat)
    (keeps : ∀ row, (change row).key = row.key) :
    store.Extends (store.updateDeposit id change) where
  stream := prefix_rfl
  tokens := prefix_rfl
  rows := by
    rintro message ⟨row, stored, key⟩
    refine ⟨_, mem_map_of_mem stored, ?_⟩
    by_cases hit : row.id = id
    · simp only [if_pos hit, keeps, key]
    · simp only [if_neg hit, key]

/-- A statement of a tick, for the other processes. -/
theorem TrackerPoint.statement_changes (consistent : tracking.Consistent)
    (sound : point.Sound tracking) :
    tracking.Changes (point.statement tracking).after fun _ => True where
  store := by
    cases point with
    | select | getProvider | getBlockNumber | receipt | publishReverted | milestone
    | publishConfirmed => exact .refl _
    | updateReverted | updateConfirmed | updateConfirming =>
      exact Store.updateDeposit_extends _ _ fun _ => rfl
  chain := (statement_consistent consistent sound).2.1
  rows := fun deposit _ => (statement_consistent consistent sound).2.2 deposit

theorem Tracking.Changes.refl (tracking : Tracking) (kept : PendingDeposit → Prop) :
    tracking.Changes tracking kept :=
  ⟨.refl _, rfl, fun _ _ has => has⟩

def finality : ProofOutline Tracking TrackingProcess where
  Global := Tracking.Consistent
  Local := TrackingProcess.Sound
  Apart _ _ := True
  apart_symm := fun _ => trivial

/-- What other ticks have to allow when a process takes its next statement. -/
def TrackingProcess.keeps : TrackingProcess → PendingDeposit → Prop
  | .tracker _, _ => True
  | .detection process, deposit => process.keeps deposit

/-- A healthy statement of any process. -/
theorem TrackingProcess.statement_keeps {tracking after : Tracking} {input : Input TrackingAnswer}
    {next : Option TrackingProcess} (consistent : tracking.Consistent)
    (sound : process.Sound tracking)
    (trusts : ∀ tick deposit, process = .tracker (.receipt tick deposit) →
      tick.trusts tracking.chain deposit = true)
    (performed : (process.statement tracking input.answer).perform tracking input.ending =
      (after, next)) :
    after.Consistent ∧ tracking.Changes after process.keeps ∧
      ∀ later, next = some later → later.Sound after := by
  cases process with
  | tracker point =>
    obtain ⟨changed, chain, rows⟩ := TrackerPoint.statement_consistent consistent sound
    have changes := TrackerPoint.statement_changes consistent sound
    have known : ∀ later, (point.statement tracking).next = some later ∨
        (point.statement tracking).thrown = some later →
        later.Sound (point.statement tracking).after := by
      intro later
      refine TrackerPoint.statement_sound consistent sound ?_
      rintro tick deposit rfl
      exact trusts tick deposit rfl
    obtain ⟨rfl, ⟨_, rfl⟩ | ⟨_, rfl⟩⟩ | ⟨_, rfl, rfl⟩ := Statement.perform_cases performed
    · refine ⟨changed, changes, ?_⟩
      intro later continues
      obtain ⟨found, goes, rfl⟩ := Option.map_eq_some_iff.mp continues
      exact known found (.inl goes)
    · refine ⟨changed, changes, ?_⟩
      intro later continues
      obtain ⟨found, goes, rfl⟩ := Option.map_eq_some_iff.mp continues
      exact known found (.inr goes)
    · refine ⟨consistent, .refl _ _, ?_⟩
      intro later continues
      obtain ⟨found, goes, rfl⟩ := Option.map_eq_some_iff.mp continues
      -- Without its effect, the tick goes on with what it still knows.
      have tick : ∀ held, point.tick? = some held →
          (point.statement after).thrown = held.next → found.Sound after := by
        intro held running throws
        have rest : ∀ deposit ∈ held.rest, after.detector.store.Has deposit := by
          intro deposit member
          refine sound.deposits deposit ?_
          cases point <;> cases running <;> exact mem_cons_of_mem _ member
        have stays : held.Sound after := ⟨sound.current held running, rest⟩
        exact stays.next (throws.symm.trans goes)
      cases point with
      | select | getProvider | getBlockNumber => cases goes
      | receipt | publishReverted | updateReverted | milestone | publishConfirmed
      | updateConfirmed | updateConfirming => exact tick _ rfl rfl
  | detection process =>
    obtain ⟨changed, changes⟩ :=
      process.statement_changes (process.answer tracking.chain input.answer) consistent sound
    have handler : ∀ point, process = .handler point → ∀ later,
        (point.statement tracking.detector.store).next = some later →
        later.Sound (point.statement tracking.detector.store).after := by
      rintro point rfl later goes
      exact HandlerPoint.next_sound sound goes
    obtain ⟨rfl, ⟨_, rfl⟩ | ⟨_, rfl⟩⟩ | ⟨_, rfl, rfl⟩ := Statement.perform_cases performed
    · refine ⟨changed, changes, ?_⟩
      intro later continues
      obtain ⟨found, goes, rfl⟩ := Option.map_eq_some_iff.mp continues
      cases process with
      | realtime point =>
        obtain ⟨_, _, rfl⟩ := Option.map_eq_some_iff.mp goes
        trivial
      | handler point =>
        obtain ⟨later, goes', rfl⟩ := Option.map_eq_some_iff.mp goes
        exact handler point rfl later goes'
    · refine ⟨changed, changes, ?_⟩
      intro later continues
      obtain ⟨found, goes, rfl⟩ := Option.map_eq_some_iff.mp continues
      cases process with
      | realtime point =>
        obtain ⟨_, _, rfl⟩ := Option.map_eq_some_iff.mp goes
        trivial
      | handler point => cases point <;> cases goes
    · refine ⟨consistent, .refl _ _, ?_⟩
      intro later continues
      obtain ⟨found, goes, rfl⟩ := Option.map_eq_some_iff.mp continues
      cases process with
      | realtime point =>
        obtain ⟨_, _, rfl⟩ := Option.map_eq_some_iff.mp goes
        trivial
      | handler point => cases point <;> cases goes

/-- A new block keeps what every process knows. -/
theorem TrackingProcess.Sound.mine (sound : process.Sound tracking) (block : MinedBlock) :
    process.Sound { tracking with chain := tracking.chain ++ [block] } := by
  cases process with
  | tracker point =>
    refine TrackerPoint.Sound.extend sound (fun _ _ has => has) ?_ ?_
    · intro tick _ below
      simp only [CanonicalChain.blockNumber, length_append, length_singleton] at below ⊢
      omega
    · intro tick deposit confirmations _ counts enough
      obtain ⟨hash, blockNumber, txHash, found, counted⟩ := counts enough
      exact ⟨hash, blockNumber, txHash, CanonicalChain.receipt?_mine block found, counted⟩
  | detection process => cases process <;> exact sound

/-- A reorganisation that a tick survives. -/
theorem TrackingProcess.Sound.reorg (sound : process.Sound tracking)
    (survives : ∀ point, process = .tracker point → point.survives tracking.chain chain = true) :
    process.Sound { tracking with chain := chain } := by
  cases process with
  | tracker point =>
    have stays := survives point rfl
    simp only [TrackerPoint.survives, Bool.and_eq_true] at stays
    refine TrackerPoint.Sound.extend sound (fun _ _ has => has) ?_ ?_
    · intro tick running _
      have height := stays.1
      rw [Option.mem_def.mp running] at height
      exact of_decide_eq_true height
    · intro tick deposit confirmations running counts enough
      obtain ⟨hash, blockNumber, txHash, found, counted⟩ := counts enough
      have same := stays.2
      simp only [running, Option.all_some, enough, Bool.not_true, Bool.false_or, txHash,
        decide_eq_true_eq] at same
      exact ⟨hash, blockNumber, txHash, same.trans found, counted⟩
  | detection process => cases process <;> exact sound

theorem Tracking.start_detect {begun : DetectionStart} (quiet : ∀ message, begun ≠ .poll message) :
    tracking.start (.detect begun) =
      (tracking.detector.start begun).map fun (detector, process) =>
        ({ tracking with detector := detector }, process.map .detection) := by
  cases begun with
  | poll message => exact absurd rfl (quiet message)
  | block | deliver | loadMonitoredAddresses | registerAddress | registerToken => rfl

/-- What begins at the detector. -/
theorem Detector.start_changes {begun : DetectionStart} {detector : Detector}
    {process : Option DetectionProcess}
    (started : tracking.detector.start begun = some (detector, process))
    (quiet : ∀ message, begun ≠ .poll message) (consistent : tracking.Consistent) :
    Tracking.Consistent { tracking with detector := detector } ∧
      tracking.Changes { tracking with detector := detector } (fun _ => True) ∧
      ∀ point, process = some point →
        (TrackingProcess.detection point).Sound { tracking with detector := detector } := by
  cases begun with
  | poll message => exact absurd rfl (quiet message)
  | block blockNumber =>
    cases started
    refine ⟨consistent, .refl _ _, ?_⟩
    rintro point ⟨⟩
    trivial
  | deliver position =>
    obtain ⟨message, found, same⟩ := Option.map_eq_some_iff.mp started
    cases same
    refine ⟨consistent, .refl _ _, ?_⟩
    rintro point ⟨⟩
    exact found
  | loadMonitoredAddresses watched =>
    cases started
    exact ⟨consistent.sameRows rfl rfl fun message sent => .inl sent,
      ⟨.refl _, rfl, fun _ _ has => has⟩, by simp⟩
  | registerAddress row =>
    cases started
    exact ⟨consistent.sameRows rfl rfl fun message sent => .inl sent,
      ⟨⟨prefix_rfl, prefix_rfl, fun _ has => has⟩, rfl, fun _ _ has => has⟩, by simp⟩
  | registerToken token =>
    cases started
    exact ⟨consistent.sameRows rfl rfl fun message sent => .inl sent,
      ⟨⟨prefix_rfl, ⟨_, rfl⟩, fun _ has => has⟩, rfl, fun _ _ has => has⟩, by simp⟩

/-- A condition on every running tick holds of each. -/
theorem TrackingState.ticks_apply {state : TrackingState} {check : TrackerPoint → Bool} {pid : Nat}
    (passes : TrackingState.ticks state check = true)
    (running : state.process? pid = some (.tracker point)) : check point = true := by
  have passed := PoolState.every_apply passes running
  simpa [TrackingProcess.tracker?] using passed

/-- What begins from outside keeps the outline. -/
theorem Tracking.start_keeps {state : TrackingState} {begun : TrackingStart} {after : Tracking}
    {process : Option TrackingProcess} (holds : finality.Holds state)
    (healthy : TrackingState.Healthy state (.launch begun))
    (started : state.shared.start begun = some (after, process)) :
    finality.Keeps state state.processes.length after process := by
  have consistent := holds.global
  have keeps : after.Consistent → (∀ point, process = some point → point.Sound after) →
      (∀ pid point, state.process? pid = some point → point.Sound after) →
      finality.Keeps state state.processes.length after process :=
    fun tables own others => ⟨tables, own, fun pid point _ running => others pid point running,
      fun _ _ _ _ _ _ => trivial⟩
  cases begun with
  | tick =>
    cases started
    refine keeps consistent ?_ holds.locals
    rintro point ⟨⟩
    exact TrackerPoint.sound_of_deposits (fun _ held => by cases held) rfl rfl
  | mine block =>
    cases started
    refine keeps ⟨consistent.numbered, consistent.confirmed, consistent.stream⟩ (by simp) ?_
    exact fun pid point running => (holds.locals pid point running).mine block
  | reorg chain =>
    cases started
    refine keeps ⟨consistent.numbered, consistent.confirmed, consistent.stream⟩ (by simp) ?_
    intro pid point running
    refine TrackingProcess.Sound.reorg (holds.locals pid point running) ?_
    rintro tick rfl
    exact TrackingState.ticks_apply healthy running
  | configure confirmationsDefault =>
    cases started
    refine keeps (consistent.sameRows rfl rfl fun message sent => .inl sent) (by simp) ?_
    intro pid point running
    have changes : Tracking.Changes state.shared { state.shared with
        detector := { state.shared.detector with
          store := { state.shared.detector.store with
            confirmationsDefault := some confirmationsDefault } } } fun _ => True :=
      ⟨⟨prefix_rfl, prefix_rfl, fun _ has => has⟩, rfl, fun _ _ has => has⟩
    exact TrackingProcess.Sound.extend (holds.locals pid point running) changes
      fun _ _ _ _ => trivial
  | detect begun =>
    have quiet : ∀ message, begun ≠ .poll message := by
      rintro message rfl
      cases started
    obtain ⟨detector, later, launched, rfl, rfl⟩ : ∃ detector later,
        state.shared.detector.start begun = some (detector, later) ∧
          after = { state.shared with detector := detector } ∧
          process = later.map .detection := by
      rw [Tracking.start_detect quiet] at started
      obtain ⟨⟨detector, later⟩, launched, same⟩ := Option.map_eq_some_iff.mp started
      cases same
      exact ⟨detector, later, launched, rfl, rfl⟩
    obtain ⟨changed, changes, own⟩ := Detector.start_changes launched quiet consistent
    refine keeps changed ?_ ?_
    · intro point continues
      obtain ⟨found, goes, rfl⟩ := Option.map_eq_some_iff.mp continues
      exact own found goes
    · intro pid point running
      exact (holds.locals pid point running).extend changes fun _ _ _ _ => trivial

/-- In every healthy run, each deposit that was set to 'confirmed' had a successful
transaction in the canonical chain at the required depth. -/
theorem confirmed_deposits_final {state : TrackingState}
    (reached : confirmationTracking.system.Reachable TrackingState.Healthy state) :
    state.shared.ConfirmedFinal := by
  have holds : finality.Holds state := by
    refine ProofOutline.reachable reached ?_ ?_ ?_
    · rintro tracking ⟨⟨seen, stream, acked, deposits⟩, confirmed⟩
      refine ⟨?_, ?_, ?_⟩
      · simp [Store.Numbered, deposits]
      · simp [Tracking.ConfirmedFinal, confirmed, deposits]
      · simp [stream]
    · exact fun before begun shared process held healthy started =>
        Tracking.start_keeps held healthy started
    · intro before pid process input shared next held healthy running moved
      have trusts : ∀ tick deposit, process = .tracker (.receipt tick deposit) →
          tick.trusts before.shared.chain deposit = true := by
        rintro tick deposit rfl
        simpa [TrackingState.Healthy, TrackingState.healthy, running] using healthy
      obtain ⟨changed, changes, own⟩ := TrackingProcess.statement_keeps held.global
        (held.locals pid process running) trusts (Option.some.inj moved)
      refine ⟨changed, own, ?_, fun _ _ _ _ _ _ => trivial⟩
      intro other point _ runs
      refine (held.locals other point runs).extend changes ?_
      rintro tick rfl deposit member
      cases process with
      | tracker => trivial
      | detection process =>
        cases process with
        | realtime => trivial
        | handler point =>
          cases point with
          | findAddress | findToken | findChain | ack => trivial
          | insert position message address tokenId confirmationsRequired =>
            simp only [TrackingState.Healthy, TrackingState.healthy, running,
              Option.all_some] at healthy
            have allows := TrackingState.ticks_apply healthy runs
            have allowed := all_eq_true.mp allows deposit member
            simpa [TrackingProcess.keeps, DetectionProcess.keeps] using allowed
  exact holds.global.confirmed

/-! ## A value sent to a forwarder -/

/-- Block 1 sends the forwarder 7 the value 3, with the given outcome. -/
def sampleTracking (succeeded : Bool) : Tracking where
  chain := [[], [⟨⟨1, 9, some 7, 3⟩, succeeded, []⟩]]
  detector := {
    watched := [7]
    lastBlock := 0
    seen := []
    store := ⟨[], [], [⟨7, 1, 1, 1⟩], [⟨1, zeroAddress, true⟩], some 2, []⟩ }
  published := []
  confirmed := []

theorem sampleTracking_initial (succeeded : Bool) :
    confirmationTracking.system.Initial ⟨sampleTracking succeeded, []⟩ :=
  ⟨⟨⟨rfl, rfl, rfl, rfl⟩, rfl⟩, rfl⟩

/-- A statement that succeeds; the provider has the block. -/
def tracks (pid : Nat) : TrackingAction := .advance pid ⟨.done, ⟨true, 0, true⟩⟩

/-- Block 1 is scanned and its deposit stored; two blocks later a tick checks it. -/
def confirmDeposit : List TrackingAction :=
  [.launch (.detect (.block 1))] ++ List.replicate 7 (tracks 0) ++
    [.launch (.detect (.deliver 0))] ++ List.replicate 5 (tracks 1) ++
    [.launch (.mine []), .launch (.mine []), .launch .tick] ++ List.replicate 7 (tracks 4)

/-- The deposit of a successful transaction is confirmed. -/
theorem confirmed_deposits_final_sample :
    ∃ state : TrackingState,
      (state.shared.detector.store.deposits.map fun row => (row.amount, row.status)) =
        [(3, .confirmed)] ∧ state.shared.ConfirmedFinal := by
  obtain ⟨state, reached, passed⟩ : ∃ state,
      confirmationTracking.system.Reachable TrackingState.Healthy state ∧
      (state.shared.detector.store.deposits.map fun row => (row.amount, row.status)) =
        [(3, .confirmed)] :=
    exists_reachable (sampleTracking_initial true) confirmDeposit (by decide +kernel)
  exact ⟨state, passed, confirmed_deposits_final reached⟩

/-- The transaction has reverted, so that nothing was sent, and its deposit is confirmed. -/
theorem reverted_deposit_confirmed :
    ¬ ∀ state : TrackingState, confirmationTracking.system.Reachable Unrestricted state →
      state.shared.ConfirmedFinal := by
  intro always
  obtain ⟨state, reached, passed⟩ : ∃ state,
      confirmationTracking.system.Reachable Unrestricted state ∧
      ¬ state.shared.ConfirmedFinal :=
    exists_reachable (sampleTracking_initial false) confirmDeposit (by decide +kernel)
  exact passed (always state reached)

end CryptoVaultHub.Indexer
