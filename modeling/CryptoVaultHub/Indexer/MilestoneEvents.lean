import CryptoVaultHub.Indexer.ConfirmationSafety

/-!
# Milestones are published once

A check publishes the milestones between the count in the row and the one that it has observed,
and then writes the latter to the row. A milestone is published again when the count is not
written after an event was sent, when a reorganisation lowers it, or when two ticks run at once.
`milestones_published_once` says that there is no other way.
-/

namespace CryptoVaultHub.Indexer

open TransitionSystem List

/-! ## The property -/

/-- The deposit and the milestone of an event. -/
def ConfirmationEvent.milestone? (event : ConfirmationEvent) : Option (Nat × Nat) :=
  match event.event with
  | .milestone milestone => some (event.deposit.deposit.id, milestone)
  | .reverted | .confirmed => none

def Tracking.milestonesPublished (tracking : Tracking) : List (Nat × Nat) :=
  tracking.published.filterMap ConfirmationEvent.milestone?

/-- No milestone of a deposit was published twice. -/
@[reducible] def Tracking.MilestonesOnce (tracking : Tracking) : Prop :=
  tracking.milestonesPublished.Nodup

/-- The tracker, with an empty stream at first. -/
def milestoneTracking :
    ProcessPool Tracking TrackingProcess (Input TrackingAnswer) TrackingStart :=
  { confirmationTracking with
    Initial := fun tracking => tracking.Initial ∧ tracking.published = [] }

/-! ## The condition -/

/-- The milestones that the check in progress has published. -/
def TrackerPoint.sent : TrackerPoint → List Nat
  | .milestone _ deposit confirmations publishing left =>
    (deposit.crossed confirmations).filter fun crossed => crossed ∉ publishing :: left
  | .publishConfirmed _ deposit confirmations | .updateConfirmed _ deposit confirmations
  | .updateConfirming _ deposit confirmations => deposit.crossed confirmations
  | .select | .getProvider _ | .getBlockNumber _ | .receipt .. | .publishReverted ..
  | .updateReverted .. => []

/-- The count stays above the milestones that it has reached. -/
def PendingDeposit.rises (deposit : PendingDeposit) (confirmations : Nat) : Bool :=
  milestones.all fun milestone =>
    !(confirmations < milestone && milestone ≤ deposit.deposit.confirmations)

/-- Once a milestone was sent, nothing fails before the row has its count; and the count does not
fall below a milestone. -/
def TrackerPoint.steady (point : TrackerPoint) (ending : Ending) : Bool :=
  match point with
  | .milestone .. => ending = .done || (ending = .failed && point.sent.isEmpty)
  | .publishConfirmed .. => ending = .done || point.sent.isEmpty
  | .updateConfirmed .. => ending ≠ .failed || point.sent.isEmpty
  | .updateConfirming _ deposit confirmations =>
    (ending ≠ .failed || point.sent.isEmpty) &&
      (ending = .failed || deposit.rises confirmations)
  | .select | .getProvider _ | .getBlockNumber _ | .receipt .. | .publishReverted ..
  | .updateReverted .. => true

/-- A tick begins after the one before, and a process that stops has sent nothing in its check. -/
def TrackingState.steady (state : TrackingState) : TrackingAction → Bool
  | .launch .tick => TrackingState.ticks state fun _ => false
  | .launch (.mine _) | .launch (.reorg _) | .launch (.configure _) | .launch (.detect _) => true
  | .advance pid input =>
    (state.process? pid).all fun process =>
      process.tracker?.all fun point => point.steady input.ending
  | .crash pid =>
    (state.process? pid).all fun process =>
      process.tracker?.all fun point => point.sent.isEmpty

@[reducible] def TrackingState.Steady (state : TrackingState) (action : TrackingAction) : Prop :=
  TrackingState.steady state action = true

/-! ## Rows -/

/-- The row of a selected deposit has its count and can still be selected. -/
def Store.Fresh (store : Store) (deposit : PendingDeposit) : Prop :=
  ∃ row ∈ store.deposits, row.id = deposit.deposit.id ∧
    row.confirmations = deposit.deposit.confirmations ∧ row.selected = true

/-- The row of a deposit has reached a milestone, or is not selected any more. -/
def Store.Settled (store : Store) (key : Nat × Nat) : Prop :=
  ∃ row ∈ store.deposits, row.id = key.1 ∧ (key.2 ≤ row.confirmations ∨ row.selected = false)

/-- The counts of the rows and what is selected stay. -/
structure Store.KeepsCounts (store after : Store) : Prop where
  numbered : store.Numbered → after.Numbered
  rows : ∀ row ∈ store.deposits, ∃ later ∈ after.deposits, later.id = row.id ∧
    later.confirmations = row.confirmations ∧ later.selected = row.selected

variable {store after : Store} {deposit : PendingDeposit} {key : Nat × Nat}

theorem Store.KeepsCounts.refl (store : Store) : store.KeepsCounts store :=
  ⟨id, fun row stored => ⟨row, stored, rfl, rfl, rfl⟩⟩

theorem Store.KeepsCounts.sameRows (same : after.deposits = store.deposits) :
    store.KeepsCounts after where
  numbered := by
    intro numbered
    rw [Store.Numbered, same]
    exact numbered
  rows := by
    intro row stored
    exact ⟨row, same ▸ stored, rfl, rfl, rfl⟩

theorem Store.KeepsCounts.insert {inserted : Deposit}
    (id : inserted.id = store.deposits.length + 1) : store.KeepsCounts (store.insert inserted) where
  numbered := fun numbered => numbered.insert id
  rows := by
    intro row stored
    rw [Store.insert]
    split
    · refine ⟨_, mem_map_of_mem stored, ?_⟩
      by_cases same : row.key = inserted.key
      · rw [if_pos same]
        exact ⟨rfl, rfl, rfl⟩
      · rw [if_neg same]
        exact ⟨rfl, rfl, rfl⟩
    · exact ⟨row, mem_append_left _ stored, rfl, rfl, rfl⟩

theorem Store.Fresh.keep (fresh : store.Fresh deposit) (keeps : store.KeepsCounts after) :
    after.Fresh deposit := by
  obtain ⟨row, stored, id, count, selected⟩ := fresh
  obtain ⟨later, storedLater, sameId, sameCount, sameStatus⟩ := keeps.rows row stored
  exact ⟨later, storedLater, sameId.trans id, sameCount.trans count, sameStatus.trans selected⟩

theorem Store.Settled.keep (settled : store.Settled key) (keeps : store.KeepsCounts after) :
    after.Settled key := by
  obtain ⟨row, stored, id, reached⟩ := settled
  obtain ⟨later, storedLater, sameId, sameCount, sameStatus⟩ := keeps.rows row stored
  exact ⟨later, storedLater, sameId.trans id, by rwa [sameCount, sameStatus]⟩

/-- A row that is not named by an update stays. -/
theorem Store.mem_updateDeposit_of_ne {row : Deposit} {id : Nat} (change : Deposit → Deposit)
    (stored : row ∈ store.deposits) (other : row.id ≠ id) :
    row ∈ (store.updateDeposit id change).deposits := by
  refine mem_map.mpr ⟨row, stored, if_neg other⟩

theorem Store.mem_updateDeposit_of_eq {row : Deposit} {id : Nat} (change : Deposit → Deposit)
    (stored : row ∈ store.deposits) (same : row.id = id) :
    change row ∈ (store.updateDeposit id change).deposits :=
  mem_map.mpr ⟨row, stored, if_pos same⟩

theorem Store.Fresh.updateDeposit (fresh : store.Fresh deposit) {id : Nat}
    (change : Deposit → Deposit) (other : deposit.deposit.id ≠ id) :
    (store.updateDeposit id change).Fresh deposit := by
  obtain ⟨row, stored, same, held⟩ := fresh
  exact ⟨row, Store.mem_updateDeposit_of_ne change stored (same ▸ other), same, held⟩

theorem Store.Settled.updateDeposit (settled : store.Settled key) {id : Nat}
    (change : Deposit → Deposit) (other : key.1 ≠ id) :
    (store.updateDeposit id change).Settled key := by
  obtain ⟨row, stored, same, reached⟩ := settled
  exact ⟨row, Store.mem_updateDeposit_of_ne change stored (same ▸ other), same, reached⟩

/-- A milestone above the count of a fresh deposit is not settled. -/
theorem Store.Fresh.le_of_settled (numbered : store.Numbered) (fresh : store.Fresh deposit)
    {milestone : Nat} (settled : store.Settled (deposit.deposit.id, milestone)) :
    milestone ≤ deposit.deposit.confirmations := by
  obtain ⟨row, stored, id, count, selected⟩ := fresh
  obtain ⟨other, storedToo, sameId, reached⟩ := settled
  obtain rfl := numbered.unique stored storedToo (id.trans sameId.symm)
  rcases reached with low | unselected
  · exact count ▸ low
  · rw [selected] at unselected
    cases unselected

/-! ## What a tick knows -/

/-- A deposit is held once, and as its row is; the milestones that are left end the list of those
that were crossed. -/
structure TrackerPoint.Current (tracking : Tracking) (point : TrackerPoint) : Prop where
  fresh : ∀ deposit ∈ point.deposits, tracking.detector.store.Fresh deposit
  distinct : (point.deposits.map fun deposit => deposit.deposit.id).Nodup
  ending : ∀ tick deposit confirmations publishing left,
    point = .milestone tick deposit confirmations publishing left →
      ∃ before, deposit.crossed confirmations = before ++ publishing :: left

/-- The keys of the milestones that the check in progress has published. -/
def TrackerPoint.owed (point : TrackerPoint) : List (Nat × Nat) :=
  match point.deposits with
  | [] => []
  | deposit :: _ => point.sent.map fun milestone => (deposit.deposit.id, milestone)

variable {tracking : Tracking} {tick : Tick} {confirmations : Nat} {point later : TrackerPoint}

theorem crossed_nodup (deposit : PendingDeposit) (confirmations : Nat) :
    (deposit.crossed confirmations).Nodup :=
  List.Nodup.filter _ (by decide)

theorem mem_crossed {milestone : Nat} : milestone ∈ deposit.crossed confirmations ↔
    milestone ∈ milestones ∧ deposit.deposit.confirmations < milestone ∧
      milestone ≤ confirmations := by
  rw [PendingDeposit.crossed, mem_filter, decide_eq_true_eq]

/-- A point at which nothing was published in a check. -/
theorem TrackerPoint.Current.of_deposits {rest : List PendingDeposit} (deposits : point.deposits = rest)
    (fresh : ∀ deposit ∈ rest, tracking.detector.store.Fresh deposit)
    (distinct : (rest.map fun deposit => deposit.deposit.id).Nodup)
    (other : ∀ tick deposit confirmations publishing left,
      point ≠ .milestone tick deposit confirmations publishing left) : point.Current tracking where
  fresh := deposits ▸ fresh
  distinct := deposits ▸ distinct
  ending := fun tick deposit confirmations publishing left same =>
    absurd same (other tick deposit confirmations publishing left)

/-- What follows a check, for the deposits that are left. -/
theorem Tick.next_current (fresh : ∀ deposit ∈ tick.rest, tracking.detector.store.Fresh deposit)
    (distinct : (tick.rest.map fun deposit => deposit.deposit.id).Nodup)
    (continues : tick.next = some later) : later.Current tracking ∧ later.owed = [] := by
  rw [Tick.next] at continues
  cases rest : tick.rest with
  | nil =>
    rw [rest] at continues
    cases continues
  | cons deposit others =>
    rw [rest] at continues fresh distinct
    cases continues
    exact ⟨.of_deposits rfl fresh distinct (by simp), rfl⟩

/-- After the milestones of a deposit: all that were crossed are published, or none was. -/
theorem Tick.conclude_current
    (fresh : ∀ held ∈ deposit :: tick.rest, tracking.detector.store.Fresh held)
    (distinct : ((deposit :: tick.rest).map fun held => held.deposit.id).Nodup)
    (continues : tick.conclude deposit confirmations = some later) :
    later.Current tracking ∧
      later.owed = (deposit.crossed confirmations).map fun milestone =>
        (deposit.deposit.id, milestone) := by
  rw [Tick.conclude] at continues
  split at continues
  · cases continues
    exact ⟨.of_deposits rfl fresh distinct (by simp), rfl⟩
  · split at continues
    · cases continues
      exact ⟨.of_deposits rfl fresh distinct (by simp), rfl⟩
    · rename_i same
      simp only [not_or, not_not] at same
      have none : deposit.crossed confirmations = [] := by
        refine filter_eq_nil_iff.mpr fun milestone _ => ?_
        simp only [decide_eq_true_eq, not_and, Nat.not_le]
        omega
      obtain ⟨current, owed⟩ := Tick.next_current
        (fun held member => fresh held (mem_cons_of_mem _ member))
        (nodup_cons.mp distinct).2 continues
      exact ⟨current, by rw [owed, none]; rfl⟩

/-- The next milestone, with those before it published. -/
theorem Tick.publishMilestones_current {before left : List Nat}
    (fresh : ∀ held ∈ deposit :: tick.rest, tracking.detector.store.Fresh held)
    (distinct : ((deposit :: tick.rest).map fun held => held.deposit.id).Nodup)
    (split : deposit.crossed confirmations = before ++ left)
    (continues : tick.publishMilestones deposit confirmations left = some later) :
    later.Current tracking ∧
      later.owed = before.map fun milestone => (deposit.deposit.id, milestone) := by
  cases left with
  | nil =>
    obtain ⟨current, owed⟩ := Tick.conclude_current fresh distinct continues
    rw [split, append_nil] at owed
    exact ⟨current, owed⟩
  | cons publishing left =>
    cases continues
    refine ⟨⟨fresh, distinct, ?_⟩, ?_⟩
    · intro _ _ _ _ _ same
      cases same
      exact ⟨before, split⟩
    · have nodup := crossed_nodup deposit confirmations
      rw [split] at nodup
      have apart := disjoint_of_nodup_append nodup
      have sent : (before ++ publishing :: left).filter
          (fun crossed => crossed ∉ publishing :: left) = before := by
        rw [filter_append, filter_eq_self.mpr, filter_eq_nil_iff.mpr,
          append_nil]
        · intro milestone member
          simpa [or_iff_not_imp_left] using member
        · intro milestone member
          exact decide_eq_true (apart member)
      rw [TrackerPoint.owed, TrackerPoint.deposits, TrackerPoint.sent]
      simp only [split, sent]

/-- A check that has crossed a milestone has a row to write. -/
theorem Tick.publishMilestones_isSome {publishing : Nat} {left : List Nat}
    (crossed : publishing ∈ deposit.crossed confirmations) :
    (tick.publishMilestones deposit confirmations left).isSome = true := by
  obtain ⟨_, above, below⟩ := mem_crossed.mp crossed
  cases left with
  | nil =>
    rw [Tick.publishMilestones, Tick.conclude]
    split
    · rfl
    · rw [if_pos (.inl (by omega))]
      rfl
  | cons => rfl

/-! ## One statement of a tick -/

/-- What holds of the tables and of the stream. -/
structure Tracking.Once (tracking : Tracking) : Prop where
  numbered : tracking.detector.store.Numbered
  once : tracking.MilestonesOnce
  known : ∀ key ∈ tracking.milestonesPublished, key.2 ∈ milestones

/-- Each milestone that was published is settled or owed by a check in progress. -/
def Tracking.Accounted (tracking : Tracking) (owed : List (Nat × Nat)) : Prop :=
  ∀ key ∈ tracking.milestonesPublished, tracking.detector.store.Settled key ∨ key ∈ owed

/-- What a statement of a tick leaves. -/
structure TrackerPoint.Leaves (after : Tracking) (next : Option TrackerPoint) : Prop where
  once : after.Once
  current : ∀ later, next = some later → later.Current after
  accounted : after.Accounted (next.elim [] TrackerPoint.owed)

theorem TrackerPoint.Leaves.of_next {after : Tracking} {next : Option TrackerPoint}
    (owed : List (Nat × Nat)) (once : after.Once)
    (current : ∀ later, next = some later → later.Current after ∧ later.owed = owed)
    (accounted : after.Accounted (if next.isSome then owed else [])) : Leaves after next where
  once := once
  current := fun later goes => (current later goes).1
  accounted := by
    cases next with
    | none => exact accounted
    | some later =>
      rw [Option.elim_some, (current later rfl).2]
      exact accounted

/-- A check that has published nothing goes on to the next deposit. -/
theorem TrackerPoint.Leaves.next (once : tracking.Once) (accounted : tracking.Accounted [])
    (fresh : ∀ deposit ∈ tick.rest, tracking.detector.store.Fresh deposit)
    (distinct : (tick.rest.map fun deposit => deposit.deposit.id).Nodup) :
    Leaves tracking tick.next := by
  refine .of_next _ once (fun later goes => Tick.next_current fresh distinct goes) ?_
  rw [ite_self]
  exact accounted

/-- An update of the row of a deposit that settles its milestones. -/
theorem TrackerPoint.Leaves.update {owed : List (Nat × Nat)} {after : Tracking}
    {change : Deposit → Deposit} (once : tracking.Once) (accounted : tracking.Accounted owed)
    (fresh : ∀ held ∈ deposit :: tick.rest, tracking.detector.store.Fresh held)
    (distinct : ((deposit :: tick.rest).map fun held => held.deposit.id).Nodup)
    (store : after.detector.store =
      tracking.detector.store.updateDeposit deposit.deposit.id change)
    (published : after.published = tracking.published)
    (keeps : ∀ row, (change row).id = row.id)
    (others : ∀ key ∈ owed, key.1 = deposit.deposit.id)
    (settles : ∀ row ∈ tracking.detector.store.deposits, row.id = deposit.deposit.id →
      row.confirmations = deposit.deposit.confirmations →
        ∀ milestone ∈ milestones, milestone ≤ deposit.deposit.confirmations ∨
            (deposit.deposit.id, milestone) ∈ owed →
          milestone ≤ (change row).confirmations ∨ (change row).selected = false) :
    Leaves after tick.next := by
  obtain ⟨own, apart⟩ := nodup_cons.mp distinct
  have elsewhere : ∀ held ∈ tick.rest, held.deposit.id ≠ deposit.deposit.id := by
    intro held member same
    exact own (mem_map.mpr ⟨held, member, same⟩)
  have sameKeys : after.milestonesPublished = tracking.milestonesPublished := by
    rw [Tracking.milestonesPublished, published]
    rfl
  have freshDeposit := fresh deposit mem_cons_self
  refine .next ⟨?_, ?_, ?_⟩ ?_ ?_ apart
  · rw [store]
    exact once.numbered.updateDeposit _ keeps
  · rw [Tracking.MilestonesOnce, sameKeys]
    exact once.once
  · rw [sameKeys]
    exact once.known
  · intro key member
    rw [sameKeys] at member
    left
    rw [store]
    by_cases same : key.1 = deposit.deposit.id
    · obtain ⟨row, stored, id, count, selected⟩ := freshDeposit
      refine ⟨change row, Store.mem_updateDeposit_of_eq change stored id, ?_, ?_⟩
      · rw [keeps, id, same]
      · refine settles row stored id count key.2 (once.known key member) ?_
        rcases accounted key member with settled | inCheck
        · refine .inl ?_
          have settledHere : tracking.detector.store.Settled (deposit.deposit.id, key.2) :=
            same ▸ settled
          exact Store.Fresh.le_of_settled once.numbered ⟨row, stored, id, count, selected⟩
            settledHere
        · exact .inr (same ▸ inCheck)
    · rcases accounted key member with settled | inCheck
      · exact settled.updateDeposit change same
      · exact absurd (others key inCheck) same
  · intro held member
    rw [store]
    exact (fresh held (mem_cons_of_mem _ member)).updateDeposit change (elsewhere held member)

theorem TrackerPoint.owed_own {rest : List PendingDeposit} (deposits : point.deposits = deposit :: rest)
    (member : key ∈ point.owed) : key.1 = deposit.deposit.id ∧ key.2 ∈ point.sent := by
  rw [TrackerPoint.owed, deposits] at member
  obtain ⟨milestone, sent, rfl⟩ := mem_map.mp member
  exact ⟨rfl, sent⟩

/-- A check that has published nothing owes nothing. -/
theorem TrackerPoint.owed_nil (nothing : point.sent.isEmpty = true) : point.owed = [] := by
  rw [TrackerPoint.owed]
  cases point.deposits with
  | nil => rfl
  | cons deposit rest => rw [isEmpty_iff.mp nothing]; rfl

theorem milestonesPublished_publish (tracking : Tracking) (event : ConfirmationEvent) :
    (tracking.publish event).milestonesPublished =
      tracking.milestonesPublished ++ event.milestone?.toList := by
  rw [Tracking.milestonesPublished, Tracking.publish, filterMap_append]
  cases kind : event.milestone? <;> simp [Tracking.milestonesPublished, kind]

/-- An event of another kind. -/
theorem Tracking.Once.publish {event : ConfirmationEvent} {owed : List (Nat × Nat)}
    (once : tracking.Once) (accounted : tracking.Accounted owed)
    (other : event.milestone? = none) :
    (tracking.publish event).Once ∧ (tracking.publish event).Accounted owed := by
  have same := milestonesPublished_publish tracking event
  rw [other, Option.toList_none, append_nil] at same
  refine ⟨⟨once.numbered, ?_, ?_⟩, ?_⟩
  · rw [Tracking.MilestonesOnce, same]
    exact once.once
  · rw [same]
    exact once.known
  · intro key member
    rw [same] at member
    exact accounted key member

/-- The event of a milestone that was not sent, which the check owes then. -/
theorem Tracking.Once.publishMilestone {publishing : Nat} {before : List Nat} (once : tracking.Once)
    (crossed : publishing ∈ deposit.crossed confirmations) (unsent : publishing ∉ before)
    (fresh : tracking.detector.store.Fresh deposit)
    (accounted : tracking.Accounted
      (before.map fun milestone => (deposit.deposit.id, milestone))) :
    (tracking.publish ⟨.milestone publishing, deposit, confirmations⟩).Once ∧
      (tracking.publish ⟨.milestone publishing, deposit, confirmations⟩).Accounted
        ((before ++ [publishing]).map fun milestone => (deposit.deposit.id, milestone)) := by
  obtain ⟨isMilestone, above, _⟩ := mem_crossed.mp crossed
  have keys := milestonesPublished_publish tracking
    ⟨.milestone publishing, deposit, confirmations⟩
  have new : (deposit.deposit.id, publishing) ∉ tracking.milestonesPublished := by
    intro already
    rcases accounted _ already with settled | inCheck
    · have reached := fresh.le_of_settled once.numbered settled
      omega
    · obtain ⟨milestone, sent, same⟩ := mem_map.mp inCheck
      obtain rfl : milestone = publishing := congrArg Prod.snd same
      exact unsent sent
  refine ⟨⟨once.numbered, ?_, ?_⟩, ?_⟩
  · rw [Tracking.MilestonesOnce, keys]
    exact List.Nodup.append once.once (nodup_singleton _) (disjoint_singleton.mpr new)
  · intro key member
    rw [keys] at member
    rcases mem_append.mp member with old | own
    · exact once.known key old
    · rw [mem_singleton.mp own]
      exact isMilestone
  · intro key member
    rw [keys] at member
    rw [map_append]
    rcases mem_append.mp member with old | own
    · exact (accounted key old).imp_right (mem_append_left _)
    · exact .inr (mem_append_right _ own)

/-- What a tick leaves that stops. -/
theorem TrackerPoint.Leaves.stop (once : tracking.Once) (accounted : tracking.Accounted []) :
    Leaves tracking none :=
  ⟨once, fun _ goes => (by cases goes), accounted⟩

/-- A statement before the deposits are checked, or one that goes to the first of them. -/
theorem TrackerPoint.select_leaves {ending : Ending} {next : Option TrackerPoint}
    {after : Tracking} (once : tracking.Once) (accounted : tracking.Accounted point.owed)
    (current : point.Current tracking) (early : point.tick? = none)
    (performed : (point.statement tracking).perform tracking ending = (after, next)) :
    Leaves after next := by
  have nothing : tracking.Accounted [] := by
    have owed : point.owed = [] := by
      cases point <;> first | exact TrackerPoint.owed_nil rfl | cases early
    rwa [owed] at accounted
  cases point with
  | select =>
    cases ending <;> cases performed
    · simp only [TrackerPoint.statement]
      split
      · exact .stop once nothing
      · refine .of_next [] once ?_ nothing
        rintro later ⟨⟩
        refine ⟨.of_deposits rfl ?_ ?_ (by simp), TrackerPoint.owed_nil rfl⟩
        · intro deposit selected
          obtain ⟨row, chosen, rfl⟩ := mem_map.mp selected
          obtain ⟨stored, isSelected⟩ := mem_filter.mp chosen
          exact ⟨row, stored, rfl, rfl, isSelected⟩
        · rw [TrackerPoint.deposits, Store.pendingDeposits, map_map]
          have distinct : (tracking.detector.store.deposits.map Deposit.id).Nodup := by
            rw [once.numbered]
            exact nodup_range'
          exact (filter_sublist.map Deposit.id).nodup distinct
    · exact .stop once nothing
    · exact .stop once nothing
  | getProvider deposits =>
    cases ending <;> cases performed
    · refine .of_next [] once ?_ nothing
      rintro later ⟨⟩
      exact ⟨.of_deposits rfl current.fresh current.distinct (by simp), TrackerPoint.owed_nil rfl⟩
    · exact .stop once nothing
    · exact .stop once nothing
  | getBlockNumber deposits =>
    cases ending <;> cases performed
    · exact .next once nothing current.fresh current.distinct
    · exact .stop once nothing
    · exact .stop once nothing
  | receipt | publishReverted | updateReverted | milestone | publishConfirmed | updateConfirmed
  | updateConfirming => cases early

/-- A steady statement of a tick. -/
theorem TrackerPoint.perform_leaves {ending : Ending} {next : Option TrackerPoint}
    {after : Tracking} (once : tracking.Once) (accounted : tracking.Accounted point.owed)
    (current : point.Current tracking) (steady : point.steady ending = true)
    (performed : (point.statement tracking).perform tracking ending = (after, next)) :
    Leaves after next := by
  have restOf : ∀ {tick : Tick} {deposit : PendingDeposit}, point.deposits = deposit :: tick.rest →
      (∀ held ∈ tick.rest, tracking.detector.store.Fresh held) ∧
        (tick.rest.map fun held => held.deposit.id).Nodup := by
    intro tick deposit held
    have fresh := current.fresh
    have distinct := current.distinct
    rw [held] at fresh distinct
    exact ⟨fun other member => fresh other (mem_cons_of_mem _ member),
      (nodup_cons.mp distinct).2⟩
  have skip : point.sent.isEmpty = true → ∀ {tick : Tick} {deposit : PendingDeposit},
      point.deposits = deposit :: tick.rest → Leaves tracking tick.next := by
    intro nothing tick deposit held
    rw [TrackerPoint.owed_nil nothing] at accounted
    obtain ⟨fresh, distinct⟩ := restOf held
    exact .next once accounted fresh distinct
  cases point with
  | select | getProvider | getBlockNumber =>
    exact TrackerPoint.select_leaves once accounted current rfl performed
  | receipt tick deposit =>
    have nothing : tracking.Accounted [] := accounted
    cases ending <;> cases performed
    · simp only [TrackerPoint.statement]
      split
      · exact skip rfl rfl
      · rename_i hash _
        cases tracking.chain.receipt? hash with
        | none =>
          refine .of_next [] once ?_ nothing
          rintro later ⟨⟩
          exact ⟨.of_deposits rfl current.fresh current.distinct (by simp), rfl⟩
        | some receipt =>
          refine .of_next [] once ?_ (by rw [ite_self]; exact nothing)
          intro later goes
          exact Tick.publishMilestones_current current.fresh current.distinct
            (nil_append _).symm goes
    · exact skip rfl rfl
    · exact skip rfl rfl
  | publishReverted tick deposit =>
    obtain ⟨fresh, distinct⟩ := @restOf tick deposit rfl
    have quiet : (ConfirmationEvent.mk .reverted deposit 0).milestone? = none := rfl
    obtain ⟨published, nothing⟩ := once.publish accounted quiet
    cases ending <;> cases performed
    · refine .of_next [] published ?_ nothing
      rintro later ⟨⟩
      exact ⟨.of_deposits rfl current.fresh current.distinct (by simp), rfl⟩
    · exact skip rfl rfl
    · exact .next published nothing fresh distinct
  | updateReverted tick deposit =>
    have updated : Leaves (tracking.updateDeposit deposit.deposit.id fun row =>
        { row with status := .reverted, confirmations := 0 }) tick.next :=
      .update once accounted current.fresh current.distinct rfl rfl (fun _ => rfl)
        (fun _ owed => by cases owed) fun _ _ _ _ _ _ _ => .inr rfl
    cases ending <;> cases performed
    · exact updated
    · exact skip rfl rfl
    · exact updated
  | milestone tick deposit confirmations publishing left =>
    obtain ⟨before, split⟩ := current.ending _ _ _ _ _ rfl
    have owed : TrackerPoint.owed (.milestone tick deposit confirmations publishing left) =
        before.map fun milestone => (deposit.deposit.id, milestone) := by
      refine (Tick.publishMilestones_current current.fresh current.distinct split ?_).2
      rfl
    rw [owed] at accounted
    cases ending with
    | done =>
      cases performed
      have unsent : publishing ∉ before := by
        have nodup := crossed_nodup deposit confirmations
        rw [split] at nodup
        exact fun sent => disjoint_of_nodup_append nodup sent mem_cons_self
      have crossed : publishing ∈ deposit.crossed confirmations := by
        rw [split]
        exact mem_append_right _ mem_cons_self
      obtain ⟨published, owes⟩ := once.publishMilestone crossed unsent
        (current.fresh deposit mem_cons_self) accounted
      have rest : deposit.crossed confirmations = (before ++ [publishing]) ++ left := by
        rw [split, append_assoc]
        rfl
      refine .of_next _ published
        (fun later goes => Tick.publishMilestones_current current.fresh current.distinct rest goes)
        ?_
      rw [if_pos]
      · exact owes
      · exact Tick.publishMilestones_isSome crossed
    | failed =>
      cases performed
      exact skip (by simpa [TrackerPoint.steady] using steady) rfl
    | lost => simp [TrackerPoint.steady] at steady
  | publishConfirmed tick deposit confirmations =>
    obtain ⟨fresh, distinct⟩ := @restOf tick deposit rfl
    have quiet : (ConfirmationEvent.mk .confirmed deposit confirmations).milestone? = none := rfl
    obtain ⟨published, owes⟩ := once.publish accounted quiet
    cases ending with
    | done =>
      cases performed
      refine .of_next _ published ?_ owes
      rintro later ⟨⟩
      exact ⟨.of_deposits rfl current.fresh current.distinct (by simp), rfl⟩
    | failed =>
      cases performed
      exact skip (by simpa [TrackerPoint.steady] using steady) rfl
    | lost =>
      cases performed
      have nothing := TrackerPoint.owed_nil (by simpa [TrackerPoint.steady] using steady)
      rw [nothing] at owes
      exact .next published owes fresh distinct
  | updateConfirmed tick deposit confirmations =>
    have updated : Leaves (tracking.confirm deposit.deposit.id confirmations) tick.next :=
      .update once accounted current.fresh current.distinct rfl rfl (fun _ => rfl)
        (fun key owed => (TrackerPoint.owed_own rfl owed).1) fun _ _ _ _ _ _ _ => .inr rfl
    cases ending with
    | done =>
      cases performed
      exact updated
    | failed =>
      cases performed
      exact skip (by simpa [TrackerPoint.steady] using steady) rfl
    | lost =>
      cases performed
      exact updated
  | updateConfirming tick deposit confirmations =>
    cases ending with
    | failed =>
      cases performed
      exact skip (by simpa [TrackerPoint.steady] using steady) rfl
    | done | lost =>
      cases performed
      have rises : deposit.rises confirmations = true := by
        simpa [TrackerPoint.steady] using steady
      refine .update once accounted current.fresh current.distinct rfl rfl (fun _ => rfl)
        (fun key owed => (TrackerPoint.owed_own rfl owed).1) ?_
      intro row _ _ _ milestone isMilestone reached
      refine .inl ?_
      rcases reached with low | owed
      · have kept := all_eq_true.mp rises milestone isMilestone
        simp only [Bool.not_eq_true', Bool.and_eq_false_imp, decide_eq_true_eq,
          decide_eq_false_iff_not] at kept
        exact not_lt.mp fun below => kept below low
      · exact (mem_crossed.mp (TrackerPoint.owed_own rfl owed).2).2.2

/-! ## The other processes -/

/-- A change that keeps the counts of the rows and publishes nothing. -/
structure Tracking.SameCounts (tracking after : Tracking) : Prop where
  store : tracking.detector.store.KeepsCounts after.detector.store
  published : after.published = tracking.published

theorem Tracking.SameCounts.keys {after : Tracking} (same : tracking.SameCounts after) :
    after.milestonesPublished = tracking.milestonesPublished := by
  rw [Tracking.milestonesPublished, same.published]
  rfl

theorem Tracking.Once.keep {after : Tracking} (once : tracking.Once)
    (same : tracking.SameCounts after) : after.Once where
  numbered := same.store.numbered once.numbered
  once := by
    rw [Tracking.MilestonesOnce, same.keys]
    exact once.once
  known := by
    rw [same.keys]
    exact once.known

theorem TrackerPoint.Current.keep {after : Tracking} (current : point.Current tracking)
    (same : tracking.SameCounts after) : point.Current after :=
  ⟨fun deposit held => (current.fresh deposit held).keep same.store, current.distinct,
    current.ending⟩

theorem DetectionProcess.statement_sameCounts (process : DetectionProcess) (tracking : Tracking)
    (answer : RealtimeAnswer) : tracking.SameCounts
      { tracking with detector := (process.statement tracking.detector answer).after } where
  store := by
    cases process with
    | realtime point =>
      rcases point.statement_store tracking.detector answer with same | ⟨message, _, published⟩
      · refine .sameRows ?_
        exact congrArg Store.deposits same
      · exact .sameRows ((congrArg Store.deposits published).trans rfl)
    | handler point =>
      cases point with
      | findAddress | findToken | findChain | ack => exact .sameRows rfl
      | insert position message address tokenId confirmationsRequired =>
        exact Store.KeepsCounts.insert rfl
  published := rfl

/-- What begins at the detector. -/
theorem Detector.start_sameCounts {begun : DetectionStart} {detector : Detector}
    {process : Option DetectionProcess}
    (started : tracking.detector.start begun = some (detector, process)) :
    tracking.SameCounts { tracking with detector := detector } := by
  cases begun with
  | block => cases started; exact ⟨.refl _, rfl⟩
  | deliver =>
    obtain ⟨_, _, same⟩ := Option.map_eq_some_iff.mp started
    cases same
    exact ⟨.refl _, rfl⟩
  | loadMonitoredAddresses | registerAddress | registerToken =>
    cases started
    exact ⟨.sameRows rfl, rfl⟩
  | poll message =>
    rw [Detector.start] at started
    split at started
    · cases started
      exact ⟨.sameRows rfl, rfl⟩
    · cases started

/-- Everything that begins but a tick. -/
theorem Tracking.start_sameCounts {begun : TrackingStart} {after : Tracking}
    {process : Option TrackingProcess} (started : tracking.start begun = some (after, process))
    (other : begun ≠ .tick) :
    tracking.SameCounts after ∧ ∀ point, process ≠ some (.tracker point) := by
  cases begun with
  | tick => exact absurd rfl other
  | mine | reorg => cases started; exact ⟨⟨.refl _, rfl⟩, by simp⟩
  | configure => cases started; exact ⟨⟨.sameRows rfl, rfl⟩, by simp⟩
  | detect begun =>
    have quiet : ∀ message, begun ≠ .poll message := by
      rintro message rfl
      cases started
    rw [Tracking.start_detect quiet] at started
    obtain ⟨⟨detector, later⟩, launched, same⟩ := Option.map_eq_some_iff.mp started
    cases same
    exact ⟨Detector.start_sameCounts launched, by simp⟩

/-! ## Runs -/

/-- A process owes the event of a milestone. -/
def TrackingProcess.Owes (key : Nat × Nat) (process : TrackingProcess) : Prop :=
  ∃ point, process = .tracker point ∧ key ∈ point.owed

/-- One tick runs at a time, and knows its deposits. -/
def milestoneOutline : ProofOutline Tracking TrackingProcess where
  Global := Tracking.Once
  Local tracking process := ∀ point, process = .tracker point → point.Current tracking
  Apart first second := ¬(first.tracker?.isSome ∧ second.tracker?.isSome)
  apart_symm := fun apart both => apart both.symm

/-- Each milestone that was published is settled or owed by a process. -/
def TrackingState.Accounted (state : TrackingState) : Prop :=
  ∀ key ∈ state.shared.milestonesPublished,
    state.shared.detector.store.Settled key ∨ state.Runs (TrackingProcess.Owes key)

/-- What the other processes do keeps what is accounted for. -/
theorem TrackingState.accounted_of_runs {state later : TrackingState}
    (accounted : TrackingState.Accounted state) (same : state.shared.SameCounts later.shared)
    (runs : ∀ key, state.Runs (TrackingProcess.Owes key) → later.Runs (TrackingProcess.Owes key)) :
    TrackingState.Accounted later := by
  intro key member
  rw [same.keys] at member
  exact (accounted key member).imp (fun settled => settled.keep same.store) (runs key)

/-- The tick that acts is the only one, so it owes what is not settled. -/
theorem TrackingState.accounted_point {state : TrackingState} {pid : Nat}
    (accounted : TrackingState.Accounted state) (holds : milestoneOutline.Holds state)
    (found : state.process? pid = some (.tracker point)) : state.shared.Accounted point.owed := by
  intro key member
  refine (accounted key member).imp_right ?_
  rintro ⟨other, process, running, owing, rfl, owed⟩
  by_cases same : other = pid
  · subst same
    cases found.symm.trans running
    exact owed
  · exact absurd ⟨rfl, rfl⟩ (holds.apart other pid _ _ same running found)

/-- A steady statement of any process. -/
theorem TrackingState.advance_keeps {state : TrackingState} {pid : Nat}
    {process : TrackingProcess} {input : Input TrackingAnswer} {after : Tracking}
    {next : Option TrackingProcess} (holds : milestoneOutline.Holds state)
    (accounted : TrackingState.Accounted state) (found : state.process? pid = some process)
    (steady : process.tracker?.all (fun point => point.steady input.ending) = true)
    (performed : (process.statement state.shared input.answer).perform state.shared input.ending =
      (after, next)) :
    milestoneOutline.Keeps state pid after next ∧
      TrackingState.Accounted (state.update after pid next) := by
  have apart : (∀ later, next = some later → later.tracker?.isSome → process.tracker?.isSome) →
      ∀ point other right, next = some point → other ≠ pid → state.process? other = some right →
        milestoneOutline.Apart point right := by
    intro stays point other right goes different running ⟨first, second⟩
    exact holds.apart other pid right process different running found
      ⟨second, stays point goes first⟩
  cases process with
  | detection process =>
    obtain ⟨detector, within, rfl⟩ := Statement.perform_within performed
    obtain ⟨later, moved, rfl⟩ := Statement.perform_map within
    have same : state.shared.SameCounts { state.shared with detector := detector } :=
      Statement.perform_shared
        (fun detector => state.shared.SameCounts { state.shared with detector := detector })
        moved ⟨.refl _, rfl⟩ (process.statement_sameCounts state.shared _)
    refine ⟨⟨holds.global.keep same, ?_, ?_, apart ?_⟩, ?_⟩
    · rintro _ goes point rfl
      obtain ⟨_, _, impossible⟩ := Option.map_eq_some_iff.mp goes
      cases impossible
    · exact fun other right _ running point isPoint =>
        (holds.locals other right running point isPoint).keep same
    · rintro _ goes isTick
      obtain ⟨_, _, rfl⟩ := Option.map_eq_some_iff.mp goes
      cases isTick
    · refine TrackingState.accounted_of_runs accounted same fun key runs => ?_
      refine runs.update_of found ?_
      rintro ⟨point, impossible, _⟩
      cases impossible
  | tracker point =>
    obtain ⟨later, moved, rfl⟩ := Statement.perform_map performed
    have leaves := TrackerPoint.perform_leaves holds.global
      (TrackingState.accounted_point accounted holds found)
      (holds.locals pid _ found point rfl) steady moved
    refine ⟨⟨leaves.once, ?_, ?_, apart fun _ _ _ => rfl⟩, ?_⟩
    · rintro _ goes next rfl
      obtain ⟨_, rfl, same⟩ := Option.map_eq_some_iff.mp goes
      cases same
      exact leaves.current _ rfl
    · rintro other process different running next rfl
      exact absurd ⟨rfl, rfl⟩ (holds.apart other pid _ _ different running found)
    · intro key member
      refine (leaves.accounted key member).imp_right fun owed => ?_
      cases later with
      | none => cases owed
      | some next => exact PoolState.runs_update found ⟨next, rfl, owed⟩ after

/-- In every steady run, each milestone of each deposit is published at most once. -/
theorem milestones_published_once {state : TrackingState}
    (reached : milestoneTracking.system.Reachable TrackingState.Steady state) :
    state.shared.MilestonesOnce := by
  have joint : milestoneOutline.HoldsWith TrackingState.Accounted state := by
    refine ProofOutline.reachable_with reached ?_ ?_ ?_ ?_
    · rintro tracking ⟨⟨⟨_, _, _, deposits⟩, _⟩, published⟩
      have none : tracking.milestonesPublished = [] := by
        rw [Tracking.milestonesPublished, published]
        rfl
      refine ⟨⟨?_, ?_, ?_⟩, ?_⟩
      · simp [Store.Numbered, deposits]
      · rw [Tracking.MilestonesOnce, none]
        exact nodup_nil
      · intro key member
        rw [none] at member
        cases member
      · intro key member
        have inNone : key ∈ tracking.milestonesPublished := member
        rw [none] at inNone
        cases inNone
    · intro before begun shared process holds accounted steady started
      by_cases tick : begun = .tick
      · subst tick
        cases started
        refine ⟨holds.global, ?_, fun pid point _ => holds.locals pid point, ?_⟩
        · rintro _ ⟨⟩ point ⟨⟩
          exact ⟨fun _ held => (by cases held), nodup_nil, fun _ _ _ _ _ same => by cases same⟩
        · rintro _ other process ⟨⟩ _ running ⟨_, isTick⟩
          obtain ⟨point, isPoint⟩ := Option.isSome_iff_exists.mp isTick
          cases process with
          | detection => cases isPoint
          | tracker point => exact absurd (TrackingState.ticks_apply steady running) Bool.false_ne_true
      · obtain ⟨same, quiet⟩ := Tracking.start_sameCounts started tick
        refine ⟨holds.global.keep same, ?_, ?_, ?_⟩
        · rintro _ rfl point rfl
          exact absurd rfl (quiet point)
        · exact fun pid process _ running point isPoint =>
            (holds.locals pid process running point isPoint).keep same
        · rintro process other right rfl _ _ ⟨isTick, _⟩
          cases process with
          | detection => cases isTick
          | tracker point => exact quiet point rfl
    · intro before pid process input shared next holds accounted steady found moved
      have allowed : process.tracker?.all (fun point => point.steady input.ending) = true := by
        simpa [TrackingState.Steady, TrackingState.steady, found] using steady
      exact (TrackingState.advance_keeps holds accounted found allowed (Option.some.inj moved)).1
    · intro before action next holds accounted steady transition
      cases action with
      | launch begun =>
        obtain ⟨shared, process, started, rfl⟩ := ProcessPool.step_launch transition
        have same : before.shared.SameCounts shared := by
          by_cases tick : begun = .tick
          · subst tick
            cases started
            exact ⟨.refl _, rfl⟩
          · exact (Tracking.start_sameCounts started tick).1
        exact TrackingState.accounted_of_runs accounted same fun key runs => runs.spawn shared process
      | advance pid input =>
        obtain ⟨process, shared, later, found, moved, rfl⟩ := ProcessPool.step_advance transition
        have allowed : process.tracker?.all (fun point => point.steady input.ending) = true := by
          simpa [TrackingState.Steady, TrackingState.steady, found] using steady
        exact (TrackingState.advance_keeps holds accounted found allowed
          (Option.some.inj moved)).2
      | crash pid =>
        obtain ⟨process, found, rfl⟩ := ProcessPool.step_crash transition
        have stops : process.tracker?.all (fun point => point.sent.isEmpty) = true := by
          simpa [TrackingState.Steady, TrackingState.steady, found] using steady
        refine TrackingState.accounted_of_runs accounted ⟨.refl _, rfl⟩ fun key runs => ?_
        refine runs.update_of found ?_
        rintro ⟨point, rfl, owed⟩
        rw [TrackerPoint.owed_nil (by simpa [TrackingProcess.tracker?] using stops)] at owed
        cases owed
  exact joint.holds.global.once

/-! ## A deposit with two confirmations -/

theorem sampleTracking_quiet :
    milestoneTracking.system.Initial ⟨sampleTracking true, []⟩ :=
  ⟨⟨⟨⟨rfl, rfl, rfl, rfl⟩, rfl⟩, rfl⟩, rfl⟩

/-- Block 1 is scanned, its deposit stored, and checked at one confirmation. -/
def firstConfirmation : List TrackingAction :=
  [.launch (.detect (.block 1))] ++ List.replicate 7 (tracks 0) ++
    [.launch (.detect (.deliver 0))] ++ List.replicate 5 (tracks 1) ++
    [.launch (.mine []), .launch .tick] ++ List.replicate 6 (tracks 3)

/-- The deposit is confirmed by the next block. -/
theorem milestones_published_once_sample :
    ∃ state : TrackingState, state.shared.milestonesPublished = [(1, 1)] ∧
      state.shared.published.length = 2 ∧ state.shared.MilestonesOnce := by
  obtain ⟨state, reached, keys, events⟩ : ∃ state,
      milestoneTracking.system.Reachable TrackingState.Steady state ∧
        state.shared.milestonesPublished = [(1, 1)] ∧
          state.shared.published.length = 2 :=
    exists_reachable sampleTracking_quiet
      (firstConfirmation ++ [.launch (.mine []), .launch .tick] ++ List.replicate 6 (tracks 5)) (by decide +kernel)
  exact ⟨state, keys, events, milestones_published_once reached⟩

/-- A reorganisation moves the transaction to block 2, and a tick sees that; at the next block its
first milestone is published again. -/
theorem milestone_published_twice :
    ¬∀ state : TrackingState, milestoneTracking.system.Reachable Unrestricted state →
      state.shared.MilestonesOnce := by
  intro always
  obtain ⟨state, reached, passed⟩ : ∃ state,
      milestoneTracking.system.Reachable Unrestricted state ∧
        ¬state.shared.MilestonesOnce :=
    exists_reachable sampleTracking_quiet
      (firstConfirmation ++
        [.launch (.reorg [[], [], [⟨⟨1, 9, some 7, 3⟩, true, []⟩]]), .launch .tick] ++
        List.replicate 5 (tracks 5) ++ [.launch (.mine []), .launch .tick] ++
        List.replicate 5 (tracks 7)) (by decide +kernel)
  exact passed (always state reached)

end CryptoVaultHub.Indexer
