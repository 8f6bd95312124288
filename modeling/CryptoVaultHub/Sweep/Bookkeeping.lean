import CryptoVaultHub.Sweep.Reconciler

/-!
# What rows and points record

`Shared.Consistent` relates a deposit to its inflow, a transaction to the deposits that it was sent
for, and a `sweep_pending` deposit to its transaction. `Process.Knows` says what a point of either
service relies on. Both hold along every run, whatever fails; the properties of the services are
proved over them.
-/

namespace CryptoVaultHub.Sweep

variable {shared after : Shared} {hash : TxHash} {id : Nat} {row : Deposit}

/-! ## Growth -/

/-- Rows, inflows and transactions stay; an inflow that left its forwarder stays where it is, and a
receipt does not change. -/
structure Shared.Extends (shared after : Shared) : Prop where
  deposits : ∀ {id : Nat} {row : Deposit}, shared.deposits[id]? = some row →
    ∃ later : Deposit, after.deposits[id]? = some later ∧ later.SameRecord row
  inflows : ∀ {index : Nat} {inflow : Inflow}, shared.inflows[index]? = some inflow →
    ∃ place, after.inflows[index]? = some { inflow with place := place } ∧
      (inflow.place ≠ .held → place = inflow.place)
  sent : ∀ {hash : TxHash} {tx : SweepTx}, shared.tx? hash = some tx →
    ∃ receipt, after.tx? hash = some { tx with receipt := receipt } ∧
      ∀ ok, tx.receipt = some ok → receipt = some ok
  deployed : ∀ {forwarder : Address}, forwarder ∈ shared.deployed → forwarder ∈ after.deployed
  gasTank : ∀ {id : Nat} {row : GasTankRow}, shared.gasTank[id]? = some row →
    ∃ later : GasTankRow, after.gasTank[id]? = some later ∧ later.txHash = row.txHash

theorem Deposit.SameRecord.refl (row : Deposit) : row.SameRecord row := ⟨rfl, rfl, rfl, rfl⟩

theorem Deposit.SameRecord.trans {other third : Deposit} (first : row.SameRecord other)
    (second : other.SameRecord third) : row.SameRecord third :=
  ⟨first.1.trans second.1, first.2.1.trans second.2.1, first.2.2.1.trans second.2.2.1,
    first.2.2.2.trans second.2.2.2⟩

/-- Only locks, drawn values and the log of mined transactions are free to change. -/
theorem Shared.Extends.frame (deposits : after.deposits = shared.deposits)
    (inflows : after.inflows = shared.inflows) (sent : after.sent = shared.sent)
    (deployed : after.deployed = shared.deployed) (gasTank : after.gasTank = shared.gasTank) :
    shared.Extends after where
  deposits found := ⟨_, deposits ▸ found, .refl _⟩
  inflows found := ⟨_, inflows ▸ found, fun _ => rfl⟩
  sent found := ⟨_, by rw [tx?, sent]; exact found, fun _ mined => mined⟩
  deployed member := deployed ▸ member
  gasTank found := ⟨_, gasTank ▸ found, rfl⟩

theorem Shared.Extends.refl (shared : Shared) : shared.Extends shared :=
  .frame rfl rfl rfl rfl rfl

theorem Shared.Extends.receipt? {ok : Bool} (extended : shared.Extends after)
    (mined : shared.receipt? hash = some ok) : after.receipt? hash = some ok := by
  obtain ⟨tx, found, status⟩ := Option.bind_eq_some_iff.mp mined
  obtain ⟨receipt, same, kept⟩ := extended.sent found
  rw [Shared.receipt?, same]
  exact kept ok status

/-- An inflow that has left does not come back. -/
theorem Shared.Extends.holds {index : Nat} (extended : shared.Extends after)
    (known : index < shared.inflows.length) (held : after.holds index = true) :
    shared.holds index = true := by
  have found : shared.inflows[index]? = some shared.inflows[index] :=
    List.getElem?_eq_getElem known
  obtain ⟨place, later, kept⟩ := extended.inflows found
  rw [Shared.holds, later] at held
  rw [Shared.holds, found]
  by_cases here : shared.inflows[index].place = .held
  · simpa using here
  · have gone := kept here
    simp only [Option.any_some, decide_eq_true_eq] at held
    exact absurd (gone.symm.trans held) here

/-- An inflow that a transaction has moved stays with it. -/
theorem Shared.Extends.movedBy {index : Nat} (extended : shared.Extends after)
    (moved : shared.movedBy index hash = true) : after.movedBy index hash = true := by
  obtain ⟨inflow, found, place⟩ := (Option.any_eq_true _ _).mp moved
  obtain ⟨later, there, kept⟩ := extended.inflows found
  have left : inflow.place = .moved hash := of_decide_eq_true place
  rw [Shared.movedBy, there]
  simp [kept (by simp [left]), left]

/-! ## Changes of rows -/

/-- A row of a list with one more row is an old one or the new one. -/
theorem getElem?_snoc {Row : Type} {rows : List Row} {last found : Row} {position : Nat}
    (there : (rows ++ [last])[position]? = some found) :
    rows[position]? = some found ∨ (position = rows.length ∧ found = last) := by
  by_cases before : position < rows.length
  · rw [List.getElem?_append_left before] at there
    exact .inl there
  · rw [List.getElem?_append_right (Nat.le_of_not_lt before), List.getElem?_singleton] at there
    split at there
    · rename_i first
      exact .inr ⟨by omega, (Option.some.inj there).symm⟩
    · cases there

theorem getElem?_updateDeposits (chosen : Nat → Deposit → Bool) (change : Deposit → Deposit) :
    (shared.updateDeposits chosen change).deposits[id]? =
      (shared.deposits[id]?).map fun row => if chosen id row then change row else row := by
  simp [Shared.updateDeposits, List.getElem?_mapIdx]

theorem Shared.extends_updateDeposits {chosen : Nat → Deposit → Bool} {change : Deposit → Deposit}
    (keeps : ∀ row, (change row).SameRecord row) :
    shared.Extends (shared.updateDeposits chosen change) where
  deposits := by
    intro id row found
    refine ⟨_, by rw [getElem?_updateDeposits, found, Option.map_some], ?_⟩
    by_cases taken : chosen id row = true
    · rw [if_pos taken]
      exact keeps row
    · rw [if_neg taken]
      exact .refl row
  inflows found := ⟨_, found, fun _ => rfl⟩
  sent found := ⟨_, found, fun _ mined => mined⟩
  deployed member := member
  gasTank found := ⟨_, found, rfl⟩

theorem getElem?_closeGasTank {closed : Nat} {status : GasTankStatus} :
    (shared.closeGasTank closed status).gasTank[id]? =
      (shared.gasTank[id]?).map fun row =>
        if closed = id then { row with status := status } else row := by
  rw [Shared.closeGasTank, List.getElem?_modify]
  by_cases same : closed = id
  · simp [same]
  · simp [same]

theorem Shared.extends_closeGasTank {closed : Nat} {status : GasTankStatus} :
    shared.Extends (shared.closeGasTank closed status) where
  deposits found := ⟨_, found, .refl _⟩
  inflows found := ⟨_, found, fun _ => rfl⟩
  sent found := ⟨_, found, fun _ mined => mined⟩
  deployed member := member
  gasTank := by
    intro id row found
    refine ⟨_, by rw [getElem?_closeGasTank, found, Option.map_some], ?_⟩
    split <;> rfl

theorem mem_select {chosen : Deposit → Bool} {listed : Listed}
    (member : listed ∈ shared.select chosen) :
    shared.deposits[listed.id]? = some listed.deposit ∧ chosen listed.deposit = true := by
  obtain ⟨⟨row, id⟩, found, rfl⟩ := List.mem_map.mp member
  obtain ⟨inside, taken⟩ := List.mem_filter.mp found
  exact ⟨(List.mem_zipIdx_iff_getElem?).mp inside, taken⟩

/-! ## The assertions -/

/-- A deposit that was read is still there. -/
def Shared.Lists (shared : Shared) (listed : Listed) : Prop :=
  ∃ row, shared.deposits[listed.id]? = some row ∧ row.SameRecord listed.deposit

theorem Shared.Lists.extend {listed : Listed} (lists : shared.Lists listed)
    (extended : shared.Extends after) : after.Lists listed := by
  obtain ⟨row, found, same⟩ := lists
  obtain ⟨later, there, kept⟩ := extended.deposits found
  exact ⟨later, there, kept.trans same⟩

/-- The deposits of an entry are on the forwarder, and in its token. -/
def Shared.Covers (shared : Shared) (forwarder : Address) (entry : TokenEntry) : Prop :=
  ∀ id ∈ entry.depositIds, ∃ row, shared.deposits[id]? = some row ∧
    row.forwarderAddress = forwarder ∧ row.tokenId = entry.token.id

theorem Shared.Covers.extend {forwarder : Address} {entry : TokenEntry}
    (covers : shared.Covers forwarder entry) (extended : shared.Extends after) :
    after.Covers forwarder entry := by
  intro id member
  obtain ⟨row, found, sameForwarder, sameToken⟩ := covers id member
  obtain ⟨later, there, kept⟩ := extended.deposits found
  exact ⟨later, there, kept.2.2.1.trans sameForwarder, kept.2.2.2.trans sameToken⟩

/-- A transaction was sent by a run for some deposits. -/
def Shared.Sent (shared : Shared) (hash : TxHash) (lockValue : Nat) (depositIds : List Nat) :
    Prop :=
  ∃ tx, shared.tx? hash = some tx ∧ tx.lockValue = lockValue ∧ tx.depositIds = depositIds

theorem Shared.Sent.extend {lockValue : Nat} {depositIds : List Nat}
    (sent : shared.Sent hash lockValue depositIds) (extended : shared.Extends after) :
    after.Sent hash lockValue depositIds := by
  obtain ⟨tx, found, value, ids⟩ := sent
  obtain ⟨receipt, there, _⟩ := extended.sent found
  exact ⟨_, there, value, ids⟩

structure Visit.Knows (visit : Visit) (shared : Shared) : Prop where
  deposits : ∀ listed ∈ visit.deposits, shared.Lists listed

/-- A forwarder whose code was found. -/
structure Visit.Found (visit : Visit) (shared : Shared) (entries : List TokenEntry) : Prop
    extends visit.Knows shared where
  deployed : visit.forwarder ∈ shared.deployed
  covers : ∀ entry ∈ entries, shared.Covers visit.forwarder entry

theorem Visit.Knows.extend {visit : Visit} (knows : visit.Knows shared)
    (extended : shared.Extends after) : visit.Knows after :=
  ⟨fun listed member => (knows.deposits listed member).extend extended⟩

theorem Visit.Found.extend {visit : Visit} {entries : List TokenEntry}
    (found : visit.Found shared entries) (extended : shared.Extends after) :
    visit.Found after entries :=
  ⟨found.toKnows.extend extended, extended.deployed found.deployed,
    fun entry member => (found.covers entry member).extend extended⟩

/-- What a point of `executeSweep` relies on. -/
def Sweeper.Knows (shared : Shared) (sweeper : Sweeper) : Prop :=
  match sweeper.point with
  | .setLock | .findDeposits | .getLock | .delLock => True
  | .findChain deposits | .findGasTank deposits | .findTokens deposits =>
    ∀ listed ∈ deposits, shared.Lists listed
  | .findAddress visit | .getCode visit => visit.Knows shared
  | .readBalance visit _ _ found | .resolveParentWallet visit found => visit.Found shared found
  | .submit visit flush rest | .markFailed visit flush rest =>
    visit.Found shared (flush ++ rest.flatten)
  | .logSubmit visit flush rest hash | .markPending visit flush rest hash
  | .publish visit flush rest hash =>
    visit.Found shared (flush ++ rest.flatten) ∧
      shared.Sent hash sweeper.lockValue flush.depositIds

/-- A row of a batch is there, with its transaction. -/
def Shared.Batches (shared : Shared) (rows : List BatchRow) : Prop :=
  ∀ row ∈ rows, ∃ found, shared.gasTank[row.id]? = some found ∧ found.txHash = row.txHash

theorem Shared.Batches.extend {rows : List BatchRow} (batches : shared.Batches rows)
    (extended : shared.Extends after) : after.Batches rows := by
  intro row member
  obtain ⟨found, there, same⟩ := batches row member
  obtain ⟨later, still, kept⟩ := extended.gasTank there
  exact ⟨later, still, kept.trans same⟩

/-- Deposits that the transaction was sent for. -/
def Shared.SentFor (shared : Shared) (hash : TxHash) (ids : List Nat) : Prop :=
  ∀ id ∈ ids, ∃ tx, shared.tx? hash = some tx ∧ id ∈ tx.depositIds

theorem Shared.SentFor.extend {ids : List Nat} (sentFor : shared.SentFor hash ids)
    (extended : shared.Extends after) : after.SentFor hash ids := by
  intro id member
  obtain ⟨tx, found, inside⟩ := sentFor id member
  obtain ⟨receipt, there, _⟩ := extended.sent found
  exact ⟨_, there, inside⟩

/-- A mined transaction whose deposits are being cascaded. -/
structure Cascade.Knows (cascade : Cascade) (shared : Shared) : Prop where
  receipt : shared.receipt? cascade.hash = some true
  pending : shared.SentFor cascade.hash (cascade.pending.map Listed.id)
  safe : ∀ id ∈ cascade.safe, id ∈ cascade.pending.map Listed.id

theorem Cascade.Knows.extend {cascade : Cascade} (knows : cascade.Knows shared)
    (extended : shared.Extends after) : cascade.Knows after :=
  ⟨extended.receipt? knows.receipt, knows.pending.extend extended, knows.safe⟩

/-- What a point of the reconciler relies on. -/
def ReconcilePoint.Knows (shared : Shared) : ReconcilePoint → Prop
  | .findRows => True
  | .getReceipt row rest | .timeOut row rest => shared.Batches (row :: rest)
  | .close row ok rest => shared.Batches (row :: rest) ∧ shared.receipt? row.txHash = some ok
  | .cascadeFailed hash rest => shared.Batches rest ∧ shared.receipt? hash = some false
  | .findPending hash rest => shared.Batches rest ∧ shared.receipt? hash = some true
  | .findTokens hash pending rest =>
    shared.Batches rest ∧ Cascade.Knows ⟨hash, pending, [], [], []⟩ shared
  | .readBalance cascade _ _ rest | .cascadeSwept cascade rest | .adoptOrphans cascade rest =>
    shared.Batches rest ∧ cascade.Knows shared

def Process.Knows (shared : Shared) : Process → Prop
  | .sweep sweeper => sweeper.Knows shared
  | .reconcile point => point.Knows shared

theorem Sweeper.Knows.extend {sweeper : Sweeper} (knows : sweeper.Knows shared)
    (extended : shared.Extends after) : sweeper.Knows after := by
  obtain ⟨clientId, lockValue, point⟩ := sweeper
  cases point with
  | setLock | findDeposits | getLock | delLock => trivial
  | findChain deposits | findGasTank deposits | findTokens deposits =>
    exact fun listed member => (knows listed member).extend extended
  | findAddress visit | getCode visit => exact Visit.Knows.extend knows extended
  | readBalance visit token rest found | resolveParentWallet visit found =>
    exact Visit.Found.extend knows extended
  | submit visit flush rest | markFailed visit flush rest =>
    exact Visit.Found.extend knows extended
  | logSubmit visit flush rest hash | markPending visit flush rest hash
  | publish visit flush rest hash =>
    exact ⟨knows.1.extend extended, knows.2.extend extended⟩

theorem ReconcilePoint.Knows.extend {point : ReconcilePoint} (knows : point.Knows shared)
    (extended : shared.Extends after) : point.Knows after := by
  cases point with
  | findRows => trivial
  | getReceipt row rest | timeOut row rest => exact Shared.Batches.extend knows extended
  | close row ok rest => exact ⟨knows.1.extend extended, extended.receipt? knows.2⟩
  | cascadeFailed hash rest | findPending hash rest =>
    exact ⟨knows.1.extend extended, extended.receipt? knows.2⟩
  | findTokens hash pending rest => exact ⟨knows.1.extend extended, knows.2.extend extended⟩
  | readBalance cascade token others rest | cascadeSwept cascade rest
  | adoptOrphans cascade rest =>
    exact ⟨knows.1.extend extended, knows.2.extend extended⟩

theorem Process.Knows.extend {process : Process} (knows : process.Knows shared)
    (extended : shared.Extends after) : process.Knows after := by
  cases process with
  | sweep sweeper => exact Sweeper.Knows.extend knows extended
  | reconcile point => exact ReconcilePoint.Knows.extend knows extended

/-! ## The invariant -/

/-- How rows, inflows and transactions relate. -/
structure Shared.Consistent (shared : Shared) : Prop where
  inflow : ∀ {id : Nat} {row : Deposit}, shared.deposits[id]? = some row →
    ∃ inflow : Inflow, shared.inflows[row.inflow]? = some inflow ∧
      inflow.forwarderAddress = row.forwarderAddress ∧ inflow.tokenId = row.tokenId
  sent : ∀ {hash : TxHash} {tx : SweepTx}, shared.tx? hash = some tx →
    tx.hash = hash ∧ tx.forwarderAddress ∈ shared.deployed ∧
      ∀ id ∈ tx.depositIds, ∃ row : Deposit, shared.deposits[id]? = some row ∧
        row.forwarderAddress = tx.forwarderAddress ∧ row.tokenId ∈ tx.tokenIds ∧
          (tx.receipt = some true → shared.holds row.inflow = false)
  pending : ∀ {id : Nat} {row : Deposit}, shared.deposits[id]? = some row →
    row.status = .sweepPending →
      ∃ hash, row.sweepTxHash = some hash ∧ shared.SentFor hash [id]

theorem Shared.Consistent.known (consistent : shared.Consistent)
    (found : shared.deposits[id]? = some row) : row.inflow < shared.inflows.length := by
  obtain ⟨inflow, there, _⟩ := consistent.inflow found
  exact (List.getElem?_eq_some_iff.mp there).1

/-- The inflow of a deposit of a successful transaction has left. -/
theorem Shared.Consistent.moved (consistent : shared.Consistent)
    (receipt : shared.receipt? hash = some true) (sentFor : shared.SentFor hash [id])
    (found : shared.deposits[id]? = some row) : shared.holds row.inflow = false := by
  obtain ⟨tx, sent, inside⟩ := sentFor id (List.mem_singleton_self id)
  rw [Shared.receipt?, sent] at receipt
  obtain ⟨other, there, _, _, left⟩ := (consistent.sent sent).2.2 id inside
  cases found.symm.trans there
  exact left receipt

/-- A change of rows that leaves their records and makes no other row `sweep_pending`. -/
theorem Shared.Consistent.updateDeposits {chosen : Nat → Deposit → Bool}
    {change : Deposit → Deposit} (consistent : shared.Consistent)
    (keeps : ∀ row, (change row).SameRecord row)
    (pending : ∀ id row, shared.deposits[id]? = some row → chosen id row = true →
      (change row).status = .sweepPending →
        ∃ hash, (change row).sweepTxHash = some hash ∧ shared.SentFor hash [id]) :
    (shared.updateDeposits chosen change).Consistent where
  inflow := by
    intro id later found
    rw [getElem?_updateDeposits] at found
    obtain ⟨row, before, rfl⟩ := Option.map_eq_some_iff.mp found
    obtain ⟨inflow, there, forwarder, token⟩ := consistent.inflow before
    have same : (if chosen id row then change row else row).SameRecord row := by
      split
      · exact keeps row
      · exact .refl row
    exact ⟨inflow, same.2.1 ▸ there, forwarder.trans same.2.2.1.symm,
      token.trans same.2.2.2.symm⟩
  sent := by
    intro hash tx found
    obtain ⟨own, deployed, rows⟩ := consistent.sent found
    refine ⟨own, deployed, ?_⟩
    intro id member
    obtain ⟨row, there, forwarder, token, left⟩ := rows id member
    have extended : shared.Extends (shared.updateDeposits chosen change) :=
      Shared.extends_updateDeposits keeps
    obtain ⟨later, still, same⟩ := extended.deposits there
    refine ⟨later, still, same.2.2.1.trans forwarder, same.2.2.2 ▸ token, ?_⟩
    intro receipt
    rw [same.2.1]
    exact left receipt
  pending := by
    intro id later found status
    rw [getElem?_updateDeposits] at found
    obtain ⟨row, before, rfl⟩ := Option.map_eq_some_iff.mp found
    by_cases taken : chosen id row = true
    · rw [if_pos taken] at status ⊢
      exact pending id row before taken status
    · rw [if_neg taken] at status ⊢
      exact consistent.pending before status

/-- Only locks, drawn values, gas rows and the log of mined transactions are free to change. -/
theorem Shared.Consistent.frame (consistent : shared.Consistent)
    (deposits : after.deposits = shared.deposits) (inflows : after.inflows = shared.inflows)
    (sent : after.sent = shared.sent) (deployed : after.deployed = shared.deployed) :
    after.Consistent where
  inflow := by
    rw [deposits, inflows]
    exact consistent.inflow
  sent := by
    intro hash tx found
    rw [Shared.tx?, sent] at found
    obtain ⟨own, isDeployed, rows⟩ := consistent.sent found
    simp only [Shared.holds, deposits, inflows, deployed]
    exact ⟨own, isDeployed, rows⟩
  pending := by
    simp only [Shared.SentFor, Shared.tx?, deposits, sent]
    exact consistent.pending

end CryptoVaultHub.Sweep
