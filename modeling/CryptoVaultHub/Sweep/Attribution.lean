import CryptoVaultHub.Sweep.BookkeepingSafety

/-!
# The transaction that a deposit was swept by

Neither the selection of a sweep nor the reconciler looks at what a transaction moved: which
deposits it covers follows from rows and balances that were read at other times.
`swept_deposits_moved` says when the transaction that is recorded on a swept deposit is the one
that moved its inflow.
-/

namespace CryptoVaultHub.Sweep

open TransitionSystem Option

variable {shared after : Shared} {hash : TxHash} {id : Nat}

/-- The inflow of the deposit was moved by the transaction that is recorded on it. -/
def Shared.isAttributed (shared : Shared) (row : Deposit) : Bool :=
  row.sweepTxHash.any fun hash => shared.movedBy row.inflow hash

/-- Every swept deposit was moved by the transaction that is recorded on it. -/
@[reducible] def Shared.Attributed (shared : Shared) : Prop :=
  ∀ row ∈ shared.deposits, row.status = .swept → shared.isAttributed row = true

/-! ## The condition -/

/-- The inflow is on its forwarder, or it left with the last transaction that emptied it. -/
def Shared.isCurrent (shared : Shared) (inflow : Nat) : Bool :=
  (shared.inflows[inflow]?).any fun found =>
    match found.place with
    | .held => true
    | .moved hash => shared.lastFlush? found.forwarderAddress found.tokenId = some hash
    | .reverted => false

/-- The rows of what a transaction takes: each deposit that it was sent for and each open row of
its tokens is still on the forwarder. -/
def Shared.takesAll (shared : Shared) (tx : SweepTx) : Bool :=
  (tx.depositIds.all fun id => (shared.deposits[id]?).all fun row => shared.holds row.inflow) &&
    shared.deposits.all fun row =>
      !(row.status.isOpen && row.forwarderAddress = tx.forwarderAddress &&
        row.tokenId ∈ tx.tokenIds) || shared.holds row.inflow

/-- What a pass that takes effect has to find: the deposits that it cascades still record its
transaction, and the orphan pass finds the forwarder as its transaction left it. -/
def Process.attributes (shared : Shared) : Process → Bool
  | .reconcile (.cascadeSwept cascade _) =>
    cascade.safe.all fun id => (shared.deposits[id]?).all fun row =>
      row.status ≠ .sweepPending || row.sweepTxHash = some cascade.hash
  | .reconcile (.adoptOrphans cascade _) =>
    cascade.cascaded.all fun tokenId => shared.balance cascade.forwarder tokenId = 0 &&
      shared.lastFlush? cascade.forwarder tokenId = some cascade.hash
  | .sweep _ | .reconcile _ => true

/-- The condition on the actions. -/
def State.attributing (state : State) : Action → Bool
  | .launch (.insert _ _ inflow) => state.shared.isCurrent inflow
  | .launch (.revert inflow) =>
    state.shared.deposits.all fun row => row.inflow ≠ inflow || !row.status.isOpen
  | .launch (.mine hash true) => (state.shared.tx? hash).all state.shared.takesAll
  | .launch _ | .crash _ => true
  | .advance pid input =>
    (state.process? pid).all fun process =>
      input.ending = .failed || process.attributes state.shared

@[reducible] def State.Attributing (state : State) (action : Action) : Prop :=
  State.attributing state action = true

/-! ## The invariant -/

/-- An open row is of a current inflow, and a swept one of an inflow that was moved by what it
records. -/
structure Shared.Attributes (shared : Shared) (row : Deposit) : Prop where
  current : row.status.isOpen = true → shared.isCurrent row.inflow = true
  swept : row.status = .swept → shared.isAttributed row = true

/-- Besides, a successful transaction has moved all that it was sent for. -/
structure Shared.Attributable (shared : Shared) : Prop where
  rows : ∀ row ∈ shared.deposits, shared.Attributes row
  moved : ∀ {hash : TxHash} {tx : SweepTx}, shared.tx? hash = some tx → tx.receipt = some true →
    ∀ id ∈ tx.depositIds, ∀ row : Deposit, shared.deposits[id]? = some row →
      shared.movedBy row.inflow hash = true
  mined : ∀ hash ∈ shared.mined, (shared.tx? hash).isSome = true

theorem Shared.Extends.isAttributed {row : Deposit} (extended : shared.Extends after)
    (attributed : shared.isAttributed row = true) : after.isAttributed row = true := by
  obtain ⟨hash, own, moved⟩ := (any_eq_true _ _).mp attributed
  exact (any_eq_true _ _).mpr ⟨hash, own, extended.movedBy moved⟩

/-- The rows and the receipts stay, and the inflows of the open rows are still current. -/
theorem Shared.Attributable.frame (attributable : shared.Attributable)
    (extended : shared.Extends after) (deposits : after.deposits = shared.deposits)
    (current : ∀ row ∈ shared.deposits, row.status.isOpen = true →
      shared.isCurrent row.inflow = true → after.isCurrent row.inflow = true)
    (moved : ∀ {hash : TxHash} {tx : SweepTx}, after.tx? hash = some tx →
      tx.receipt = some true → shared.tx? hash = some tx)
    (mined : after.mined = shared.mined) : after.Attributable where
  rows := by
    intro row member
    rw [deposits] at member
    obtain ⟨own, swept⟩ := attributable.rows row member
    exact ⟨fun isOpen => current row member isOpen (own isOpen),
      fun status => extended.isAttributed (swept status)⟩
  moved := by
    intro hash tx found receipt id member row there
    exact extended.movedBy
      (attributable.moved (moved found receipt) receipt id member row (deposits ▸ there))
  mined := by
    intro hash member
    obtain ⟨tx, found⟩ := isSome_iff_exists.mp (attributable.mined hash (mined ▸ member))
    obtain ⟨receipt, there, _⟩ := extended.sent found
    rw [there]
    rfl

/-- What is shared outside the rows stays; each row that changes is attributed. -/
theorem Shared.Attributable.updateDeposits {chosen : Nat → Deposit → Bool}
    {change : Deposit → Deposit} (attributable : shared.Attributable)
    (keeps : ∀ row, (change row).SameRecord row)
    (changed : ∀ id row, shared.deposits[id]? = some row → chosen id row = true →
      shared.Attributes (change row)) :
    (shared.updateDeposits chosen change).Attributable where
  rows := by
    have each : ∀ row ∈ (shared.updateDeposits chosen change).deposits,
        shared.Attributes row := by
      intro later member
      obtain ⟨id, found⟩ := List.mem_iff_getElem?.mp member
      rw [getElem?_updateDeposits] at found
      obtain ⟨row, before, rfl⟩ := map_eq_some_iff.mp found
      by_cases taken : chosen id row = true
      · rw [if_pos taken]
        exact changed id row before taken
      · rw [if_neg taken]
        exact attributable.rows row (List.mem_of_getElem? before)
    exact fun row member => ⟨(each row member).current, (each row member).swept⟩
  moved := by
    intro hash tx found receipt id member later there
    rw [getElem?_updateDeposits] at there
    obtain ⟨row, before, rfl⟩ := map_eq_some_iff.mp there
    have own := attributable.moved found receipt id member row before
    split
    · rw [(keeps row).2.1]
      exact own
    · exact own
  mined := attributable.mined

/-- A row that is neither open nor swept. -/
theorem Attributes.of_closed {row : Deposit} (closed : row.status.isOpen = false)
    (unswept : row.status ≠ .swept) : shared.Attributes row where
  current isOpen := by
    rw [closed] at isOpen
    cases isOpen
  swept status := absurd status unswept

/-! ## The statements -/

theorem lastFlush?_congr {forwarder : Address} {tokenId : TokenId}
    (mined : after.mined = shared.mined)
    (same : ∀ hash ∈ shared.mined, ((after.tx? hash).any fun tx =>
        tx.forwarderAddress = forwarder && tokenId ∈ tx.tokenIds) =
      (shared.tx? hash).any fun tx => tx.forwarderAddress = forwarder && tokenId ∈ tx.tokenIds) :
    after.lastFlush? forwarder tokenId = shared.lastFlush? forwarder tokenId := by
  rw [Shared.lastFlush?, Shared.lastFlush?, mined]
  exact List.find?_congr same

theorem isCurrent_congr {index : Nat} (inflows : after.inflows = shared.inflows)
    (flushes : ∀ forwarder tokenId,
      after.lastFlush? forwarder tokenId = shared.lastFlush? forwarder tokenId) :
    after.isCurrent index = shared.isCurrent index := by
  rw [Shared.isCurrent, Shared.isCurrent, inflows]
  simp only [flushes]

/-- A transaction that is not mined changes nothing. -/
theorem isCurrent_send {tx : SweepTx} {index : Nat}
    (mined : ∀ hash ∈ shared.mined, (shared.tx? hash).isSome = true) :
    Shared.isCurrent { shared with sent := shared.sent ++ [tx] } index =
      shared.isCurrent index := by
  refine isCurrent_congr rfl fun forwarder tokenId => lastFlush?_congr rfl ?_
  intro hash member
  obtain ⟨sent, there⟩ := isSome_iff_exists.mp (mined hash member)
  rw [tx?_append_of_some there, there]

theorem Sweeper.statement_attributable {sweeper : Sweeper} {answer : Answer}
    (attributable : shared.Attributable) :
    (sweeper.statement shared answer).after.Attributable := by
  have extended := Sweeper.statement_extends shared sweeper answer
  obtain ⟨clientId, lockValue, point⟩ := sweeper
  cases point with
  | setLock =>
    simp only [Sweeper.statement] at extended ⊢
    split
    · exact attributable
    · rename_i free
      rw [if_neg free] at extended
      exact attributable.frame extended rfl (fun _ _ _ current => current)
        (fun found _ => found) rfl
  | findDeposits | findChain | findGasTank | findTokens | findAddress | getCode | readBalance
  | resolveParentWallet | publish | getLock => exact attributable
  | logSubmit | delLock =>
    exact attributable.frame extended rfl (fun _ _ _ current => current)
      (fun found _ => found) rfl
  | submit visit flush rest =>
    simp only [Sweeper.statement] at extended ⊢
    split
    · exact attributable
    · rename_i unused
      rw [if_neg unused] at extended
      refine attributable.frame extended rfl ?_ ?_ rfl
      · exact fun row _ _ current => (isCurrent_send attributable.mined).trans current
      · intro hash tx found receipt
        rcases tx?_append_cases found with old | ⟨rfl, _⟩
        · exact old
        · cases receipt
  | markPending visit flush rest hash =>
    exact attributable.updateDeposits (fun row => ⟨rfl, rfl, rfl, rfl⟩)
      fun _ _ _ _ => Attributes.of_closed rfl (by simp)
  | markFailed visit flush rest =>
    exact attributable.updateDeposits (fun row => ⟨rfl, rfl, rfl, rfl⟩)
      fun _ _ _ _ => Attributes.of_closed rfl (by simp)

theorem ReconcilePoint.statement_attributable {point : ReconcilePoint} {answer : Answer}
    (consistent : shared.Consistent) (knows : point.Knows shared)
    (attributable : shared.Attributable)
    (attributes : (Process.reconcile point).attributes shared = true) :
    (point.statement shared answer).after.Attributable := by
  have extended := ReconcilePoint.statement_extends shared point answer
  cases point with
  | findRows | getReceipt | findPending | findTokens | readBalance => exact attributable
  | timeOut | close =>
    exact attributable.frame extended rfl (fun _ _ _ current => current)
      (fun found _ => found) rfl
  | cascadeFailed hash rest =>
    exact attributable.updateDeposits (fun row => ⟨rfl, rfl, rfl, rfl⟩)
      fun _ _ _ _ => Attributes.of_closed rfl (by simp)
  | cascadeSwept cascade rest =>
    refine attributable.updateDeposits (fun row => ⟨rfl, rfl, rfl, rfl⟩) ?_
    intro id row found chosen
    simp only [Bool.and_eq_true, decide_eq_true_eq] at chosen
    refine ⟨by simp [DepositStatus.isOpen], fun _ => ?_⟩
    have records : row.sweepTxHash = some cascade.hash := by
      have own := List.all_eq_true.mp attributes id chosen.1
      simpa [found, chosen.2] using own
    obtain ⟨tx, sent, inside⟩ := knows.2.pending id (knows.2.safe id chosen.1)
    have receipt := knows.2.receipt
    rw [Shared.receipt?, sent] at receipt
    exact (any_eq_true _ _).mpr
      ⟨cascade.hash, records, attributable.moved sent receipt id inside row found⟩
  | adoptOrphans cascade rest =>
    refine attributable.updateDeposits (fun row => ⟨rfl, rfl, rfl, rfl⟩) ?_
    intro id row found chosen
    simp only [Bool.and_eq_true, decide_eq_true_eq] at chosen
    refine ⟨by simp [DepositStatus.isOpen], fun _ => ?_⟩
    have left := List.all_eq_true.mp attributes row.tokenId chosen.1.2
    simp only [Bool.and_eq_true, decide_eq_true_eq] at left
    obtain ⟨inflow, there, forwarder, token⟩ := consistent.inflow found
    have ownForwarder := forwarder.trans chosen.1.1
    have gone := holds_of_balance left.1 there ownForwarder token
    have current := (attributable.rows row (List.mem_of_getElem? found)).current chosen.2
    rw [Shared.isCurrent, there, any_some, ownForwarder, token, left.2] at current
    refine (any_eq_true _ _).mpr ⟨cascade.hash, rfl, ?_⟩
    rw [Shared.movedBy, there, any_some]
    cases place : inflow.place with
    | held => simp [Shared.holds, there, place] at gone
    | moved sweep =>
      rw [place] at current
      simpa using (of_decide_eq_true current).symm
    | reverted =>
      rw [place] at current
      cases current

/-! ## Along runs -/

theorem Shared.isCurrent_cases {index : Nat} {inflow : Inflow}
    (found : shared.inflows[index]? = some inflow) (current : shared.isCurrent index = true) :
    inflow.place = .held ∨ ∃ hash, inflow.place = .moved hash ∧
      shared.lastFlush? inflow.forwarderAddress inflow.tokenId = some hash := by
  rw [Shared.isCurrent, found, any_some] at current
  cases place : inflow.place with
  | held => exact .inl rfl
  | moved hash =>
    rw [place] at current
    exact .inr ⟨hash, rfl, of_decide_eq_true current⟩
  | reverted =>
    rw [place] at current
    cases current

/-- The inflows of the rows stay in place and so does what was mined. -/
theorem isCurrent_extend {index : Nat} {inflow : Inflow}
    (found : shared.inflows[index]? = some inflow) (there : after.inflows[index]? = some inflow)
    (flushes : ∀ forwarder tokenId,
      after.lastFlush? forwarder tokenId = shared.lastFlush? forwarder tokenId)
    (current : shared.isCurrent index = true) : after.isCurrent index = true := by
  rw [Shared.isCurrent, found] at current
  rw [Shared.isCurrent, there]
  simpa only [flushes] using current

theorem attributable_mine {ok : Bool} (consistent : shared.Consistent)
    (attributable : shared.Attributable)
    (takesAll : ok = true → (shared.tx? hash).all shared.takesAll = true)
    (changed : shared.mine hash ok = some after) : after.Attributable := by
  have extended := Shared.extends_mine consistent changed
  obtain ⟨own, found, unmined, deposits, _, _, mined, inflows⟩ := inflows_mine changed
  have ownHash := (consistent.sent found).1
  have deployed := (consistent.sent found).2.1
  have flushes : ∀ other forwarder tokenId, ((after.tx? other).any fun tx =>
      tx.forwarderAddress = forwarder && tokenId ∈ tx.tokenIds) =
      (shared.tx? other).any fun tx => tx.forwarderAddress = forwarder && tokenId ∈ tx.tokenIds := by
    intro other forwarder tokenId
    rw [tx?_mine changed, any_map]
    congr 1
    funext tx
    split <;> rfl
  have everSent : ∀ other ∈ shared.mined, (after.tx? other).isSome = true := by
    intro other member
    rw [tx?_mine changed, isSome_map]
    exact attributable.mined other member
  cases ok with
  | false =>
    refine attributable.frame extended deposits ?_ ?_ mined
    · intro row _ _ current
      refine (isCurrent_congr (by simpa using inflows) ?_).trans current
      intro forwarder tokenId
      exact lastFlush?_congr mined fun other _ => flushes other forwarder tokenId
    · intro other tx there receipt
      rw [tx?_mine changed, map_eq_some_iff] at there
      obtain ⟨before, sent, rfl⟩ := there
      by_cases same : before.hash = hash
      · rw [if_pos same] at receipt
        cases receipt
      · rw [if_neg same]
        exact sent
  | true =>
    have takes : (∀ id ∈ own.depositIds, ∀ row, shared.deposits[id]? = some row →
        shared.holds row.inflow = true) ∧ ∀ row ∈ shared.deposits, row.status.isOpen = true →
          row.forwarderAddress = own.forwarderAddress → row.tokenId ∈ own.tokenIds →
            shared.holds row.inflow = true := by
      have all := takesAll rfl
      rw [found, all_some, Shared.takesAll, Bool.and_eq_true] at all
      refine ⟨?_, ?_⟩
      · intro id member row there
        have held := List.all_eq_true.mp all.1 id member
        simpa [there] using held
      · intro row member isOpen forwarder token
        have held := List.all_eq_true.mp all.2 row member
        simpa [isOpen, forwarder, token] using held
    have flushed : after.inflows = shared.inflows.map own.flush := by
      rw [inflows, if_pos ⟨rfl, deployed⟩]
    have taken : ∀ {index : Nat} {inflow : Inflow}, shared.inflows[index]? = some inflow →
        inflow.forwarderAddress = own.forwarderAddress → inflow.tokenId ∈ own.tokenIds →
        inflow.place = .held →
          after.inflows[index]? = some { inflow with place := .moved hash } := by
      intro index inflow there forwarder token held
      have flushable : own.flushes inflow = true := by
        simp [SweepTx.flushes, held, forwarder, token]
      rw [flushed, List.getElem?_map, there, map_some, SweepTx.flush, if_pos flushable,
        ownHash]
    have first : ∀ forwarder tokenId, after.lastFlush? forwarder tokenId =
        if forwarder = own.forwarderAddress ∧ tokenId ∈ own.tokenIds then some hash
        else shared.lastFlush? forwarder tokenId := by
      intro forwarder tokenId
      have minedNow : after.mined = hash :: shared.mined := by simpa using mined
      rw [Shared.lastFlush?, minedNow, List.find?_cons, flushes, found, any_some]
      by_cases covered : forwarder = own.forwarderAddress ∧ tokenId ∈ own.tokenIds
      · rw [if_pos covered]
        simp [covered.1, covered.2]
      · rw [if_neg covered]
        have missed : (decide (own.forwarderAddress = forwarder) &&
            decide (tokenId ∈ own.tokenIds)) = false := by
          rw [Bool.eq_false_iff]
          intro meets
          simp only [Bool.and_eq_true, decide_eq_true_eq] at meets
          exact covered ⟨meets.1.symm, meets.2⟩
        rw [missed, Shared.lastFlush?]
        simp only [flushes]
    refine ⟨?_, ?_, ?_⟩
    · intro row member
      rw [deposits] at member
      obtain ⟨current, swept⟩ := attributable.rows row member
      refine ⟨?_, fun status => extended.isAttributed (swept status)⟩
      intro isOpen
      obtain ⟨id, place⟩ := List.mem_iff_getElem?.mp member
      obtain ⟨inflow, there, forwarder, token⟩ := consistent.inflow place
      by_cases covered : row.forwarderAddress = own.forwarderAddress ∧ row.tokenId ∈ own.tokenIds
      · have held := takes.2 row member isOpen covered.1 covered.2
        rw [Shared.holds, there, any_some, decide_eq_true_eq] at held
        have moved := taken there (forwarder.trans covered.1) (token ▸ covered.2) held
        rw [Shared.isCurrent, moved, any_some]
        simp [first, forwarder, token, covered.1, covered.2]
      · have outside : own.flush inflow = inflow := by
          rw [SweepTx.flush, if_neg]
          intro meets
          simp only [SweepTx.flushes, Bool.and_eq_true, decide_eq_true_eq] at meets
          exact covered ⟨forwarder.symm.trans meets.1.2, token ▸ meets.2⟩
        rcases Shared.isCurrent_cases there (current isOpen) with held | ⟨sweep, left, last⟩
        · rw [Shared.isCurrent, flushed, List.getElem?_map, there, map_some, outside,
            any_some, held]
        · rw [Shared.isCurrent, flushed, List.getElem?_map, there, map_some, outside,
            any_some, left, first, forwarder, token, if_neg covered]
          rw [forwarder, token] at last
          simp [last]
    · intro other tx there receipt id member row place
      rw [tx?_mine changed, map_eq_some_iff] at there
      obtain ⟨before, sent, rfl⟩ := there
      rw [deposits] at place
      by_cases same : before.hash = hash
      · have sameHash : other = hash := (consistent.sent sent).1.symm.trans same
        subst sameHash
        cases sent.symm.trans found
        rw [if_pos same] at member
        obtain ⟨record, among, sameForwarder, sameToken, _⟩ :=
          (consistent.sent sent).2.2 id member
        cases place.symm.trans among
        obtain ⟨inflow, known, forwarder, token⟩ := consistent.inflow place
        have held := takes.1 id member row place
        rw [Shared.holds, known, any_some, decide_eq_true_eq] at held
        have moved := taken known (forwarder.trans sameForwarder) (token ▸ sameToken) held
        rw [Shared.movedBy, moved, any_some]
        simp
      · rw [if_neg same] at receipt member
        exact extended.movedBy (attributable.moved sent receipt id member row place)
    · intro other member
      have minedNow : after.mined = hash :: shared.mined := by simpa using mined
      rw [minedNow] at member
      rcases List.mem_cons.mp member with rfl | earlier
      · rw [tx?_mine changed, isSome_map, found]
        rfl
      · exact everSent other earlier

theorem attributable_launch {state : State} {begun : Start} {next : Option Process}
    (consistent : state.shared.Consistent) (attributable : state.shared.Attributable)
    (allowed : State.Attributing state (.launch begun))
    (started : state.shared.start begun = some (after, next)) : after.Attributable := by
  have extended := (start_moves consistent started).1
  cases begun with
  | sweep | reconcile | expireLock | deploy =>
    cases started
    exact attributable.frame extended rfl (fun _ _ _ current => current) (fun found _ => found) rfl
  | pay forwarder tokenId amount =>
    simp only [Shared.start] at started
    split at started
    · cases started
      refine attributable.frame extended rfl ?_ (fun found _ => found) rfl
      intro row member _ current
      obtain ⟨id, place⟩ := List.mem_iff_getElem?.mp member
      obtain ⟨inflow, there, _⟩ := consistent.inflow place
      refine isCurrent_extend there ?_ (fun _ _ => rfl) current
      exact List.getElem?_append_left (List.getElem?_eq_some_iff.mp there).1 ▸ there
    · cases started
  | revert index =>
    have unrecorded := List.all_eq_true.mp allowed
    simp only [Shared.start] at started
    split at started
    · cases started
      refine attributable.frame extended rfl ?_ (fun found _ => found) rfl
      intro row member isOpen current
      have other : index ≠ row.inflow := by
        have apart := unrecorded row member
        simp only [isOpen, Bool.not_true, Bool.or_false, decide_eq_true_eq] at apart
        exact Ne.symm apart
      obtain ⟨id, place⟩ := List.mem_iff_getElem?.mp member
      obtain ⟨inflow, there, _⟩ := consistent.inflow place
      refine isCurrent_extend there ?_ (fun _ _ => rfl) current
      dsimp only
      rw [List.getElem?_modify, there]
      simp [other]
    · cases started
  | mine hash ok =>
    obtain ⟨mined, changed, same⟩ := map_eq_some_iff.mp started
    cases same
    refine attributable_mine consistent attributable ?_ changed
    rintro rfl
    exact allowed
  | insert clientId projectId index =>
    obtain ⟨inflow, found, same⟩ := map_eq_some_iff.mp started
    cases same
    refine ⟨?_, ?_, attributable.mined⟩
    · intro row member
      rcases List.mem_append.mp member with old | fresh
      · exact ⟨(attributable.rows row old).current, (attributable.rows row old).swept⟩
      · rw [List.mem_singleton.mp fresh]
        exact ⟨fun _ => allowed, by simp⟩
    · intro hash tx sent receipt id member row there
      obtain ⟨record, among, _⟩ := (consistent.sent sent).2.2 id member
      rcases getElem?_snoc there with before | ⟨last, _⟩
      · exact attributable.moved sent receipt id member row before
      · have inside := (List.getElem?_eq_some_iff.mp among).1
        omega
  | track id status =>
    simp only [Shared.start] at started
    split at started
    · rename_i tracked
      cases started
      refine attributable.updateDeposits (fun row => ⟨rfl, rfl, rfl, rfl⟩) ?_
      intro other row there chosen
      simp only [Bool.and_eq_true, decide_eq_true_eq] at chosen
      have wasOpen : row.status.isOpen = true := by
        cases was : row.status <;> rw [was] at chosen <;> simp_all [DepositStatus.isOpen,
          DepositStatus.isUnconfirmed]
      have current := (attributable.rows row (List.mem_of_getElem? there)).current wasOpen
      refine ⟨fun _ => current, ?_⟩
      intro swept
      rw [show status = .swept from swept] at tracked
      rcases tracked with no | no | no <;> cases no
    · cases started

/-- As long as every step attributes, a swept deposit was moved by the transaction recorded on
it. -/
theorem swept_deposits_moved {state : State}
    (reached : services.system.Reachable State.Attributing state) : state.shared.Attributed := by
  have joint : bookkeeping.HoldsWith (fun state => state.shared.Attributable) state := by
    refine bookkeeping_covered reached ?_ ?_
    · intro shared initial
      exact ⟨by simp [initial.2.2.2.1], by simp [Shared.tx?, initial.2.1],
        by simp [initial.2.2.1]⟩
    · intro before action later holds attributable allowed transition
      cases action with
      | launch begun =>
        obtain ⟨shared, process, started, rfl⟩ := ProcessPool.step_launch transition
        exact attributable_launch holds.global attributable allowed started
      | advance pid input =>
        obtain ⟨process, shared, next, running, moved, rfl⟩ :=
          ProcessPool.step_advance transition
        have knows : process.Knows before.shared := holds.locals pid process running
        have attributes : input.ending = .failed ∨
            process.attributes before.shared = true := by
          simpa [State.Attributing, State.attributing, running] using allowed
        have performed := Option.some.inj moved
        obtain ⟨rfl, effective⟩ | ⟨_, rfl, _⟩ := Statement.perform_cases performed
        · have took : input.ending ≠ .failed := Statement.ne_failed effective
          cases process with
          | sweep sweeper => exact Sweeper.statement_attributable attributable
          | reconcile point =>
            exact ReconcilePoint.statement_attributable holds.global knows attributable
              (attributes.resolve_left took)
        · exact attributable
      | crash pid =>
        obtain ⟨process, running, rfl⟩ := ProcessPool.step_crash transition
        exact attributable
  exact fun row member => (joint.covered.rows row member).swept

/-- The deposit is swept by the transaction that moved it. -/
theorem swept_deposits_moved_sample :
    ∃ state : State, (state.shared.deposits.map Deposit.status) = [.swept] ∧
      state.shared.Attributed := by
  obtain ⟨state, reached, swept⟩ : ∃ state, services.system.Reachable State.Attributing state ∧
      (state.shared.deposits.map Deposit.status) = [.swept] :=
    exists_reachable sampleSweep_initial
      (samplePayment ++ sampleSubmission ++ List.replicate 6 (sampleMove 3 .done) ++
        [.launch (.mine 100 true), .launch .reconcile] ++ List.replicate 8 (sampleMove 5 .done))
      (by decide +kernel)
  exact ⟨state, swept, swept_deposits_moved reached⟩

/-- A second payment arrives and its row is inserted after the balance was read as zero; the orphan
pass marks it as swept. -/
theorem later_inflow_marked_swept :
    ¬ ∀ state : State, services.system.Reachable Unrestricted state →
      state.shared.Attributed := by
  intro always
  obtain ⟨state, reached, wrong⟩ : ∃ state, services.system.Reachable Unrestricted state ∧
      ¬ state.shared.Attributed :=
    exists_reachable sampleSweep_initial
      (samplePayment ++ sampleSubmission ++ List.replicate 6 (sampleMove 3 .done) ++
        [.launch (.mine 100 true), .launch .reconcile] ++ List.replicate 7 (sampleMove 5 .done) ++
        [.launch (.pay 7 1 8), .launch (.insert 1 0 1), sampleMove 5 .done]) (by decide +kernel)
  exact wrong (always state reached)

end CryptoVaultHub.Sweep
