import CryptoVaultHub.Sweep.Bookkeeping

/-!
# What every statement keeps

Each statement of the two services, with any ending, and everything that happens outside keeps
`Shared.Consistent` and what the points know. `bookkeeping_covered` carries a property of the whole
pool along.
-/

namespace CryptoVaultHub.Sweep

open TransitionSystem Option

variable {shared after : Shared} {hash : TxHash} {id : Nat} {row : Deposit}

/-! ## The sweep -/

theorem lists_select {chosen : Deposit → Bool} :
    ∀ listed ∈ shared.select chosen, shared.Lists listed :=
  fun listed member => ⟨listed.deposit, (mem_select member).1, .refl _⟩

variable {clientId : ClientId}

/-- Reading the next forwarder needs the deposits alone. -/
theorem nextForwarder_knows {deposits : List Listed} {tokens : List Token}
    {forwarders : List Address} {lockValue : Nat} (lists : ∀ listed ∈ deposits, shared.Lists listed) :
    Sweeper.Knows shared
      ⟨clientId, lockValue, SweepPoint.nextForwarder deposits tokens forwarders⟩ := by
  cases forwarders with
  | nil => trivial
  | cons forwarder later => exact ⟨lists⟩

variable {visit : Visit}

theorem Visit.nextToken_knows {found : List TokenEntry} {tokenIds : List TokenId} {lockValue : Nat}
    (knows : visit.Found shared found) :
    Sweeper.Knows shared ⟨clientId, lockValue, visit.nextToken found tokenIds⟩ := by
  induction tokenIds with
  | nil =>
    rw [Visit.nextToken]
    by_cases nothing : found = []
    · rw [if_pos nothing]
      exact nextForwarder_knows knows.deposits
    · rw [if_neg nothing]
      exact knows
  | cons tokenId rest ih =>
    rw [Visit.nextToken]
    cases visit.tokens.find? fun token => token.id = tokenId with
    | none => exact ih
    | some token => exact knows

theorem Visit.nextFlush_knows {rest : List Flush} {lockValue : Nat}
    (knows : visit.Found shared rest.flatten) :
    Sweeper.Knows shared ⟨clientId, lockValue, visit.nextFlush rest⟩ := by
  cases rest with
  | nil => exact nextForwarder_knows knows.deposits
  | cons flush rest => exact knows

theorem Visit.Found.mono {entries fewer : List TokenEntry} (found : visit.Found shared entries)
    (subset : ∀ entry ∈ fewer, entry ∈ entries) : visit.Found shared fewer :=
  ⟨found.toKnows, found.deployed, fun entry member => found.covers entry (subset entry member)⟩

/-- The deposits of a token on the forwarder, as the database has them. -/
theorem Visit.Knows.covers (knows : visit.Knows shared) (token : Token) :
    shared.Covers visit.forwarder ⟨token, (visit.depositsOf token.id).map Listed.id⟩ := by
  intro id member
  obtain ⟨listed, inside, rfl⟩ := List.mem_map.mp member
  obtain ⟨among, chosen⟩ := List.mem_filter.mp inside
  obtain ⟨row, found, same⟩ := knows.deposits listed among
  simp only [Bool.and_eq_true, decide_eq_true_eq] at chosen
  exact ⟨row, found, same.2.2.1.trans chosen.1, same.2.2.2.trans chosen.2⟩

theorem mem_flushes {found : List TokenEntry} :
    ∀ entry ∈ (flushes found).flatten, entry ∈ found := by
  intro entry member
  rw [flushes, List.flatten_append, List.mem_append] at member
  rcases member with native | erc20
  · simp only [List.mem_flatten, List.mem_map] at native
    obtain ⟨flush, ⟨own, inside, rfl⟩, same⟩ := native
    rw [List.mem_singleton.mp same]
    exact (List.mem_filter.mp inside).1
  · dsimp only at erc20
    split at erc20
    · cases erc20
    · simp only [List.flatten_cons, List.flatten_nil, List.append_nil] at erc20
      exact (List.mem_filter.mp erc20).1

theorem tx?_append_of_some {tx other : SweepTx} (found : shared.tx? hash = some tx) :
    Shared.tx? { shared with sent := shared.sent ++ [other] } hash = some tx := by
  rw [Shared.tx?] at found ⊢
  rw [List.find?_append, found, some_or]

theorem tx?_append_cases {tx other : SweepTx}
    (found : Shared.tx? { shared with sent := shared.sent ++ [other] } hash = some tx) :
    shared.tx? hash = some tx ∨ (tx = other ∧ other.hash = hash) := by
  rw [Shared.tx?, List.find?_append, or_eq_some_iff] at found
  rcases found with old | ⟨_, fresh⟩
  · exact .inl old
  · right
    rw [List.find?_singleton] at fresh
    by_cases same : other.hash = hash
    · simp only [same, decide_true, if_true, Option.some.injEq] at fresh
      exact ⟨fresh.symm, same⟩
    · simp [same] at fresh

theorem tx?_append_self {other : SweepTx} (fresh : shared.tx? other.hash = none) :
    Shared.tx? { shared with sent := shared.sent ++ [other] } other.hash = some other := by
  rw [Shared.tx?] at fresh ⊢
  rw [List.find?_append, fresh, none_or]
  simp

theorem Sweeper.statement_extends (shared : Shared) (sweeper : Sweeper) (answer : Answer) :
    shared.Extends (sweeper.statement shared answer).after := by
  obtain ⟨clientId, lockValue, point⟩ := sweeper
  cases point with
  | setLock =>
    simp only [Sweeper.statement]
    split <;> exact .frame rfl rfl rfl rfl rfl
  | findDeposits | findChain | findGasTank | findTokens | findAddress | getCode | readBalance
  | resolveParentWallet | publish | getLock | delLock => exact .frame rfl rfl rfl rfl rfl
  | submit visit flush rest =>
    simp only [Sweeper.statement]
    split
    · exact .refl shared
    · exact
        { deposits := fun found => ⟨_, found, .refl _⟩
          inflows := fun found => ⟨_, found, fun _ => rfl⟩
          sent := fun found => ⟨_, tx?_append_of_some found, fun _ mined => mined⟩
          deployed := id
          gasTank := fun found => ⟨_, found, rfl⟩ }
  | logSubmit visit flush rest hash =>
    exact
      { deposits := fun found => ⟨_, found, .refl _⟩
        inflows := fun found => ⟨_, found, fun _ => rfl⟩
        sent := fun found => ⟨_, found, fun _ mined => mined⟩
        deployed := id
        gasTank := fun found => ⟨_, List.getElem?_append_left
          (List.getElem?_eq_some_iff.mp found).1 ▸ found, rfl⟩ }
  | markPending visit flush rest hash =>
    exact Shared.extends_updateDeposits fun row => ⟨rfl, rfl, rfl, rfl⟩
  | markFailed visit flush rest =>
    exact Shared.extends_updateDeposits fun row => ⟨rfl, rfl, rfl, rfl⟩

theorem Sweeper.statement_consistent {sweeper : Sweeper} (consistent : shared.Consistent)
    (knows : sweeper.Knows shared) (answer : Answer) :
    (sweeper.statement shared answer).after.Consistent := by
  obtain ⟨clientId, lockValue, point⟩ := sweeper
  cases point with
  | setLock =>
    simp only [Sweeper.statement]
    split <;> exact consistent.frame rfl rfl rfl rfl
  | findDeposits | findChain | findGasTank | findTokens | findAddress | getCode | readBalance
  | resolveParentWallet | publish | getLock | delLock | logSubmit =>
    exact consistent.frame rfl rfl rfl rfl
  | submit visit flush rest =>
    simp only [Sweeper.statement]
    split
    · exact consistent
    · refine ⟨consistent.inflow, ?_, ?_⟩
      · intro hash tx found
        rcases tx?_append_cases found with old | ⟨rfl, same⟩
        · exact consistent.sent old
        · refine ⟨same, knows.deployed, ?_⟩
          intro id member
          obtain ⟨entry, inside, among⟩ := List.mem_flatMap.mp member
          obtain ⟨row, there, forwarder, token⟩ :=
            knows.covers entry (List.mem_append_left _ inside) id among
          refine ⟨row, there, forwarder, ?_, by simp [Sweeper.tx]⟩
          exact token ▸ List.mem_map_of_mem inside
      · intro id row found status
        obtain ⟨hash, own, sentFor⟩ := consistent.pending found status
        refine ⟨hash, own, ?_⟩
        intro other member
        obtain ⟨tx, there, inside⟩ := sentFor other member
        exact ⟨tx, tx?_append_of_some there, inside⟩
  | markPending visit flush rest hash =>
    refine consistent.updateDeposits (fun row => ⟨rfl, rfl, rfl, rfl⟩) ?_
    intro id row _ chosen _
    obtain ⟨tx, found, _, ids⟩ := knows.2
    refine ⟨hash, rfl, ?_⟩
    intro other member
    rw [List.mem_singleton.mp member]
    exact ⟨tx, found, ids ▸ of_decide_eq_true chosen⟩
  | markFailed visit flush rest =>
    refine consistent.updateDeposits (fun row => ⟨rfl, rfl, rfl, rfl⟩) ?_
    intro id row _ _ status
    cases status

variable {sweeper later : Sweeper}

/-- A read by which a sweeper goes on or gives the lock back. -/
theorem Sweeper.read_knows {point : SweepPoint}
    (knows : Sweeper.Knows shared { sweeper with point := point })
    (continues : (sweeper.read shared point).next = some later ∨
      (sweeper.read shared point).thrown = some later) : later.Knows shared := by
  rcases continues with next | thrown
  · cases next
    exact knows
  · cases thrown
    trivial

/-- A read by which a sweeper goes on or leaves the forwarder. -/
theorem Sweeper.visit_knows {point : SweepPoint} (forwarders : visit.Knows shared)
    (knows : Sweeper.Knows shared { sweeper with point := point })
    (continues : (sweeper.visit shared visit point).next = some later ∨
      (sweeper.visit shared visit point).thrown = some later) : later.Knows shared := by
  rcases continues with next | thrown
  · cases next
    exact knows
  · cases thrown
    exact nextForwarder_knows forwarders.deposits

variable {answer : Answer}

theorem Sweeper.statement_next (knows : sweeper.Knows shared)
    (continues : (sweeper.statement shared answer).next = some later) :
    later.Knows (sweeper.statement shared answer).after := by
  have extended := Sweeper.statement_extends shared sweeper answer
  obtain ⟨clientId, lockValue, point⟩ := sweeper
  cases point with
  | setLock =>
    simp only [Sweeper.statement] at continues ⊢
    split at continues
    · cases continues
    · cases continues
      trivial
  | findDeposits =>
    refine Sweeper.read_knows ?_ (.inl continues)
    split
    · trivial
    · exact fun listed member => lists_select listed (List.mem_filter.mp member).1
  | findChain deposits =>
    refine Sweeper.read_knows ?_ (.inl continues)
    cases answer.chain with
    | none => trivial
    | some factory =>
      dsimp only
      split
      · trivial
      · exact knows
  | findGasTank deposits =>
    refine Sweeper.read_knows ?_ (.inl continues)
    split
    · exact knows
    · trivial
  | findTokens deposits =>
    exact Sweeper.read_knows (nextForwarder_knows knows) (.inl continues)
  | findAddress visit =>
    refine Sweeper.visit_knows knows ?_ (.inl continues)
    split
    · exact nextForwarder_knows (Visit.Knows.deposits knows)
    · exact knows
  | getCode visit =>
    refine Sweeper.visit_knows knows ?_ (.inl continues)
    split
    · rename_i deployed
      exact Visit.nextToken_knows ⟨knows, deployed, by simp⟩
    · exact nextForwarder_knows (Visit.Knows.deposits knows)
  | readBalance visit token rest found =>
    have visited : visit.Found shared found := knows
    refine Sweeper.visit_knows visited.toKnows ?_ (.inl continues)
    split
    · refine Visit.nextToken_knows ⟨visited.toKnows, visited.deployed, ?_⟩
      intro entry member
      rcases List.mem_append.mp member with old | fresh
      · exact visited.covers entry old
      · rw [List.mem_singleton.mp fresh]
        exact visited.toKnows.covers token
    · exact Visit.nextToken_knows visited
  | resolveParentWallet visit found =>
    have visited : visit.Found shared found := knows
    refine Sweeper.visit_knows visited.toKnows ?_ (.inl continues)
    split
    · exact nextForwarder_knows visited.deposits
    · exact Visit.nextFlush_knows (visited.mono mem_flushes)
  | submit visit flush rest =>
    have visited : visit.Found shared (flush ++ rest.flatten) := knows
    have still := visited.extend extended
    simp only [Sweeper.statement] at continues still ⊢
    split at continues
    · rename_i used
      rw [if_pos used] at still ⊢
      cases continues
      exact still
    · rename_i unused
      rw [if_neg unused] at still ⊢
      cases continues
      exact ⟨still, _, tx?_append_self (not_isSome_iff_eq_none.mp unused), rfl, rfl⟩
  | logSubmit visit flush rest hash =>
    cases continues
    exact ⟨knows.1.extend extended, knows.2.extend extended⟩
  | markPending visit flush rest hash =>
    cases continues
    exact ⟨knows.1.extend extended, knows.2.extend extended⟩
  | publish visit flush rest hash =>
    cases continues
    exact Visit.nextFlush_knows (knows.1.mono fun entry member => List.mem_append_right _ member)
  | markFailed visit flush rest =>
    have visited : visit.Found shared (flush ++ rest.flatten) := knows
    cases continues
    exact Visit.nextFlush_knows
      ((visited.mono fun entry member => List.mem_append_right _ member).extend extended)
  | getLock =>
    simp only [Sweeper.statement] at continues
    split at continues
    · cases continues
      trivial
    · cases continues
  | delLock => cases continues

theorem Sweeper.statement_thrown (knows : sweeper.Knows shared)
    (continues : (sweeper.statement shared answer).thrown = some later) : later.Knows shared := by
  obtain ⟨clientId, lockValue, point⟩ := sweeper
  cases point with
  | setLock =>
    simp only [Sweeper.statement] at continues
    split at continues <;> cases continues
  | findDeposits | findChain | findGasTank | findTokens =>
    cases continues
    trivial
  | findAddress visit | getCode visit =>
    cases continues
    exact nextForwarder_knows (Visit.Knows.deposits knows)
  | readBalance visit token rest found | resolveParentWallet visit found =>
    cases continues
    exact nextForwarder_knows (Visit.Found.toKnows knows).deposits
  | submit visit flush rest =>
    simp only [Sweeper.statement] at continues
    split at continues <;>
    · cases continues
      exact knows
  | logSubmit visit flush rest hash =>
    cases continues
    exact knows
  | markPending visit flush rest hash | publish visit flush rest hash =>
    cases continues
    exact knows.1
  | markFailed visit flush rest =>
    cases continues
    exact nextForwarder_knows (Visit.Found.toKnows knows).deposits
  | getLock | delLock => cases continues

/-! ## The reconciler -/

theorem batches_batch {isOld : Nat → Bool} : shared.Batches (shared.batch isOld) := by
  intro batchRow member
  obtain ⟨⟨row, id⟩, found, rfl⟩ := List.mem_map.mp (List.mem_of_mem_take member)
  exact ⟨row, List.mem_zipIdx_iff_getElem?.mp (List.mem_filter.mp found).1, rfl⟩

theorem nextRow_knows {rest : List BatchRow} {later : ReconcilePoint}
    (batches : shared.Batches rest) (continues : ReconcilePoint.nextRow rest = some later) :
    later.Knows shared := by
  cases rest with
  | nil => cases continues
  | cons row rest =>
    cases continues
    exact batches

theorem Cascade.Knows.nextToken {cascade : Cascade} {rest : List BatchRow}
    {tokenIds : List TokenId} {later : ReconcilePoint} (knows : cascade.Knows shared)
    (batches : shared.Batches rest)
    (continues : cascade.nextToken rest tokenIds = some later) : later.Knows shared := by
  induction tokenIds with
  | nil =>
    rw [Cascade.nextToken, Cascade.finish] at continues
    split at continues
    · exact nextRow_knows batches continues
    · cases continues
      exact ⟨batches, knows⟩
  | cons tokenId others ih =>
    rw [Cascade.nextToken] at continues
    cases found : cascade.tokens.find? fun token => token.id = tokenId with
    | none =>
      rw [found] at continues
      exact ih continues
    | some token =>
      rw [found] at continues
      cases continues
      exact ⟨batches, knows⟩

/-- The deposits that wait for a transaction are deposits that it was sent for. -/
theorem sentFor_of_select (consistent : shared.Consistent) :
    ∀ listed ∈ shared.select (fun row =>
      row.sweepTxHash = some hash && row.status = .sweepPending),
      ∃ tx, shared.tx? hash = some tx ∧ listed.id ∈ tx.depositIds := by
  intro listed member
  obtain ⟨found, chosen⟩ := mem_select member
  simp only [Bool.and_eq_true, decide_eq_true_eq] at chosen
  obtain ⟨own, same, sentFor⟩ := consistent.pending found chosen.2
  cases chosen.1.symm.trans same
  exact sentFor listed.id (List.mem_singleton_self _)

theorem ReconcilePoint.statement_extends (shared : Shared) (point : ReconcilePoint)
    (answer : Answer) : shared.Extends (point.statement shared answer).after := by
  cases point with
  | findRows | getReceipt | findPending | findTokens | readBalance => exact .refl shared
  | timeOut | close => exact Shared.extends_closeGasTank
  | cascadeFailed | cascadeSwept | adoptOrphans =>
    exact Shared.extends_updateDeposits fun row => ⟨rfl, rfl, rfl, rfl⟩

theorem ReconcilePoint.statement_consistent {point : ReconcilePoint}
    (consistent : shared.Consistent) (answer : Answer) :
    (point.statement shared answer).after.Consistent := by
  cases point with
  | findRows | getReceipt | findPending | findTokens | readBalance => exact consistent
  | timeOut | close => exact consistent.frame rfl rfl rfl rfl
  | cascadeFailed | cascadeSwept | adoptOrphans =>
    refine consistent.updateDeposits (fun row => ⟨rfl, rfl, rfl, rfl⟩) ?_
    intro id row _ _ status
    cases status

theorem ReconcilePoint.statement_next {point later : ReconcilePoint}
    (consistent : shared.Consistent) (knows : point.Knows shared)
    (continues : (point.statement shared answer).next = some later) :
    later.Knows (point.statement shared answer).after := by
  have extended := ReconcilePoint.statement_extends shared point answer
  cases point with
  | findRows => exact nextRow_knows batches_batch continues
  | getReceipt row rest =>
    have batches : shared.Batches (row :: rest) := knows
    have later_batches : shared.Batches rest :=
      fun other member => batches other (List.mem_cons_of_mem _ member)
    simp only [ReconcilePoint.statement] at continues
    split at continues
    · split at continues
      · cases continues
        exact knows
      · exact nextRow_knows later_batches continues
    · rename_i ok mined
      cases continues
      refine ⟨batches, ?_⟩
      split at mined
      · exact mined
      · cases mined
  | timeOut row rest =>
    have batches : shared.Batches (row :: rest) := knows
    refine nextRow_knows ?_ continues
    exact Shared.Batches.extend (fun other member => batches other (List.mem_cons_of_mem _ member))
      extended
  | close row ok rest =>
    have batches : shared.Batches rest :=
      fun other member => knows.1 other (List.mem_cons_of_mem _ member)
    cases continues
    cases ok with
    | false => exact ⟨batches.extend extended, extended.receipt? knows.2⟩
    | true => exact ⟨batches.extend extended, extended.receipt? knows.2⟩
  | cascadeFailed hash rest => exact nextRow_knows (knows.1.extend extended) continues
  | findPending hash rest =>
    simp only [ReconcilePoint.statement] at continues
    split at continues
    · exact nextRow_knows knows.1 continues
    · cases continues
      refine ⟨knows.1, knows.2, ?_, by simp⟩
      intro id member
      obtain ⟨listed, inside, rfl⟩ := List.mem_map.mp member
      exact sentFor_of_select consistent listed inside
  | findTokens hash pending rest =>
    have cascade : Cascade.Knows ⟨hash, pending, answer.tokens, [], []⟩ shared :=
      ⟨knows.2.receipt, knows.2.pending, knows.2.safe⟩
    exact cascade.nextToken knows.1 continues
  | readBalance cascade token others rest =>
    simp only [ReconcilePoint.statement] at continues
    split at continues
    · have found : Cascade.Knows
          { cascade with
            safe := cascade.safe ++ cascade.idsOf token.id
            cascaded := cascade.cascaded ++ [token.id] } shared := by
        refine ⟨knows.2.receipt, knows.2.pending, ?_⟩
        intro id member
        rcases List.mem_append.mp member with old | fresh
        · exact knows.2.safe id old
        · obtain ⟨listed, inside, rfl⟩ := List.mem_map.mp fresh
          exact List.mem_map_of_mem (List.mem_filter.mp inside).1
      exact found.nextToken knows.1 continues
    · exact knows.2.nextToken knows.1 continues
  | cascadeSwept cascade rest =>
    cases continues
    exact ⟨knows.1.extend extended, knows.2.extend extended⟩
  | adoptOrphans cascade rest => exact nextRow_knows (knows.1.extend extended) continues

theorem ReconcilePoint.statement_thrown {point later : ReconcilePoint} (knows : point.Knows shared)
    (continues : (point.statement shared answer).thrown = some later) : later.Knows shared := by
  cases point with
  | findRows => cases continues
  | getReceipt row rest | timeOut row rest =>
    have batches : shared.Batches (row :: rest) := knows
    exact nextRow_knows (fun other member => batches other (List.mem_cons_of_mem _ member))
      continues
  | close row ok rest =>
    exact nextRow_knows (fun other member => knows.1 other (List.mem_cons_of_mem _ member))
      continues
  | cascadeFailed hash rest | findPending hash rest => exact nextRow_knows knows.1 continues
  | findTokens hash pending rest => exact nextRow_knows knows.1 continues
  | readBalance cascade token others rest =>
    exact knows.2.nextToken knows.1 continues
  | cascadeSwept cascade rest | adoptOrphans cascade rest =>
    exact nextRow_knows knows.1 continues

/-! ## The pool -/

/-- A statement of either service, with any ending. -/
structure Process.Moves (process : Process) (shared after : Shared) (next : Option Process) :
    Prop where
  extended : shared.Extends after
  consistent : after.Consistent
  knows : ∀ later, next = some later → later.Knows after

theorem Process.statement_moves {process : Process} {input : Input Answer}
    {next : Option Process} (consistent : shared.Consistent) (knows : process.Knows shared)
    (moved : (process.statement shared input.answer).perform shared input.ending = (after, next)) :
    process.Moves shared after next := by
  cases process with
  | sweep sweeper =>
    have extended := Sweeper.statement_extends shared sweeper input.answer
    have thrown : ∀ later, (Process.statement shared (.sweep sweeper) input.answer).thrown =
        some later → later.Knows shared := by
      intro later goes
      obtain ⟨point, goesOn, rfl⟩ := map_eq_some_iff.mp goes
      exact Sweeper.statement_thrown knows goesOn
    obtain ⟨rfl, ⟨_, rfl⟩ | ⟨_, rfl⟩⟩ | ⟨_, rfl, rfl⟩ := Statement.perform_cases moved
    · refine ⟨extended, Sweeper.statement_consistent consistent knows input.answer, ?_⟩
      intro later goes
      obtain ⟨point, goesOn, rfl⟩ := map_eq_some_iff.mp goes
      exact Sweeper.statement_next knows goesOn
    · exact ⟨extended, Sweeper.statement_consistent consistent knows input.answer,
        fun later goes => (thrown later goes).extend extended⟩
    · exact ⟨.refl _, consistent, thrown⟩
  | reconcile point =>
    have extended := ReconcilePoint.statement_extends shared point input.answer
    have thrown : ∀ later, (Process.statement shared (.reconcile point) input.answer).thrown =
        some later → later.Knows shared := by
      intro later goes
      obtain ⟨next, goesOn, rfl⟩ := map_eq_some_iff.mp goes
      exact ReconcilePoint.statement_thrown knows goesOn
    obtain ⟨rfl, ⟨_, rfl⟩ | ⟨_, rfl⟩⟩ | ⟨_, rfl, rfl⟩ := Statement.perform_cases moved
    · refine ⟨extended, ReconcilePoint.statement_consistent consistent input.answer, ?_⟩
      intro later goes
      obtain ⟨next, goesOn, rfl⟩ := map_eq_some_iff.mp goes
      exact ReconcilePoint.statement_next consistent knows goesOn
    · exact ⟨extended, ReconcilePoint.statement_consistent consistent input.answer,
        fun later goes => (thrown later goes).extend extended⟩
    · exact ⟨.refl _, consistent, thrown⟩

/-! ## What happens outside -/

/-- The inflows change, and the rest of what is recorded stays. -/
theorem Shared.Consistent.extend (consistent : shared.Consistent)
    (extended : shared.Extends after) (deposits : after.deposits = shared.deposits)
    (sent : after.sent = shared.sent) : after.Consistent where
  inflow := by
    intro id row found
    obtain ⟨inflow, there, forwarder, token⟩ := consistent.inflow (deposits ▸ found)
    obtain ⟨place, still, _⟩ := extended.inflows there
    exact ⟨_, still, forwarder, token⟩
  sent := by
    intro hash tx found
    rw [Shared.tx?, sent] at found
    obtain ⟨own, deployed, rows⟩ := consistent.sent found
    refine ⟨own, extended.deployed deployed, ?_⟩
    intro id member
    obtain ⟨row, there, forwarder, token, left⟩ := rows id member
    refine ⟨row, deposits ▸ there, forwarder, token, ?_⟩
    intro receipt
    rw [Bool.eq_false_iff]
    intro held
    have before := extended.holds (consistent.known there) held
    rw [left receipt] at before
    cases before
  pending := by
    intro id row found status
    obtain ⟨hash, own, sentFor⟩ := consistent.pending (deposits ▸ found) status
    exact ⟨hash, own, sentFor.extend extended⟩

theorem tx?_mine {ok : Bool} (mined : shared.mine hash ok = some after) (other : TxHash) :
    after.tx? other = (shared.tx? other).map fun tx =>
      if tx.hash = hash then { tx with receipt := some ok } else tx := by
  obtain ⟨tx, _, changed⟩ := bind_eq_some_iff.mp mined
  split at changed
  · cases changed
  · cases changed
    rw [Shared.tx?, List.find?_map, Shared.tx?]
    congr 1
    congr 1
    funext tx
    simp only [Function.comp_apply]
    split <;> rfl

/-- What a mined transaction does to the inflows. -/
theorem inflows_mine {ok : Bool} (mined : shared.mine hash ok = some after) :
    ∃ tx, shared.tx? hash = some tx ∧ tx.receipt = none ∧ after.deposits = shared.deposits ∧
      after.deployed = shared.deployed ∧ after.gasTank = shared.gasTank ∧
      after.mined = (if ok then hash :: shared.mined else shared.mined) ∧
      after.inflows = if ok ∧ tx.forwarderAddress ∈ shared.deployed then
        shared.inflows.map tx.flush else shared.inflows := by
  obtain ⟨tx, found, changed⟩ := bind_eq_some_iff.mp mined
  split at changed
  · cases changed
  · rename_i unmined
    cases changed
    exact ⟨tx, found, not_isSome_iff_eq_none.mp unmined, rfl, rfl, rfl, rfl, rfl⟩

theorem SweepTx.flush_eq (tx : SweepTx) (inflow : Inflow) :
    ∃ place, tx.flush inflow = { inflow with place := place } ∧
      (inflow.place ≠ .held → place = inflow.place) := by
  rw [SweepTx.flush]
  split
  · rename_i flushed
    refine ⟨_, rfl, ?_⟩
    intro left
    simp [SweepTx.flushes, left] at flushed
  · exact ⟨_, rfl, fun _ => rfl⟩

theorem Shared.extends_mine {ok : Bool} (consistent : shared.Consistent)
    (mined : shared.mine hash ok = some after) : shared.Extends after := by
  obtain ⟨own, found, unmined, deposits, deployed, gasTank, _, inflows⟩ := inflows_mine mined
  refine ⟨?_, ?_, ?_, ?_, ?_⟩
  · exact fun there => ⟨_, deposits ▸ there, .refl _⟩
  · intro index inflow there
    rw [inflows]
    split
    · obtain ⟨place, same, kept⟩ := own.flush_eq inflow
      exact ⟨place, by rw [List.getElem?_map, there, map_some, same], kept⟩
    · exact ⟨_, there, fun _ => rfl⟩
  · intro other tx there
    rw [tx?_mine mined, there, map_some]
    by_cases same : tx.hash = hash
    · rw [if_pos same]
      refine ⟨_, rfl, ?_⟩
      intro status receipt
      have sameHash : other = hash := (consistent.sent there).1.symm.trans same
      rw [sameHash, found] at there
      cases there
      rw [unmined] at receipt
      cases receipt
    · rw [if_neg same]
      exact ⟨_, rfl, fun _ receipt => receipt⟩
  · exact fun member => deployed ▸ member
  · exact fun there => ⟨_, gasTank ▸ there, rfl⟩

/-- A successful transaction leaves nothing of what it flushes on the forwarder. -/
theorem holds_mine {index : Nat} {tx : SweepTx} (consistent : shared.Consistent)
    (mined : shared.mine hash true = some after) (found : shared.tx? hash = some tx)
    {inflow : Inflow} (there : shared.inflows[index]? = some inflow)
    (forwarder : inflow.forwarderAddress = tx.forwarderAddress)
    (token : inflow.tokenId ∈ tx.tokenIds) : after.holds index = false := by
  obtain ⟨own, same, _, _, _, _, _, inflows⟩ := inflows_mine mined
  cases found.symm.trans same
  have deployed := (consistent.sent found).2.1
  rw [Shared.holds, inflows, if_pos ⟨rfl, deployed⟩, List.getElem?_map, there]
  by_cases here : inflow.place = .held
  · have flushed : tx.flushes inflow = true := by simp [SweepTx.flushes, here, forwarder, token]
    simp [SweepTx.flush, flushed]
  · have kept : tx.flushes inflow = false := by simp [SweepTx.flushes, here]
    simp [SweepTx.flush, kept, here]

theorem Shared.Consistent.mine {ok : Bool} (consistent : shared.Consistent)
    (mined : shared.mine hash ok = some after) : after.Consistent := by
  have extended := Shared.extends_mine consistent mined
  obtain ⟨own, found, unmined, deposits, _⟩ := inflows_mine mined
  refine ⟨?_, ?_, ?_⟩
  · intro id row there
    obtain ⟨inflow, known, forwarder, token⟩ := consistent.inflow (deposits ▸ there)
    obtain ⟨place, still, _⟩ := extended.inflows known
    exact ⟨_, still, forwarder, token⟩
  · intro other later there
    rw [tx?_mine mined, map_eq_some_iff] at there
    obtain ⟨tx, before, rfl⟩ := there
    obtain ⟨ownHash, isDeployed, rows⟩ := consistent.sent before
    have call : ∀ receipt : Option Bool, ({ tx with receipt := receipt } : SweepTx).hash = other ∧
        ({ tx with receipt := receipt } : SweepTx).forwarderAddress ∈ after.deployed :=
      fun _ => ⟨ownHash, extended.deployed isDeployed⟩
    by_cases same : tx.hash = hash
    · rw [if_pos same]
      refine ⟨(call _).1, (call _).2, ?_⟩
      intro id member
      obtain ⟨row, known, forwarder, token, _⟩ := rows id member
      refine ⟨row, deposits ▸ known, forwarder, token, ?_⟩
      intro status
      cases Option.some.inj status
      obtain ⟨inflow, among, sameForwarder, sameToken⟩ := consistent.inflow known
      exact holds_mine consistent mined (ownHash.symm.trans same ▸ before) among
        (sameForwarder.trans forwarder) (sameToken ▸ token)
    · rw [if_neg same]
      refine ⟨ownHash, extended.deployed isDeployed, ?_⟩
      intro id member
      obtain ⟨row, known, forwarder, token, left⟩ := rows id member
      refine ⟨row, deposits ▸ known, forwarder, token, ?_⟩
      intro status
      rw [Bool.eq_false_iff]
      intro held
      have before := extended.holds (consistent.known known) held
      rw [left status] at before
      cases before
  · intro id row there status
    obtain ⟨other, ownHash, sentFor⟩ := consistent.pending (deposits ▸ there) status
    exact ⟨other, ownHash, sentFor.extend extended⟩

theorem start_moves {begun : Start} {next : Option Process} (consistent : shared.Consistent)
    (started : shared.start begun = some (after, next)) :
    shared.Extends after ∧ after.Consistent ∧ ∀ later, next = some later → later.Knows after := by
  cases begun with
  | sweep clientId =>
    cases started
    refine ⟨.frame rfl rfl rfl rfl rfl, consistent.frame rfl rfl rfl rfl, ?_⟩
    intro later goes
    cases goes
    trivial
  | reconcile =>
    cases started
    refine ⟨.refl _, consistent, ?_⟩
    intro later goes
    cases goes
    trivial
  | expireLock clientId =>
    cases started
    exact ⟨.frame rfl rfl rfl rfl rfl, consistent.frame rfl rfl rfl rfl, by simp⟩
  | deploy forwarder =>
    cases started
    have extended : shared.Extends { shared with deployed := forwarder :: shared.deployed } :=
      { deposits := fun found => ⟨_, found, .refl _⟩
        inflows := fun found => ⟨_, found, fun _ => rfl⟩
        sent := fun found => ⟨_, found, fun _ mined => mined⟩
        deployed := List.mem_cons_of_mem _
        gasTank := fun found => ⟨_, found, rfl⟩ }
    exact ⟨extended, consistent.extend extended rfl rfl, by simp⟩
  | pay forwarder tokenId amount =>
    simp only [Shared.start] at started
    split at started
    · rename_i positive
      cases started
      have extended : shared.Extends { shared with
          inflows := shared.inflows ++ [⟨forwarder, tokenId, amount, positive, .held⟩] } :=
        { deposits := fun found => ⟨_, found, .refl _⟩
          inflows := fun found => ⟨_, List.getElem?_append_left
            (List.getElem?_eq_some_iff.mp found).1 ▸ found, fun _ => rfl⟩
          sent := fun found => ⟨_, found, fun _ mined => mined⟩
          deployed := id
          gasTank := fun found => ⟨_, found, rfl⟩ }
      exact ⟨extended, consistent.extend extended rfl rfl, by simp⟩
    · cases started
  | revert index =>
    simp only [Shared.start] at started
    split at started
    · rename_i held
      cases started
      have extended : shared.Extends { shared with
          inflows := shared.inflows.modify index fun inflow =>
            { inflow with place := .reverted } } := by
        refine ⟨fun found => ⟨_, found, .refl _⟩, ?_, fun found => ⟨_, found, fun _ mined => mined⟩,
          id, fun found => ⟨_, found, rfl⟩⟩
        intro other inflow found
        rw [List.getElem?_modify, found, map_eq_map, map_some]
        by_cases same : index = other
        · subst same
          refine ⟨.reverted, by simp, ?_⟩
          intro left
          rw [Shared.holds, found] at held
          exact absurd (by simpa using held) left
        · exact ⟨_, by simp [same], fun _ => rfl⟩
      exact ⟨extended, consistent.extend extended rfl rfl, by simp⟩
    · cases started
  | mine hash ok =>
    obtain ⟨mined, changed, same⟩ := map_eq_some_iff.mp started
    cases same
    exact ⟨Shared.extends_mine consistent changed, consistent.mine changed, by simp⟩
  | insert clientId projectId index =>
    obtain ⟨inflow, found, same⟩ := map_eq_some_iff.mp started
    cases same
    have old : ∀ {id : Nat} {row : Deposit} (other : Deposit), shared.deposits[id]? = some row →
        (shared.deposits ++ [other])[id]? = some row := fun other there =>
      List.getElem?_append_left (List.getElem?_eq_some_iff.mp there).1 ▸ there
    refine ⟨⟨fun there => ⟨_, old _ there, .refl _⟩, fun there => ⟨_, there, fun _ => rfl⟩,
      fun there => ⟨_, there, fun _ mined => mined⟩, id, fun there => ⟨_, there, rfl⟩⟩,
      ⟨?_, ?_, ?_⟩, by simp⟩
    · intro id row there
      rcases getElem?_snoc there with before | ⟨_, rfl⟩
      · exact consistent.inflow before
      · exact ⟨inflow, found, rfl, rfl⟩
    · intro hash tx there
      obtain ⟨own, deployed, rows⟩ := consistent.sent there
      refine ⟨own, deployed, ?_⟩
      intro id member
      obtain ⟨row, known, rest⟩ := rows id member
      exact ⟨row, old _ known, rest⟩
    · intro id row there status
      rcases getElem?_snoc there with before | ⟨_, rfl⟩
      · exact consistent.pending before status
      · cases status
  | track id status =>
    simp only [Shared.start] at started
    split at started
    · rename_i allowed
      cases started
      refine ⟨Shared.extends_updateDeposits fun row => ⟨rfl, rfl, rfl, rfl⟩, ?_, by simp⟩
      refine consistent.updateDeposits (fun row => ⟨rfl, rfl, rfl, rfl⟩) ?_
      intro other row _ _ same
      rw [show status = .sweepPending from same] at allowed
      rcases allowed with no | no | no <;> cases no
    · cases started

/-- An empty forwarder holds no inflow of the token. -/
theorem holds_of_balance {forwarder : Address} {tokenId : TokenId} {index : Nat} {inflow : Inflow}
    (empty : shared.balance forwarder tokenId = 0)
    (found : shared.inflows[index]? = some inflow)
    (sameForwarder : inflow.forwarderAddress = forwarder) (sameToken : inflow.tokenId = tokenId) :
    shared.holds index = false := by
  rw [Shared.holds, found, any_some, decide_eq_false_iff_not]
  intro held
  have share : inflow.amount ∈ (shared.inflows.filter fun inflow => inflow.place = .held &&
      inflow.forwarderAddress = forwarder && inflow.tokenId = tokenId).map Inflow.amount := by
    refine List.mem_map_of_mem (List.mem_filter.mpr ⟨List.mem_of_getElem? found, ?_⟩)
    simp [held, sameForwarder, sameToken]
  have within := List.le_sum_of_mem share
  have positive := inflow.positive
  rw [Shared.balance] at empty
  omega

/-! ## Along runs -/

/-- The rows are consistent, and every point knows what it relies on. -/
def bookkeeping : ProofOutline Shared Process where
  Global := Shared.Consistent
  Local := Process.Knows
  Apart _ _ := True
  apart_symm _ := trivial

theorem Shared.Initial.consistent (initial : shared.Initial) : shared.Consistent where
  inflow := by simp [initial.2.2.2.1]
  sent := by simp [Shared.tx?, initial.2.1]
  pending := by simp [initial.2.2.2.1]

/-- A property of the pool that every step keeps holds wherever a run arrives, together with the
bookkeeping. -/
theorem bookkeeping_covered {Allowed : State → Action → Prop} {Covered : State → Prop}
    {state : State} (reached : services.system.Reachable Allowed state)
    (initial : ∀ shared : Shared, shared.Initial → Covered ⟨shared, []⟩)
    (covered : ∀ before action later, bookkeeping.Holds before → Covered before →
      Allowed before action → services.system.step before action = some later → Covered later) :
    bookkeeping.HoldsWith Covered state := by
  refine ProofOutline.reachable_with reached ?_ ?_ ?_ covered
  · exact fun shared valid => ⟨Shared.Initial.consistent valid, initial shared valid⟩
  · intro before begun shared process holds _ _ started
    obtain ⟨extended, consistent, knows⟩ := start_moves holds.global started
    exact ⟨consistent, knows,
      fun other point _ running => Process.Knows.extend (holds.locals other point running) extended,
      fun _ _ _ _ _ _ => trivial⟩
  · intro before pid process input shared next holds _ _ running moved
    have moves := Process.statement_moves holds.global (holds.locals pid process running)
      (Option.some.inj moved)
    exact ⟨moves.consistent, moves.knows,
      fun other point _ runs => Process.Knows.extend (holds.locals other point runs) moves.extended,
      fun _ _ _ _ _ _ => trivial⟩

/-! ## A forwarder of one client -/

/-- Forwarder 7 is deployed. -/
def sampleSweep : Shared := ⟨[], [7], [], [], [], [], [], 0⟩

theorem sampleSweep_initial : services.system.Initial ⟨sampleSweep, []⟩ :=
  ⟨⟨rfl, rfl, rfl, rfl, rfl, rfl⟩, rfl⟩

/-- The native token 1 and the wallets of the client are found; a signed transaction has hash 100. -/
def sampleAnswer : Answer :=
  ⟨fun _ => true, some (some 50), true, [⟨1, true⟩], some true, none, some 60, 100, fun _ => true,
    false, true⟩

/-- A statement that ends in some way. -/
def sampleMove (pid : Nat) (ending : Ending) : Action := .advance pid ⟨ending, sampleAnswer⟩

/-- Something is paid to the forwarder, and its deposit is confirmed. -/
def samplePayment : List Action :=
  [.launch (.pay 7 1 5), .launch (.insert 1 0 0), .launch (.track 0 .confirmed)]

/-- A sweep up to the submission. -/
def sampleSubmission : List Action :=
  .launch (.sweep 1) :: List.replicate 9 (sampleMove 3 .done)

end CryptoVaultHub.Sweep
