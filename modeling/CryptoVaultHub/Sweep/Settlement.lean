import CryptoVaultHub.Sweep.BookkeepingSafety

/-!
# Deposits of a mined sweep

Between the broadcast of a sweep and the cascade of its deposits lie the row of the gas tank, the
mark of the deposits and the pass of the reconciler that closes the row.
`mined_sweeps_settled` says when a successful transaction nevertheless ends with all its deposits
`swept`, or `sweep_pending` behind a row that is still followed.
-/

namespace CryptoVaultHub.Sweep

open TransitionSystem Option

variable {shared after : Shared} {hash : TxHash} {id : Nat} {state : State}

/-! ## The property -/

/-- The transaction whose bookkeeping a sweeper has not finished. -/
def Process.booking? : Process → Option TxHash
  | .sweep ⟨_, _, .logSubmit _ _ _ hash⟩ | .sweep ⟨_, _, .markPending _ _ _ hash⟩ => some hash
  | .sweep _ | .reconcile _ => none

/-- The transaction whose row is closed and whose deposits a pass has not cascaded yet. -/
def Process.cascading? : Process → Option TxHash
  | .reconcile (.findPending hash _) | .reconcile (.findTokens hash _ _) => some hash
  | .reconcile (.readBalance cascade _ _ _) | .reconcile (.cascadeSwept cascade _) =>
    some cascade.hash
  | .reconcile _ | .sweep _ => none

/-- The run has ended. -/
def State.ended (state : State) (lockValue : Nat) : Bool :=
  state.every fun _ process =>
    match process with
    | .sweep sweeper => sweeper.lockValue ≠ lockValue
    | .reconcile _ => true

/-- No pass is between closing the row of a transaction and cascading its deposits. -/
def State.uncascaded (state : State) (hash : TxHash) : Bool :=
  state.every fun _ process => process.cascading? ≠ some hash

/-- The deposit is `swept`, or `sweep_pending` while the row of the transaction is `submitted`. -/
def Shared.settles (shared : Shared) (hash : TxHash) (row : Deposit) : Bool :=
  row.status = .swept || (row.status = .sweepPending && shared.isSubmitted hash)

/-- Once the run that sent a transaction has ended and the transaction was mined successfully, its
deposits are settled. -/
def State.Settled (state : State) : Prop :=
  ∀ hash tx, state.shared.tx? hash = some tx → tx.receipt = some true →
    State.ended state tx.lockValue = true → State.uncascaded state hash = true →
      ∀ id ∈ tx.depositIds, (state.shared.deposits[id]?).any (state.shared.settles hash) = true

/-! ## The condition -/

/-- The reconciler gave up the transaction. -/
def Shared.isGivenUp (shared : Shared) (hash : TxHash) : Bool :=
  shared.gasTank.any fun row => row.txHash = hash && row.status = .failed

/-- The transaction succeeded, or it can still be mined and is not given up. -/
def Shared.isLive (shared : Shared) (hash : TxHash) : Bool :=
  match shared.receipt? hash with
  | some ok => ok
  | none => !shared.isGivenUp hash

/-- A live transaction other than `except` was sent for one of the deposits. -/
def Shared.anySent (shared : Shared) (except : Option TxHash) (ids : List Nat) : Bool :=
  shared.sent.any fun tx =>
    some tx.hash ≠ except && shared.isLive tx.hash && tx.depositIds.any fun id => id ∈ ids

/-- A deposit waits for the transaction. -/
def Shared.anyWaits (shared : Shared) (hash : TxHash) : Bool :=
  shared.deposits.any fun row => row.status = .sweepPending && row.sweepTxHash = some hash

/-- The condition on a statement. -/
def Process.settling (shared : Shared) (input : Input Answer) : Process → Bool
  | .sweep ⟨_, _, .submit _ flush _⟩ =>
    input.ending = .failed || (shared.tx? input.answer.hash).isSome ||
      (input.ending = .done && !shared.anySent none flush.depositIds)
  | .sweep ⟨_, _, .markPending _ flush _ hash⟩ =>
    if input.ending = .failed then !shared.isLive hash
    else (!shared.isLive hash || shared.isSubmitted hash) &&
      !shared.anySent (some hash) flush.depositIds
  | .sweep ⟨_, _, .markFailed _ flush _⟩ =>
    input.ending = .failed || !shared.anySent none flush.depositIds
  | .reconcile (.timeOut row _) =>
    input.ending = .failed || shared.receipt? row.txHash ≠ some true ||
      !shared.anyWaits row.txHash
  | .reconcile (.close row _ _) => input.ending ≠ .lost || !shared.anyWaits row.txHash
  | .reconcile (.findPending hash _) => input.ending = .done || !shared.anyWaits hash
  | .reconcile (.findTokens hash pending _) =>
    !shared.anyWaits hash || (input.ending = .done && pending.all fun row =>
      input.answer.tokens.any fun token => token.id = row.deposit.tokenId)
  | .reconcile (.readBalance cascade token _ _) =>
    !shared.anyWaits cascade.hash ||
      (input.ending = .done && shared.balance cascade.forwarder token.id = 0)
  | .reconcile (.cascadeSwept cascade _) =>
    input.ending ≠ .failed || !shared.anyWaits cascade.hash
  | .sweep _ | .reconcile _ => true

/-- The condition on the actions. -/
def State.settling (state : State) : Action → Bool
  | .launch (.mine hash ok) => !ok || !state.shared.isGivenUp hash
  | .launch _ => true
  | .advance pid input =>
    (state.process? pid).all fun process => process.settling state.shared input
  | .crash pid =>
    (state.process? pid).all fun process =>
      (process.booking?.or process.cascading?).all fun hash => !state.shared.isLive hash

def State.Settling (state : State) (action : Action) : Prop :=
  State.settling state action = true

instance State.decidableSettling (state : State) (action : Action) :
    Decidable (State.Settling state action) :=
  inferInstanceAs (Decidable (_ = true))

/-! ## The invariant -/

/-- A sweeper is going to mark the deposit for the transaction. -/
def Process.Books (hash : TxHash) (id : Nat) : Process → Prop
  | .sweep ⟨_, _, .logSubmit _ flush _ own⟩ | .sweep ⟨_, _, .markPending _ flush _ own⟩ =>
    own = hash ∧ id ∈ flush.depositIds
  | .sweep _ | .reconcile _ => False

/-- The token of each deposit has a row. -/
def Cascade.Verifies (cascade : Cascade) : Prop :=
  ∀ row ∈ cascade.pending,
    (cascade.tokens.find? fun token => token.id = row.deposit.tokenId).isSome = true

/-- A pass is going to cascade the deposit for the transaction. -/
def Process.Cascades (hash : TxHash) (id : Nat) : Process → Prop
  | .reconcile (.findPending own _) => own = hash
  | .reconcile (.findTokens own pending _) => own = hash ∧ ∃ row ∈ pending, row.id = id
  | .reconcile (.readBalance cascade token others _) =>
    cascade.hash = hash ∧ cascade.Verifies ∧ (id ∈ cascade.safe ∨
      ∃ tokenId ∈ token.id :: others, id ∈ cascade.idsOf tokenId)
  | .reconcile (.cascadeSwept cascade _) => cascade.hash = hash ∧ id ∈ cascade.safe
  | .reconcile _ | .sweep _ => False

def Shared.Swept (shared : Shared) (id : Nat) : Prop :=
  ∃ row, shared.deposits[id]? = some row ∧ row.status = .swept

def Shared.Waits (shared : Shared) (hash : TxHash) (id : Nat) : Prop :=
  ∃ row, shared.deposits[id]? = some row ∧ row.status = .sweepPending ∧
    row.sweepTxHash = some hash

/-- A deposit is going to be marked, is swept, or waits while its transaction is followed or being
cascaded. -/
def State.Follows (state : State) (hash : TxHash) (id : Nat) : Prop :=
  state.Runs (Process.Books hash id) ∨ state.shared.Swept id ∨
    (state.shared.Waits hash id ∧
      (state.shared.isSubmitted hash = true ∨ state.Runs (Process.Cascades hash id)))

def State.Following (state : State) : Prop :=
  ∀ hash tx, state.shared.tx? hash = some tx → state.shared.isLive hash = true →
    ∀ id ∈ tx.depositIds, State.Follows state hash id

/-- What a step of a process does for one deposit of one transaction. -/
structure Process.Carries (process : Process) (shared after : Shared) (next : Option Process)
    (hash : TxHash) (id : Nat) : Prop where
  books : process.Books hash id → (∃ later, next = some later ∧ later.Books hash id) ∨
    (after.Waits hash id ∧ after.isSubmitted hash = true)
  swept : shared.Swept id → after.Swept id ∨
    (after.Waits hash id ∧ after.isSubmitted hash = true)
  waits : shared.Waits hash id → after.Swept id ∨ after.Waits hash id
  submitted : shared.Waits hash id → shared.isSubmitted hash = true → after.Swept id ∨
    after.isSubmitted hash = true ∨ ∃ later, next = some later ∧ later.Cascades hash id
  cascades : shared.Waits hash id → process.Cascades hash id → after.Swept id ∨
    after.isSubmitted hash = true ∨ ∃ later, next = some later ∧ later.Cascades hash id

variable {process : Process} {next : Option Process}

theorem Process.Carries.follows {pid : Nat}
    (carries : process.Carries state.shared after next hash id)
    (follows : State.Follows state hash id) (running : state.process? pid = some process) :
    State.Follows (state.update after pid next) hash id := by
  have settled : state.shared.Waits hash id →
      (after.Swept id ∨ after.isSubmitted hash = true ∨
        ∃ later, next = some later ∧ later.Cascades hash id) →
      State.Follows (state.update after pid next) hash id := by
    intro waits outcome
    rcases carries.waits waits with swept | still
    · exact .inr (.inl swept)
    · rcases outcome with swept | submitted | ⟨later, rfl, cascades⟩
      · exact .inr (.inl swept)
      · exact .inr (.inr ⟨still, .inl submitted⟩)
      · exact .inr (.inr ⟨still, .inr (PoolState.runs_update running cascades after)⟩)
  rcases follows with books | swept | ⟨waits, submitted | cascades⟩
  · rcases books.update_cases running after next with own | other
    · rcases carries.books own with ⟨later, rfl, still⟩ | ⟨waits, submitted⟩
      · exact .inl (PoolState.runs_update running still after)
      · exact .inr (.inr ⟨waits, .inl submitted⟩)
    · exact .inl other
  · rcases carries.swept swept with still | ⟨waits, submitted⟩
    · exact .inr (.inl still)
    · exact .inr (.inr ⟨waits, .inl submitted⟩)
  · exact settled waits (carries.submitted waits submitted)
  · rcases cascades.update_cases running after next with own | other
    · exact settled waits (carries.cascades waits own)
    · rcases carries.waits waits with swept | still
      · exact .inr (.inl swept)
      · exact .inr (.inr ⟨still, .inr other⟩)

/-! ## The statements -/

theorem not_waits (none : shared.anyWaits hash = false) : ¬ shared.Waits hash id := by
  rintro ⟨row, found, status, own⟩
  have other := List.any_eq_false.mp none row (List.mem_of_getElem? found)
  simp [status, own] at other

variable {tx : SweepTx}

/-- Deposits for which no other live transaction was sent. -/
theorem not_sent {except : Option TxHash} {ids : List Nat} (consistent : shared.Consistent)
    (none : shared.anySent except ids = false) (found : shared.tx? hash = some tx)
    (live : shared.isLive hash = true) (other : some hash ≠ except) (member : id ∈ tx.depositIds) :
    id ∉ ids := by
  intro inside
  have unsent := List.any_eq_false.mp none tx (List.mem_of_find?_eq_some found)
  have meets : (tx.depositIds.any fun id => id ∈ ids) = true :=
    List.any_eq_true.mpr ⟨id, member, by simpa using inside⟩
  rw [(consistent.sent found).1] at unsent
  simp [other, live, meets] at unsent

/-- A step that leaves the deposits, the rows of the gas tank and what its process carries. -/
theorem Process.Carries.frame (deposits : after.deposits = shared.deposits)
    (submitted : shared.isSubmitted hash = true → after.isSubmitted hash = true)
    (books : process.Books hash id → ∃ later, next = some later ∧ later.Books hash id)
    (cascades : shared.Waits hash id → process.Cascades hash id →
      ∃ later, next = some later ∧ later.Cascades hash id) :
    process.Carries shared after next hash id where
  books own := .inl (books own)
  swept swept := .inl (by simpa only [Shared.Swept, deposits] using swept)
  waits waits := .inr (by simpa only [Shared.Waits, deposits] using waits)
  submitted _ followed := .inr (.inl (submitted followed))
  cascades waits own := .inr (.inr (cascades waits own))

/-- A step that changes rows but none that is swept or waits for the transaction, except to make it
swept. -/
theorem Process.Carries.updateDeposits {chosen : Nat → Deposit → Bool} {change : Deposit → Deposit}
    (books : ¬ process.Books hash id)
    (swept : ∀ row, shared.deposits[id]? = some row → row.status = .swept →
      chosen id row = true → (change row).status = .swept)
    (waits : ∀ row, shared.deposits[id]? = some row → row.status = .sweepPending →
      row.sweepTxHash = some hash → chosen id row = true → (change row).status = .swept)
    (cascades : shared.Waits hash id → process.Cascades hash id →
      (shared.updateDeposits chosen change).Swept id) :
    process.Carries shared (shared.updateDeposits chosen change) next hash id where
  books own := absurd own books
  swept := by
    rintro ⟨row, found, status⟩
    left
    refine ⟨_, by rw [getElem?_updateDeposits, found, map_some], ?_⟩
    split
    · rename_i taken
      exact swept row found status taken
    · exact status
  waits := by
    rintro ⟨row, found, status, own⟩
    by_cases taken : chosen id row = true
    · left
      refine ⟨_, by rw [getElem?_updateDeposits, found, map_some], ?_⟩
      rw [if_pos taken]
      exact waits row found status own taken
    · right
      refine ⟨_, by rw [getElem?_updateDeposits, found, map_some], ?_⟩
      rw [if_neg taken]
      exact ⟨status, own⟩
  submitted _ followed := .inr (.inl followed)
  cascades waits own := .inl (cascades waits own)

variable {input : Input Answer}

theorem Sweeper.carries {sweeper : Sweeper} (consistent : shared.Consistent)
    (settling : (Process.sweep sweeper).settling shared input = true)
    (found : shared.tx? hash = some tx) (live : shared.isLive hash = true)
    (member : id ∈ tx.depositIds)
    (moved : ((Process.sweep sweeper).statement shared input.answer).perform shared input.ending =
      (after, next)) : (Process.sweep sweeper).Carries shared after next hash id := by
  obtain ⟨clientId, lockValue, point⟩ := sweeper
  have idle : after.deposits = shared.deposits → after.gasTank = shared.gasTank →
      ¬ (Process.sweep ⟨clientId, lockValue, point⟩).Books hash id →
        (Process.sweep ⟨clientId, lockValue, point⟩).Carries shared after next hash id := by
    intro deposits gasTank books
    refine .frame deposits ?_ (fun own => absurd own books) fun _ own => own.elim
    rw [Shared.isSubmitted, Shared.isSubmitted, gasTank]
    exact fun followed => followed
  have same : ∀ Property : Shared → Prop, Property shared →
      Property ((Process.sweep ⟨clientId, lockValue, point⟩).statement shared
        input.answer).after → Property after :=
    fun Property => Statement.perform_shared Property moved
  cases point with
  | setLock =>
    refine idle (same (fun after => after.deposits = shared.deposits) rfl ?_)
      (same (fun after => after.gasTank = shared.gasTank) rfl ?_) fun own => own
    · simp only [Process.statement, Sweeper.statement, Statement.map]
      split <;> rfl
    · simp only [Process.statement, Sweeper.statement, Statement.map]
      split <;> rfl
  | findDeposits | findChain | findGasTank | findTokens | findAddress | getCode | readBalance
  | resolveParentWallet | publish | getLock | delLock =>
    exact idle (same (fun after => after.deposits = shared.deposits) rfl rfl)
      (same (fun after => after.gasTank = shared.gasTank) rfl rfl) fun own => own
  | submit visit flush rest =>
    refine idle (same (fun after => after.deposits = shared.deposits) rfl ?_)
      (same (fun after => after.gasTank = shared.gasTank) rfl ?_) fun own => own
    · simp only [Process.statement, Sweeper.statement, Statement.map]
      split <;> rfl
    · simp only [Process.statement, Sweeper.statement, Statement.map]
      split <;> rfl
  | logSubmit visit flush rest own =>
    have goesOn : next = some (.sweep ⟨clientId, lockValue, .markPending visit flush rest own⟩) := by
      obtain ⟨_, ⟨_, rfl⟩ | ⟨_, rfl⟩⟩ | ⟨_, _, rfl⟩ := Statement.perform_cases moved <;> rfl
    refine .frame (same (fun after => after.deposits = shared.deposits) rfl rfl) ?_
      (fun books => ⟨_, goesOn, books⟩) fun _ cascades => cascades.elim
    intro followed
    refine same (fun after => after.isSubmitted hash = true) followed ?_
    obtain ⟨row, inside, ownRow⟩ := List.any_eq_true.mp followed
    exact List.any_eq_true.mpr ⟨row, List.mem_append_left _ inside, ownRow⟩
  | markPending visit flush rest own =>
    by_cases failed : input.ending = .failed
    · have dead : shared.isLive own = false := by
        simpa [Process.settling, failed] using settling
      rw [failed] at moved
      cases moved
      refine .frame rfl (fun followed => followed) ?_ fun _ cascades => cascades.elim
      rintro ⟨rfl, _⟩
      rw [live] at dead
      cases dead
    · simp only [Process.settling, if_neg failed, Bool.and_eq_true, Bool.or_eq_true,
        Bool.not_eq_true'] at settling
      obtain ⟨followed, unsent⟩ := settling
      have changed : after = shared.updateDeposits (fun id _ => id ∈ flush.depositIds) fun row =>
          { row with status := .sweepPending, sweepTxHash := some own } := by
        obtain ⟨rfl, _⟩ | ⟨ended, _⟩ := Statement.perform_cases moved
        · rfl
        · exact absurd ended failed
      subst changed
      by_cases inside : own = hash ∧ id ∈ flush.depositIds
      · obtain ⟨rfl, inside⟩ := inside
        obtain ⟨row, there, _⟩ := (consistent.sent found).2.2 id member
        have waits : (shared.updateDeposits (fun id _ => id ∈ flush.depositIds) fun row =>
            { row with status := .sweepPending, sweepTxHash := some own }).Waits own id := by
          refine ⟨_, by rw [getElem?_updateDeposits, there, map_some], ?_⟩
          rw [if_pos (decide_eq_true inside)]
          exact ⟨rfl, rfl⟩
        have submitted : shared.isSubmitted own = true := by
          rcases followed with dead | submitted
          · rw [live] at dead
            cases dead
          · exact submitted
        exact
          { books := fun _ => .inr ⟨waits, submitted⟩
            swept := fun _ => .inr ⟨waits, submitted⟩
            waits := fun _ => .inr waits
            submitted := fun _ _ => .inr (.inl submitted)
            cascades := fun _ own => own.elim }
      · have outside : id ∉ flush.depositIds := by
          by_cases ours : own = hash
          · exact fun among => inside ⟨ours, among⟩
          · refine not_sent consistent unsent found live ?_ member
            exact fun equal => ours (Option.some.inj equal).symm
        exact .updateDeposits inside
          (fun _ _ _ chosen => absurd (of_decide_eq_true chosen) outside)
          (fun _ _ _ _ chosen => absurd (of_decide_eq_true chosen) outside)
          fun _ own => own.elim
  | markFailed visit flush rest =>
    by_cases failed : input.ending = .failed
    · rw [failed] at moved
      cases moved
      exact idle rfl rfl fun own => own
    · have unsent : shared.anySent none flush.depositIds = false := by
        simpa [Process.settling, failed] using settling
      have outside := not_sent consistent unsent found live (by simp) member
      have changed : after = shared.updateDeposits (fun id _ => id ∈ flush.depositIds) fun row =>
          { row with status := .sweepFailed } := by
        obtain ⟨rfl, _⟩ | ⟨ended, _⟩ := Statement.perform_cases moved
        · rfl
        · exact absurd ended failed
      subst changed
      exact .updateDeposits (fun own => own)
        (fun _ _ _ chosen => absurd (of_decide_eq_true chosen) outside)
        (fun _ _ _ _ chosen => absurd (of_decide_eq_true chosen) outside)
        fun _ own => own.elim

variable {status : GasTankStatus} {found : GasTankRow}

theorem isSubmitted_close {closed : Nat} (there : shared.gasTank[closed]? = some found)
    (other : found.txHash ≠ hash) (followed : shared.isSubmitted hash = true) :
    (shared.closeGasTank closed status).isSubmitted hash = true := by
  obtain ⟨row, inside, own⟩ := List.any_eq_true.mp followed
  obtain ⟨position, place⟩ := List.mem_iff_getElem?.mp inside
  have apart : closed ≠ position := by
    rintro rfl
    cases there.symm.trans place
    simp [other] at own
  refine List.any_eq_true.mpr ⟨row, List.mem_of_getElem? (i := position) ?_, own⟩
  rw [getElem?_closeGasTank, place, map_some, if_neg apart]

/-- A row of the gas tank of a transaction that no deposit waits for, or of another one, is
closed. -/
theorem Process.Carries.close {closed : Nat} (there : shared.gasTank[closed]? = some found)
    (books : ¬ process.Books hash id) (cascades : ¬ process.Cascades hash id)
    (goesOn : found.txHash = hash → shared.Waits hash id →
      ∃ later, next = some later ∧ later.Cascades hash id) :
    process.Carries shared (shared.closeGasTank closed status) next hash id where
  books own := absurd own books
  swept swept := .inl swept
  waits waits := .inr waits
  submitted waits followed := by
    by_cases own : found.txHash = hash
    · exact .inr (.inr (goesOn own waits))
    · exact .inr (.inl (isSubmitted_close there own followed))
  cascades _ own := absurd own cascades

/-- The loop over the tokens reaches every deposit whose token has a row. -/
theorem Cascade.nextToken_cascades {cascade : Cascade} {rest : List BatchRow}
    {tokenIds : List TokenId} (verifies : cascade.Verifies)
    (going : id ∈ cascade.safe ∨ ∃ tokenId ∈ tokenIds, id ∈ cascade.idsOf tokenId) :
    ∃ later, cascade.nextToken rest tokenIds = some later ∧
      Process.Cascades cascade.hash id (.reconcile later) := by
  induction tokenIds with
  | nil =>
    have safe : id ∈ cascade.safe := by simpa using going
    rw [Cascade.nextToken, Cascade.finish, if_neg (List.ne_nil_of_mem safe)]
    exact ⟨_, rfl, rfl, safe⟩
  | cons tokenId others ih =>
    rw [Cascade.nextToken]
    cases known : cascade.tokens.find? fun token => token.id = tokenId with
    | none =>
      refine ih ?_
      rcases going with safe | ⟨chosen, among, inside⟩
      · exact .inl safe
      · rcases List.mem_cons.mp among with rfl | later
        · obtain ⟨row, member, _⟩ := List.mem_map.mp inside
          obtain ⟨pending, same⟩ := List.mem_filter.mp member
          have present := verifies row pending
          rw [of_decide_eq_true same, known] at present
          cases present
        · exact .inr ⟨chosen, later, inside⟩
    | some token =>
      have same : token.id = tokenId := by simpa using List.find?_some known
      refine ⟨_, rfl, rfl, verifies, ?_⟩
      rw [same]
      exact going

theorem ReconcilePoint.carries {point : ReconcilePoint} (consistent : shared.Consistent)
    (knows : point.Knows shared) (settling : (Process.reconcile point).settling shared input = true)
    (found : shared.tx? hash = some tx) (live : shared.isLive hash = true)
    (member : id ∈ tx.depositIds) (liveAfter : after.isLive hash = true)
    (moved : ((Process.reconcile point).statement shared input.answer).perform shared
      input.ending = (after, next)) :
    (Process.reconcile point).Carries shared after next hash id := by
  have idle : after = shared → ¬ (Process.reconcile point).Cascades hash id →
      (Process.reconcile point).Carries shared after next hash id := by
    rintro rfl cascades
    exact .frame rfl (fun followed => followed) (fun own => own.elim)
      fun _ own => absurd own cascades
  have unchanged : ((Process.reconcile point).statement shared input.answer).after = shared →
      after = shared := fun same =>
    Statement.perform_shared (fun after => after = shared) moved rfl same
  have goesOn : input.ending = .done →
      next = (point.statement shared input.answer).next.map .reconcile := by
    intro done
    rw [done] at moved
    cases moved
    rfl
  cases point with
  | findRows => exact idle (unchanged rfl) fun own => own
  | getReceipt row rest => exact idle (unchanged rfl) fun own => own
  | timeOut row rest =>
    obtain ⟨there, place, same⟩ := knows row List.mem_cons_self
    obtain ⟨rfl, effective⟩ | ⟨_, rfl, _⟩ := Statement.perform_cases moved
    · refine .close place (fun own => own) (fun own => own) ?_
      intro own waits
      -- Another transaction is given up now, and this one has a receipt that nobody waits for.
      have took : input.ending ≠ .failed := Statement.ne_failed effective
      have given : (shared.closeGasTank row.id .failed).isGivenUp hash = true := by
        refine List.any_eq_true.mpr ⟨{ there with status := .failed }, ?_, by simp [own]⟩
        refine List.mem_of_getElem? (i := row.id) ?_
        rw [getElem?_closeGasTank, place, map_some, if_pos rfl]
      have mined : shared.receipt? hash = some true := by
        have sameReceipt : (shared.closeGasTank row.id .failed).receipt? hash =
            shared.receipt? hash := rfl
        have liveThen : (shared.closeGasTank row.id .failed).isLive hash = true := liveAfter
        rw [Shared.isLive, sameReceipt] at liveThen
        cases receipt : shared.receipt? hash with
        | none =>
          rw [receipt] at liveThen
          simp [given] at liveThen
        | some ok =>
          rw [receipt] at liveThen
          rw [show ok = true from liveThen]
      simp only [Process.settling, took, decide_false, Bool.false_or, ← same, own, mined,
        ne_eq, not_true_eq_false, Bool.not_eq_true'] at settling
      exact absurd waits (not_waits settling)
    · exact idle rfl fun own => own
  | close row ok rest =>
    obtain ⟨there, place, same⟩ := knows.1 row List.mem_cons_self
    by_cases done : input.ending = .done
    · have goes := goesOn done
      rw [done] at moved
      cases moved
      refine .close place (fun own => own) (fun own => own) ?_
      intro own _
      have receipt := knows.2
      rw [← same, own] at receipt
      rw [Shared.isLive, receipt] at live
      rw [show ok = true from live]
      exact ⟨_, rfl, same.symm.trans own⟩
    · obtain ⟨rfl, ⟨ended, _⟩ | ⟨lost, _⟩⟩ | ⟨_, rfl, _⟩ := Statement.perform_cases moved
      · exact absurd ended done
      · refine .close place (fun own => own) (fun own => own) ?_
        intro own waits
        have unawaited : shared.anyWaits row.txHash = false := by
          simpa [Process.settling, lost] using settling
        rw [← same, own] at unawaited
        exact absurd waits (not_waits unawaited)
      · exact idle rfl fun own => own
  | cascadeFailed own rest =>
    have dead : own ≠ hash := by
      rintro rfl
      rw [Shared.isLive, knows.2] at live
      cases live
    obtain ⟨rfl, _⟩ | ⟨_, rfl, _⟩ := Statement.perform_cases moved
    · refine .updateDeposits (fun own => own) ?_ ?_ fun _ own => own.elim
      · intro row _ status chosen
        simp [status] at chosen
      · intro row _ _ ownHash chosen
        simp only [ownHash, Option.some.injEq, Bool.and_eq_true, decide_eq_true_eq] at chosen
        exact absurd chosen.1.symm dead
    · exact idle rfl fun own => own
  | findPending own rest =>
    cases unchanged rfl
    refine .frame rfl (fun followed => followed) (fun own => own.elim) ?_
    rintro waits rfl
    obtain ⟨row, there, status, ownHash⟩ := waits
    have awaited : shared.anyWaits own = true :=
      List.any_eq_true.mpr ⟨row, List.mem_of_getElem? there, by simp [status, ownHash]⟩
    have done : input.ending = .done := by
      simpa [Process.settling, awaited] using settling
    have listed : (⟨id, row⟩ : Listed) ∈ shared.select fun row =>
        row.sweepTxHash = some own && row.status = .sweepPending := by
      refine List.mem_map.mpr ⟨(row, id), List.mem_filter.mpr ⟨?_, by simp [status, ownHash]⟩, rfl⟩
      exact List.mem_zipIdx_iff_getElem?.mpr there
    have nonempty := List.ne_nil_of_mem listed
    rw [goesOn done]
    simp only [ReconcilePoint.statement, if_neg nonempty, map_some]
    exact ⟨_, rfl, rfl, _, listed, rfl⟩
  | findTokens own pending rest =>
    cases unchanged rfl
    refine .frame rfl (fun followed => followed) (fun own => own.elim) ?_
    rintro waits ⟨rfl, row, inside, rfl⟩
    have read : input.ending = .done ∧ ∀ row ∈ pending,
        ∃ token ∈ input.answer.tokens, token.id = row.deposit.tokenId := by
      rcases Bool.or_eq_true_iff.mp settling with unawaited | read
      · exact absurd waits (not_waits (by simpa using unawaited))
      · simpa using read
    have verifies : Cascade.Verifies ⟨own, pending, input.answer.tokens, [], []⟩ := by
      intro other member
      obtain ⟨token, known, same⟩ := read.2 other member
      exact List.find?_isSome.mpr ⟨token, known, by simpa using same⟩
    have among : row.deposit.tokenId ∈ pendingTokenIds pending := by
      rw [pendingTokenIds, List.mem_eraseDups]
      exact List.mem_map_of_mem inside
    have listed : row.id ∈
        Cascade.idsOf ⟨own, pending, input.answer.tokens, [], []⟩ row.deposit.tokenId :=
      List.mem_map_of_mem (List.mem_filter.mpr ⟨inside, by simp⟩)
    obtain ⟨later, continues, cascades⟩ : ∃ later,
        Cascade.nextToken ⟨own, pending, input.answer.tokens, [], []⟩ rest
          (pendingTokenIds pending) = some later ∧
        Process.Cascades own row.id (.reconcile later) :=
      Cascade.nextToken_cascades verifies (.inr ⟨_, among, listed⟩)
    rw [goesOn read.1]
    exact ⟨.reconcile later, by simp [ReconcilePoint.statement, continues], cascades⟩
  | readBalance cascade token others rest =>
    cases unchanged rfl
    refine .frame rfl (fun followed => followed) (fun own => own.elim) ?_
    rintro waits ⟨rfl, verifies, going⟩
    have read : input.ending = .done ∧ shared.balance cascade.forwarder token.id = 0 := by
      rcases Bool.or_eq_true_iff.mp settling with unawaited | read
      · exact absurd waits (not_waits (by simpa using unawaited))
      · simpa using read
    have extended : id ∈ cascade.safe ++ cascade.idsOf token.id ∨
        ∃ tokenId ∈ others, id ∈ cascade.idsOf tokenId := by
      rcases going with safe | ⟨tokenId, among, inside⟩
      · exact .inl (List.mem_append_left _ safe)
      · rcases List.mem_cons.mp among with rfl | later
        · exact .inl (List.mem_append_right _ inside)
        · exact .inr ⟨tokenId, later, inside⟩
    obtain ⟨later, continues, cascades⟩ : ∃ later,
        Cascade.nextToken
          { cascade with
            safe := cascade.safe ++ cascade.idsOf token.id
            cascaded := cascade.cascaded ++ [token.id] } rest others = some later ∧
        Process.Cascades cascade.hash id (.reconcile later) :=
      Cascade.nextToken_cascades verifies extended
    rw [goesOn read.1]
    exact ⟨.reconcile later, by simp [ReconcilePoint.statement, read.2, continues], cascades⟩
  | cascadeSwept cascade rest =>
    by_cases failed : input.ending = .failed
    · have unawaited : shared.anyWaits cascade.hash = false := by
        simpa [Process.settling, failed] using settling
      rw [failed] at moved
      cases moved
      refine .frame rfl (fun followed => followed) (fun own => own.elim) ?_
      rintro waits ⟨rfl, _⟩
      exact absurd waits (not_waits unawaited)
    · have changed : after = shared.updateDeposits
          (fun id row => id ∈ cascade.safe && row.status = .sweepPending) fun row =>
            { row with status := .swept } := by
        obtain ⟨rfl, _⟩ | ⟨ended, _⟩ := Statement.perform_cases moved
        · rfl
        · exact absurd ended failed
      subst changed
      refine .updateDeposits (fun own => own) (fun _ _ _ _ => rfl) (fun _ _ _ _ _ => rfl) ?_
      rintro ⟨row, there, status, _⟩ ⟨_, safe⟩
      refine ⟨_, by rw [getElem?_updateDeposits, there, map_some], ?_⟩
      rw [if_pos (by simp [safe, status])]
  | adoptOrphans cascade rest =>
    obtain ⟨rfl, _⟩ | ⟨_, rfl, _⟩ := Statement.perform_cases moved
    · exact .updateDeposits (fun own => own) (fun _ _ _ _ => rfl) (fun _ _ _ _ _ => rfl)
        fun _ own => own.elim
    · exact idle rfl fun own => own

/-! ## Along runs -/

/-- A transaction does not become live again. -/
theorem isLive_of_after (live : after.isLive hash = true)
    (receipt : after.receipt? hash = shared.receipt? hash)
    (givenUp : shared.receipt? hash = none → shared.isGivenUp hash = true →
      after.isGivenUp hash = true) : shared.isLive hash = true := by
  rw [Shared.isLive, receipt] at live
  rw [Shared.isLive]
  cases mined : shared.receipt? hash with
  | some ok =>
    rw [mined] at live
    exact live
  | none =>
    rw [mined] at live
    simp only [Bool.not_eq_true'] at live ⊢
    rw [Bool.eq_false_iff]
    intro given
    rw [givenUp mined given] at live
    cases live

theorem isGivenUp_close {closed : Nat} (there : shared.gasTank[closed]? = some found)
    (stays : status = .failed ∨ found.txHash ≠ hash) (given : shared.isGivenUp hash = true) :
    (shared.closeGasTank closed status).isGivenUp hash = true := by
  obtain ⟨row, inside, own⟩ := List.any_eq_true.mp given
  obtain ⟨position, place⟩ := List.mem_iff_getElem?.mp inside
  simp only [Bool.and_eq_true, decide_eq_true_eq] at own
  by_cases same : closed = position
  · subst same
    cases there.symm.trans place
    have failed := stays.resolve_right fun other => other own.1
    refine List.any_eq_true.mpr ⟨{ found with status := status }, ?_, by simp [own.1, failed]⟩
    refine List.mem_of_getElem? (i := closed) ?_
    rw [getElem?_closeGasTank, place, map_some, if_pos rfl]
  · refine List.any_eq_true.mpr ⟨row, ?_, by simp [own]⟩
    refine List.mem_of_getElem? (i := position) ?_
    rw [getElem?_closeGasTank, place, map_some, if_neg same]

/-- The receipts of the transactions that were sent stay, and so do those given up without one. -/
theorem Process.statement_live {answer : Answer} (knows : process.Knows shared)
    (found : shared.tx? hash = some tx)
    (live : (process.statement shared answer).after.isLive hash = true) :
    shared.isLive hash = true := by
  cases process with
  | sweep sweeper =>
    obtain ⟨clientId, lockValue, point⟩ := sweeper
    cases point with
    | setLock =>
      simp only [Process.statement, Sweeper.statement, Statement.map] at live
      split at live <;> exact live
    | findDeposits | findChain | findGasTank | findTokens | findAddress | getCode | readBalance
    | resolveParentWallet | publish | getLock | delLock | markPending | markFailed => exact live
    | submit visit flush rest =>
      simp only [Process.statement, Sweeper.statement, Statement.map] at live
      split at live
      · exact live
      · refine isLive_of_after live ?_ fun _ given => given
        rw [Shared.receipt?, tx?_append_of_some found, Shared.receipt?, found]
    | logSubmit visit flush rest own =>
      refine isLive_of_after live rfl ?_
      intro _ given
      obtain ⟨row, inside, failed⟩ := List.any_eq_true.mp given
      exact List.any_eq_true.mpr ⟨row, List.mem_append_left _ inside, failed⟩
  | reconcile point =>
    cases point with
    | findRows | getReceipt | findPending | findTokens | readBalance | cascadeFailed
    | cascadeSwept | adoptOrphans => exact live
    | timeOut row rest =>
      obtain ⟨there, place, _⟩ := knows row List.mem_cons_self
      exact isLive_of_after live rfl fun _ => isGivenUp_close place (.inl rfl)
    | close row ok rest =>
      obtain ⟨there, place, same⟩ := knows.1 row List.mem_cons_self
      refine isLive_of_after live rfl ?_
      intro unmined
      refine isGivenUp_close place (.inr ?_)
      rintro rfl
      rw [same, knows.2] at unmined
      cases unmined

theorem Process.statement_sent {answer : Answer}
    (found : (process.statement shared answer).after.tx? hash = some tx) :
    shared.tx? hash = some tx ∨
      ∃ clientId lockValue visit flush rest,
        process = .sweep ⟨clientId, lockValue, .submit visit flush rest⟩ ∧
          shared.tx? answer.hash = none ∧ hash = answer.hash ∧ tx.depositIds = flush.depositIds := by
  cases process with
  | sweep sweeper =>
    obtain ⟨clientId, lockValue, point⟩ := sweeper
    cases point with
    | setLock =>
      simp only [Process.statement, Sweeper.statement, Statement.map] at found
      split at found <;> exact .inl found
    | findDeposits | findChain | findGasTank | findTokens | findAddress | getCode | readBalance
    | resolveParentWallet | publish | getLock | delLock | markPending | markFailed
    | logSubmit => exact .inl found
    | submit visit flush rest =>
      simp only [Process.statement, Sweeper.statement, Statement.map] at found
      split at found
      · exact .inl found
      · rename_i unused
        rcases tx?_append_cases found with old | ⟨rfl, same⟩
        · exact .inl old
        · exact .inr ⟨clientId, lockValue, visit, flush, rest, rfl,
            not_isSome_iff_eq_none.mp unused, same.symm, rfl⟩
  | reconcile point => cases point <;> exact .inl found

theorem following_advance {pid : Nat} (holds : bookkeeping.Holds state)
    (following : State.Following state) (settling : process.settling state.shared input = true)
    (running : state.process? pid = some process)
    (moved : (process.statement state.shared input.answer).perform state.shared input.ending =
      (after, next)) : State.Following (state.update after pid next) := by
  have consistent : state.shared.Consistent := holds.global
  have knows : process.Knows state.shared := holds.locals pid process running
  intro hash tx found live id member
  rw [PoolState.shared_update] at found live
  have cases_sent : state.shared.tx? hash = some tx ∨ (input.ending ≠ .failed ∧
      (process.statement state.shared input.answer).after.tx? hash = some tx) := by
    obtain ⟨rfl, effective⟩ | ⟨_, rfl, _⟩ := Statement.perform_cases moved
    · refine .inr ⟨?_, found⟩
      rcases effective with ⟨done, _⟩ | ⟨lost, _⟩
      · simp [done]
      · simp [lost]
    · exact .inl found
  have old : state.shared.tx? hash = some tx →
      State.Follows (state.update after pid next) hash id := by
    intro before
    have liveBefore : state.shared.isLive hash = true :=
      Statement.perform_shared (fun after => after.isLive hash = true →
        state.shared.isLive hash = true) moved (fun live => live)
        (Process.statement_live knows before) live
    have follows := following hash tx before liveBefore id member
    cases process with
    | sweep sweeper =>
      exact (Sweeper.carries consistent settling before liveBefore member moved).follows follows
        running
    | reconcile point =>
      exact (ReconcilePoint.carries consistent knows settling before liveBefore member live
        moved).follows follows running
  rcases cases_sent with before | ⟨took, sent⟩
  · exact old before
  · rcases Process.statement_sent sent with before | ⟨clientId, lockValue, visit, flush, rest, rfl,
      unused, rfl, ids⟩
    · exact old before
    · -- The transaction is new, and its run goes on to mark the deposits.
      have done : input.ending = .done := by
        simp only [Process.settling, unused, took, decide_false, isSome_none, Bool.or_false,
          Bool.false_or, Bool.and_eq_true, decide_eq_true_eq] at settling
        exact settling.1
      rw [done] at moved
      have fresh : ¬ (state.shared.tx? input.answer.hash).isSome = true := by simp [unused]
      simp only [Statement.perform, Process.statement, Sweeper.statement, if_neg fresh,
        Statement.map, Prod.mk.injEq] at moved
      obtain ⟨_, rfl⟩ := moved
      exact .inl (PoolState.runs_update running ⟨rfl, ids ▸ member⟩ after)

theorem following_launch {begun : Start} (holds : bookkeeping.Holds state)
    (following : State.Following state) (settling : State.Settling state (.launch begun))
    (started : state.shared.start begun = some (after, next)) :
    State.Following (state.spawn after next) := by
  have consistent : state.shared.Consistent := holds.global
  have stays : after.deposits = state.shared.deposits → after.gasTank = state.shared.gasTank →
      ∀ {hash : TxHash} {id : Nat}, State.Follows state hash id →
        State.Follows (state.spawn after next) hash id := by
    intro deposits gasTank hash id follows
    simp only [State.Follows, PoolState.shared_spawn, Shared.Swept, Shared.Waits,
      Shared.isSubmitted, deposits, gasTank]
    rcases follows with books | swept | ⟨waits, submitted | cascades⟩
    · exact .inl (books.spawn after next)
    · exact .inr (.inl swept)
    · exact .inr (.inr ⟨waits, .inl submitted⟩)
    · exact .inr (.inr ⟨waits, .inr (cascades.spawn after next)⟩)
  intro hash tx found live id member
  rw [PoolState.shared_spawn] at found live
  cases begun with
  | sweep | reconcile | expireLock | deploy =>
    cases started
    exact stays rfl rfl (following hash tx found live id member)
  | pay forwarder tokenId amount =>
    simp only [Shared.start] at started
    split at started
    · cases started
      exact stays rfl rfl (following hash tx found live id member)
    · cases started
  | revert index =>
    simp only [Shared.start] at started
    split at started
    · cases started
      exact stays rfl rfl (following hash tx found live id member)
    · cases started
  | mine own ok =>
    obtain ⟨mined, changed, same⟩ := map_eq_some_iff.mp started
    cases same
    obtain ⟨_, sent, unmined, deposits, _, gasTank, _⟩ := inflows_mine changed
    rw [tx?_mine changed, map_eq_some_iff] at found
    obtain ⟨before, there, rfl⟩ := found
    have ids : id ∈ before.depositIds := by
      split at member <;> exact member
    refine stays deposits gasTank (following hash before there ?_ id ids)
    have ownHash := (consistent.sent there).1
    by_cases same : before.hash = own
    · -- A transaction that is mined now was live, unless it was given up or reverts.
      have sameHash : hash = own := ownHash.symm.trans same
      subst sameHash
      cases there.symm.trans sent
      rw [Shared.isLive, Shared.receipt?, tx?_mine changed, there, map_some, if_pos same]
        at live
      have succeeds : ok = true := live
      have pursued : state.shared.isGivenUp hash = false := by
        simpa [State.Settling, State.settling, succeeds] using settling
      rw [Shared.isLive, Shared.receipt?, there, bind_some, unmined]
      simp [pursued]
    · refine isLive_of_after live ?_ ?_
      · rw [Shared.receipt?, tx?_mine changed, there, map_some, if_neg same,
          Shared.receipt?, there]
      · intro _ given
        rw [Shared.isGivenUp, gasTank]
        exact given
  | insert clientId projectId index =>
    obtain ⟨inflow, _, same⟩ := map_eq_some_iff.mp started
    cases same
    have follows := following hash tx found live id member
    have kept : ∀ {row : Deposit} (fresh : Deposit), state.shared.deposits[id]? = some row →
        (state.shared.deposits ++ [fresh])[id]? = some row := fun fresh there =>
      List.getElem?_append_left (List.getElem?_eq_some_iff.mp there).1 ▸ there
    rcases follows with books | ⟨row, there, status⟩ | ⟨⟨row, there, status⟩, submitted | cascades⟩
    · exact .inl (books.spawn _ _)
    · exact .inr (.inl ⟨row, kept _ there, status⟩)
    · exact .inr (.inr ⟨⟨row, kept _ there, status⟩, .inl submitted⟩)
    · exact .inr (.inr ⟨⟨row, kept _ there, status⟩, .inr (cascades.spawn _ _)⟩)
  | track position status =>
    simp only [Shared.start] at started
    split at started
    · cases started
      have kept : ∀ {row : Deposit}, state.shared.deposits[id]? = some row →
          row.status.isUnconfirmed = false →
          (state.shared.updateDeposits (fun other row => other = position &&
            row.status.isUnconfirmed) fun row => { row with
              status := status
              wasConfirmed := row.wasConfirmed || status = .confirmed }).deposits[id]? =
            some row := by
        intro row there confirmed
        rw [getElem?_updateDeposits, there, map_some, confirmed]
        simp
      rcases following hash tx found live id member with books | ⟨row, there, own⟩ |
        ⟨⟨row, there, own⟩, submitted | cascades⟩
      · exact .inl (books.spawn _ _)
      · exact .inr (.inl ⟨row, kept there (by rw [own]; rfl), own⟩)
      · exact .inr (.inr ⟨⟨row, kept there (by rw [own.1]; rfl), own⟩, .inl submitted⟩)
      · exact .inr (.inr ⟨⟨row, kept there (by rw [own.1]; rfl), own⟩,
          .inr (cascades.spawn _ _)⟩)
    · cases started

theorem Process.Books.booking (books : process.Books hash id) : process.booking? = some hash := by
  cases process with
  | sweep sweeper =>
    obtain ⟨clientId, lockValue, point⟩ := sweeper
    cases point <;> first | exact congrArg some books.1 | exact books.elim
  | reconcile point => exact books.elim

theorem Process.Cascades.cascading (cascades : process.Cascades hash id) :
    process.cascading? = some hash := by
  cases process with
  | sweep sweeper => exact cascades.elim
  | reconcile point =>
    cases point with
    | findPending => exact congrArg some cascades
    | findTokens | readBalance | cascadeSwept => exact congrArg some cascades.1
    | findRows | getReceipt | timeOut | close | cascadeFailed | adoptOrphans =>
      exact cascades.elim

theorem following_crash {pid : Nat} (following : State.Following state)
    (settling : State.Settling state (.crash pid)) (running : state.process? pid = some process) :
    State.Following (state.update state.shared pid none) := by
  intro hash tx found live id member
  have idle : process.booking?.or process.cascading? ≠ some hash := by
    intro own
    have dead : ((process.booking?.or process.cascading?).all
        fun hash => !state.shared.isLive hash) = true := by
      simpa [State.Settling, State.settling, running] using settling
    rw [own] at dead
    have alive : state.shared.isLive hash = true := live
    simp [alive] at dead
  rcases following hash tx found live id member with books | swept | ⟨waits, submitted | cascades⟩
  · rcases books.update_cases running state.shared none with own | other
    · exact absurd (by rw [own.booking, some_or]) idle
    · exact .inl other
  · exact .inr (.inl swept)
  · exact .inr (.inr ⟨waits, .inl submitted⟩)
  · rcases cascades.update_cases running state.shared none with own | other
    · refine absurd ?_ idle
      cases process with
      | sweep sweeper => exact own.elim
      | reconcile point =>
        rw [own.cascading]
        rfl
    · exact .inr (.inr ⟨waits, .inr other⟩)

/-- As long as every step meets the condition, the deposits of a successful transaction whose run
has ended are `swept`, or `sweep_pending` while its row is followed. -/
theorem mined_sweeps_settled (reached : services.system.Reachable State.Settling state) :
    State.Settled state := by
  have joint : bookkeeping.HoldsWith State.Following state := by
    refine bookkeeping_covered reached ?_ ?_
    · intro shared initial hash tx found
      simp [Shared.tx?, initial.2.1] at found
    · intro before action later holds following settling transition
      cases action with
      | launch begun =>
        obtain ⟨shared, process, started, rfl⟩ := ProcessPool.step_launch transition
        exact following_launch holds following settling started
      | advance pid input =>
        obtain ⟨process, shared, next, running, moved, rfl⟩ :=
          ProcessPool.step_advance transition
        have settles : process.settling before.shared input = true := by
          simpa [State.Settling, State.settling, running] using settling
        exact following_advance holds following settles running (Option.some.inj moved)
      | crash pid =>
        obtain ⟨process, running, rfl⟩ := ProcessPool.step_crash transition
        exact following_crash following settling running
  intro hash tx found mined ended uncascaded id member
  have live : state.shared.isLive hash = true := by
    rw [Shared.isLive, Shared.receipt?, found, bind_some, mined]
  rcases joint.covered hash tx found live id member with ⟨pid, process, running, books⟩ |
    ⟨row, there, status⟩ | ⟨⟨row, there, status, _⟩, submitted | ⟨pid, process, running, cascades⟩⟩
  · have knows := joint.holds.locals pid process running
    have idle := PoolState.every_apply ended running
    cases process with
    | reconcile point => exact books.elim
    | sweep sweeper =>
      obtain ⟨clientId, lockValue, point⟩ := sweeper
      have sent : ∃ depositIds, state.shared.Sent hash lockValue depositIds := by
        cases point with
        | logSubmit visit flush rest own =>
          obtain ⟨rfl, _⟩ := books
          exact ⟨_, knows.2⟩
        | markPending visit flush rest own =>
          obtain ⟨rfl, _⟩ := books
          exact ⟨_, knows.2⟩
        | _ => exact books.elim
      obtain ⟨_, other, there, value, _⟩ := sent
      cases found.symm.trans there
      simp [value] at idle
  · rw [there]
    simp [Shared.settles, status]
  · rw [there]
    simp [Shared.settles, status, submitted]
  · have idle := PoolState.every_apply uncascaded running
    simp [cascades.cascading] at idle

/-- The deposit waits for the transaction, which is mined after its run has ended. -/
theorem mined_sweeps_settled_sample :
    ∃ state : State, (state.shared.sent.map SweepTx.receipt) = [some true] ∧
      State.Settled state := by
  obtain ⟨state, reached, mined⟩ : ∃ state, services.system.Reachable State.Settling state ∧
      (state.shared.sent.map SweepTx.receipt) = [some true] :=
    exists_reachable sampleSweep_initial
      (samplePayment ++ sampleSubmission ++ List.replicate 6 (sampleMove 3 .done) ++
        [.launch (.mine 100 true), .launch .reconcile] ++ List.replicate 8 (sampleMove 5 .done))
      (by decide +kernel)
  exact ⟨state, mined, mined_sweeps_settled reached⟩

/-- The event of a sweep that was broadcast and recorded cannot be published: its deposit is marked
`sweep_failed`, and the transaction is mined. -/
theorem mined_sweep_marked_failed :
    ¬ ∀ state : State, services.system.Reachable Unrestricted state → State.Settled state := by
  intro always
  obtain ⟨state, reached, sent, ended, uncascaded, unsettled⟩ : ∃ state,
      services.system.Reachable Unrestricted state ∧
      ((state.shared.tx? 100).any fun tx => tx.receipt = some true && tx.lockValue = 0 &&
          tx.depositIds = [0]) = true ∧ State.ended state 0 = true ∧
        State.uncascaded state 100 = true ∧
        (state.shared.deposits[0]?).any (state.shared.settles 100) = false :=
    exists_reachable sampleSweep_initial
      (samplePayment ++ sampleSubmission ++ List.replicate 3 (sampleMove 3 .done) ++
        [sampleMove 3 .failed] ++ List.replicate 3 (sampleMove 3 .done) ++
        [.launch (.mine 100 true)]) (by decide +kernel)
  obtain ⟨tx, found, own⟩ := (any_eq_true _ _).mp sent
  simp only [Bool.and_eq_true, decide_eq_true_eq] at own
  obtain ⟨⟨mined, value⟩, ids⟩ := own
  have settled := always state reached 100 tx found mined (value ▸ ended) uncascaded 0
    (by simp [ids])
  rw [unsettled] at settled
  cases settled

end CryptoVaultHub.Sweep
