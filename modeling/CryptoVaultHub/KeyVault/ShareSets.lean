import CryptoVaultHub.KeyVault.ShareSplitting
import CryptoVaultHub.KeyVault.RotationSafety

/-!
# Whole sets of shares

`shares_whole`: as long as no split stops between its first row and its last one, and no first row
without a project goes where rows are, the rows of a client and project are none, or the complete
set of one split of one secret. With a project, the unique key turns away a second split at its first
row; without one, two splits mix.
-/

namespace CryptoVaultHub.KeyVault.Shamir

open TransitionSystem Vault List Option

variable {settings : Vault.Settings} {sharing : SecretSharing} {store : Store} {scope : Scope}
  {split : Split} {shares : List Bytes} {index : Nat} {row : ShamirShare}

/-! ## Rows -/

theorem sharesOf_create (row : ShamirShare) (scope : Scope) :
    (store.create row).sharesOf scope =
      store.sharesOf scope ++ if row.scope = scope then [row] else [] := by
  simp only [Store.sharesOf, Store.create, filter_append, filter_cons, filter_nil]
  by_cases same : row.scope = scope
  · simp [same]
  · simp [same]

variable {random : RandomBytes}

theorem Split.scope_row (built : split.row settings shares index random = some row) :
    row.scope = split.scope ∧ row.shareIndex = index + 1 := by
  obtain ⟨share, _, rest⟩ := bind_eq_some_iff.mp built
  obtain ⟨custodian, _, rest⟩ := bind_eq_some_iff.mp rest
  obtain ⟨payload, _, same⟩ := bind_eq_some_iff.mp rest
  cases same
  exact ⟨rfl, rfl⟩

theorem Split.Wrote.nil : split.Wrote settings shares [] := by
  intro index row found
  simp at found

/-- One more row. -/
theorem Split.Wrote.snoc {rows : List ShamirShare} (wrote : split.Wrote settings shares rows)
    (built : split.row settings shares rows.length random = some row) :
    split.Wrote settings shares (rows ++ [row]) := by
  intro position later found
  by_cases before : position < rows.length
  · rw [getElem?_append_left before] at found
    exact wrote position later found
  · rw [getElem?_append_right (Nat.le_of_not_lt before), getElem?_singleton] at found
    split at found
    · rename_i first
      cases found
      have last : position = rows.length := by omega
      exact ⟨random, last ▸ built⟩
    · cases found

/-- Rows from the first one on have a row of the first share. -/
theorem Split.Wrote.first {rows : List ShamirShare} (wrote : split.Wrote settings shares rows)
    (nonempty : rows ≠ []) : ∃ row ∈ rows, row.shareIndex = 1 := by
  have inside := length_pos_iff.mpr nonempty
  obtain ⟨random, built⟩ := wrote 0 rows[0] (getElem?_eq_getElem inside)
  exact ⟨rows[0], getElem_mem inside, (Split.scope_row built).2⟩

/-! ## The outline -/

/-- What a point relies on: a split that has inserted rows has inserted all rows that are there. -/
def SplitPoint.Knows (settings : Vault.Settings) (sharing : SecretSharing) (store : Store) :
    SplitPoint → Prop
  | .checkShares _ | .findBackupKey _ => True
  | .createShare split shares index =>
    index < shares.length ∧
      (∃ secret entropy,
        sharing.share secret split.totalShares split.threshold entropy = some shares) ∧
      (0 < index → (store.sharesOf split.scope).length = index ∧
        split.Wrote settings shares (store.sharesOf split.scope))

/-- No two splits insert rows of one scope at once. -/
def splitting (settings : Vault.Settings) (sharing : SecretSharing) :
    ProofOutline Store SplitPoint where
  Global _ := True
  Local := SplitPoint.Knows settings sharing
  Apart left right := ∀ scope, left.inserts scope = true → right.inserts scope = false
  apart_symm := by
    intro left right apart scope inserts
    by_contra other
    rw [apart scope (by simpa using other)] at inserts
    cases inserts

variable {point : SplitPoint} {after : Store}

/-- A point relies on the rows of its own scope alone. -/
theorem SplitPoint.Knows.of_scope (knows : point.Knows settings sharing store)
    (same : ∀ scope, point.inserts scope = true → after.sharesOf scope = store.sharesOf scope) :
    point.Knows settings sharing after := by
  cases point with
  | checkShares | findBackupKey => trivial
  | createShare split shares index =>
    refine ⟨knows.1, knows.2.1, ?_⟩
    intro positive
    rw [same split.scope (by simp [SplitPoint.inserts, positive])]
    exact knows.2.2 positive

theorem nextShare_some (goes : SplitPoint.nextShare split shares index = some point) :
    index < shares.length ∧ point = .createShare split shares index := by
  rw [SplitPoint.nextShare] at goes
  split at goes
  · rename_i more
    exact ⟨more, (Option.some.inj goes).symm⟩
  · cases goes

variable {state : State}

/-- Rows that are there include one of the first share. -/
theorem exists_first (holds : (splitting settings sharing).Holds state)
    (whole : state.Whole settings sharing) (stored : state.shared.sharesOf scope ≠ []) :
    ∃ row ∈ state.shared.sharesOf scope, row.shareIndex = 1 := by
  by_cases inserting : state.Runs fun point => point.inserts scope = true
  · obtain ⟨pid, point, running, inserts⟩ := inserting
    have knows : point.Knows settings sharing state.shared := holds.locals pid point running
    cases point with
    | checkShares | findBackupKey => cases inserts
    | createShare split shares index =>
      simp only [SplitPoint.inserts, Bool.and_eq_true, decide_eq_true_eq] at inserts
      obtain ⟨rfl, positive⟩ := inserts
      exact (knows.2.2 positive).2.first stored
  · rcases whole scope inserting with none | ⟨split, secret, entropy, shares, _, _, _, wrote⟩
    · exact absurd none stored
    · exact wrote.first stored

/-- With a project, a first row that is accepted finds none. -/
theorem sharesOf_eq_nil (holds : (splitting settings sharing).Holds state)
    (whole : state.Whole settings sharing) (built : split.row settings shares 0 random = some row)
    (accepted : state.shared.accepts row = true) (project : split.projectId.isSome = true) :
    state.shared.sharesOf split.scope = [] := by
  by_contra stored
  obtain ⟨first, member, position⟩ := exists_first holds whole stored
  obtain ⟨inside, same⟩ := mem_filter.mp member
  obtain ⟨own, index⟩ := Split.scope_row built
  have projectId : row.projectId = split.projectId := congrArg Prod.snd own
  have clashes : row.conflicts first = true := by
    simp [ShamirShare.conflicts, projectId, project, own, of_decide_eq_true same, index, position]
  have free : state.shared.shares.any row.conflicts = false := by
    simpa using ((Bool.and_eq_true _ _).mp accepted).2
  rw [any_eq_true.mpr ⟨first, inside, clashes⟩] at free
  cases free

/-! ## A statement -/

variable {input : Input Answer} {next : Option SplitPoint}

/-- A statement of `createShare` inserts its row at the end of the rows of its scope, or it leaves
everything and the split has inserted nothing. -/
theorem createShare_cases (holds : (splitting settings sharing).Holds state)
    (whole : state.Whole settings sharing)
    (knows : SplitPoint.Knows settings sharing state.shared (.createShare split shares index))
    (proceeds : SplitPoint.proceeds settings state.shared input (.createShare split shares index) =
      true)
    (performed : (SplitPoint.statement settings sharing state.shared
      (.createShare split shares index) input.answer).perform state.shared input.ending =
        (after, next)) :
    (∃ row, after = state.shared.create row ∧ row.scope = split.scope ∧
      (state.shared.sharesOf split.scope).length = index ∧
      split.Wrote settings shares (state.shared.sharesOf split.scope ++ [row]) ∧
      (next = SplitPoint.nextShare split shares (index + 1) ∨
        (next = none ∧ index + 1 = shares.length))) ∨
      (after = state.shared ∧ next = none ∧ index = 0) := by
  simp only [SplitPoint.proceeds] at proceeds
  cases built : (split.row settings shares index input.answer.random).filter
      state.shared.accepts with
  | none =>
    simp only [built, isSome_none, Bool.false_eq_true, and_false, if_false,
      decide_eq_true_eq] at proceeds
    simp only [SplitPoint.statement, built] at performed
    right
    cases ending : input.ending <;> rw [ending] at performed <;> cases performed <;>
      exact ⟨rfl, rfl, proceeds⟩
  | some row =>
    obtain ⟨rows, accepted⟩ := filter_eq_some_iff.mp built
    simp only [SplitPoint.statement, built] at performed
    by_cases failed : input.ending = .failed
    · simp only [failed, ne_eq, not_true_eq_false, false_and, if_false,
        decide_eq_true_eq] at proceeds
      rw [failed] at performed
      cases performed
      exact .inr ⟨rfl, rfl, proceeds⟩
    · simp only [failed, ne_eq, not_false_eq_true, built, isSome_some, and_self, if_true,
        Bool.and_eq_true, Bool.or_eq_true, decide_eq_true_eq] at proceeds
      have own : (state.shared.sharesOf split.scope).length = index ∧
          split.Wrote settings shares (state.shared.sharesOf split.scope) := by
        by_cases positive : 0 < index
        · exact knows.2.2 positive
        · have first : index = 0 := by omega
          subst first
          have none : state.shared.sharesOf split.scope = [] := by
            rcases proceeds.1 with (more | project) | none
            · omega
            · exact sharesOf_eq_nil holds whole rows accepted project
            · exact none
          rw [none]
          exact ⟨rfl, .nil⟩
      left
      refine ⟨row, ?_, (Split.scope_row rows).1, own.1, own.2.snoc (own.1.symm ▸ rows), ?_⟩
      · cases ending : input.ending <;> rw [ending] at performed failed <;> cases performed
        · rfl
        · exact absurd rfl failed
        · rfl
      · cases ending : input.ending with
        | done =>
          rw [ending] at performed
          cases performed
          exact .inl rfl
        | failed => exact absurd ending failed
        | lost =>
          rw [ending] at performed proceeds
          cases performed
          exact .inr ⟨rfl, by simpa using proceeds.2⟩

/-- A point before the first row. -/
structure SplitPoint.Idle (settings : Vault.Settings) (sharing : SecretSharing) (store : Store)
    (point : SplitPoint) : Prop where
  knows : point.Knows settings sharing store
  idle : ∀ scope, point.inserts scope = false

/-- A statement of the other points, which inserts nothing. -/
theorem statement_reads (other : ∀ split shares index, point ≠ .createShare split shares index)
    (performed : (point.statement settings sharing store input.answer).perform store input.ending =
      (after, next)) :
    after = store ∧ ∀ later, next = some later → later.Idle settings sharing after := by
  cases point with
  | createShare split shares index => exact absurd rfl (other split shares index)
  | checkShares split =>
    have same : after = store := Statement.perform_shared (· = store) performed rfl rfl
    refine ⟨same, ?_⟩
    refine @Statement.perform_process _ _ (SplitPoint.Idle settings sharing) _ _ _ _ _ performed ?_
      fun _ thrown => by cases thrown
    intro later goes
    simp only [SplitPoint.statement] at goes
    split at goes
    · cases goes
      exact ⟨trivial, fun _ => rfl⟩
    · cases goes
  | findBackupKey split =>
    have same : after = store := Statement.perform_shared (· = store) performed rfl rfl
    refine ⟨same, ?_⟩
    refine @Statement.perform_process _ _ (SplitPoint.Idle settings sharing) _ _ _ _ _ performed ?_
      fun _ thrown => by cases thrown
    intro later goes
    obtain ⟨key, _, rest⟩ := bind_eq_some_iff.mp goes
    obtain ⟨privateKey, _, rest⟩ := bind_eq_some_iff.mp rest
    obtain ⟨shares, shared, rest⟩ := bind_eq_some_iff.mp rest
    obtain ⟨more, rfl⟩ := nextShare_some rest
    refine ⟨⟨more, ⟨privateKey, input.answer.entropy, shared⟩, by simp⟩, ?_⟩
    intro scope
    simp [SplitPoint.inserts]

/-! ## Along runs -/

/-- A split whose rows are those of its scope is the only one that inserts there. -/
theorem inserts_alone {pid other : Nat} (holds : (splitting settings sharing).Holds state)
    (running : state.process? pid = some (.createShare split shares index))
    (rows : (state.shared.sharesOf split.scope).length = index) (different : other ≠ pid)
    (runs : state.process? other = some point) : point.inserts split.scope = false := by
  by_contra inserts
  have inserts : point.inserts split.scope = true := by simpa using inserts
  by_cases positive : 0 < index
  · have apart : ∀ scope, point.inserts scope = true →
        SplitPoint.inserts scope (.createShare split shares index) = false :=
      holds.apart other pid point _ different runs running
    have own := apart split.scope inserts
    simp [SplitPoint.inserts, positive] at own
  · cases point with
    | checkShares | findBackupKey => cases inserts
    | createShare second pieces position =>
      have knows : SplitPoint.Knows settings sharing state.shared
          (.createShare second pieces position) := holds.locals other _ runs
      simp only [SplitPoint.inserts, Bool.and_eq_true, decide_eq_true_eq] at inserts
      have length := (knows.2.2 inserts.2).1
      rw [inserts.1, rows] at length
      omega

theorem create_knows (knows : point.Knows settings sharing state.shared)
    (other : point.inserts row.scope = false) :
    point.Knows settings sharing (state.shared.create row) := by
  refine knows.of_scope ?_
  intro scope inserts
  have different : row.scope ≠ scope := by
    intro same
    rw [same, inserts] at other
    cases other
  rw [sharesOf_create, if_neg different, append_nil]

variable {before : SplitPoint}

theorem advance_keeps {pid : Nat} (holds : (splitting settings sharing).Holds state)
    (whole : state.Whole settings sharing)
    (proceeds : before.proceeds settings state.shared input = true)
    (running : state.process? pid = some before)
    (performed : (before.statement settings sharing state.shared input.answer).perform state.shared
      input.ending = (after, next)) : (splitting settings sharing).Keeps state pid after next := by
  have unchanged : after = state.shared →
      (∀ later, next = some later → later.Idle settings sharing after) →
        (splitting settings sharing).Keeps state pid after next := by
    rintro rfl fresh
    refine ⟨trivial, fun later goes => (fresh later goes).knows,
      fun other point _ runs => holds.locals other point runs, ?_⟩
    intro later other right goes _ _ scope inserts
    rw [(fresh later goes).idle scope] at inserts
    cases inserts
  cases before with
  | checkShares | findBackupKey =>
    obtain ⟨same, fresh⟩ := statement_reads (by simp) performed
    exact unchanged same fresh
  | createShare split shares index =>
    have knows : SplitPoint.Knows settings sharing state.shared
        (.createShare split shares index) := holds.locals pid _ running
    rcases createShare_cases holds whole knows proceeds performed with
      ⟨row, rfl, own, rows, wrote, ends⟩ | ⟨same, none, _⟩
    · have others : ∀ other point, other ≠ pid → state.process? other = some point →
          point.inserts row.scope = false := fun other point different runs =>
        own ▸ inserts_alone holds running rows different runs
      have later : ∀ point, next = some point → index + 1 < shares.length ∧
          point = .createShare split shares (index + 1) := by
        intro point goes
        rcases ends with same | ⟨none, _⟩
        · exact nextShare_some (same.symm.trans goes)
        · rw [none] at goes
          cases goes
      refine ⟨trivial, ?_, ?_, ?_⟩
      · intro point goes
        obtain ⟨more, rfl⟩ := later point goes
        refine ⟨more, knows.2.1, fun _ => ?_⟩
        rw [sharesOf_create, if_pos own]
        exact ⟨by simp [rows], wrote⟩
      · intro other point different runs
        exact create_knows (holds.locals other point runs) (others other point different runs)
      · intro point other right goes different runs scope inserts
        obtain ⟨_, rfl⟩ := later point goes
        simp only [SplitPoint.inserts, Bool.and_eq_true, decide_eq_true_eq] at inserts
        rw [← inserts.1, ← own]
        exact others other right different runs
    · refine unchanged same ?_
      intro later goes
      rw [none] at goes
      cases goes

/-- A scope where nothing changes stays whole, if the acting split inserts nothing there. -/
theorem whole_update {pid : Nat} (whole : state.Whole settings sharing)
    (running : state.process? pid = some before)
    (same : after.sharesOf scope = state.shared.sharesOf scope)
    (idle : before.inserts scope = false)
    (quiet : ¬ (state.update after pid next).Runs fun point => point.inserts scope = true) :
    after.sharesOf scope = [] ∨ Complete settings sharing scope (after.sharesOf scope) := by
  rw [same]
  refine whole scope ?_
  intro runs
  rcases runs.update_cases running after next with inserts | still
  · rw [idle] at inserts
    cases inserts
  · exact quiet still

theorem whole_advance {pid : Nat} (holds : (splitting settings sharing).Holds state)
    (whole : state.Whole settings sharing)
    (proceeds : before.proceeds settings state.shared input = true)
    (running : state.process? pid = some before)
    (performed : (before.statement settings sharing state.shared input.answer).perform state.shared
      input.ending = (after, next)) :
    State.Whole settings sharing (state.update after pid next) := by
  intro scope quiet
  cases before with
  | checkShares | findBackupKey =>
    obtain ⟨same, _⟩ := statement_reads (by simp) performed
    have rows : after.sharesOf scope = state.shared.sharesOf scope := by rw [same]
    exact whole_update whole running rows rfl quiet
  | createShare split shares index =>
    have knows : SplitPoint.Knows settings sharing state.shared
        (.createShare split shares index) := holds.locals pid _ running
    rcases createShare_cases holds whole knows proceeds performed with
      ⟨row, rfl, own, rows, wrote, ends⟩ | ⟨same, _, first⟩
    · by_cases here : split.scope = scope
      · right
        obtain ⟨inside, ⟨secret, entropy, shared⟩, _⟩ := knows
        have last : index + 1 = shares.length := by
          rcases ends with goes | ⟨_, last⟩
          · rw [SplitPoint.nextShare] at goes
            split at goes
            · refine absurd ?_ quiet
              rw [goes]
              exact PoolState.runs_update running (by simp [SplitPoint.inserts, here]) _
            · omega
          · exact last
        rw [← here, PoolState.shared_update, sharesOf_create, if_pos own]
        refine ⟨split, secret, entropy, shares, rfl, shared, ?_, wrote⟩
        have length := sharing.length_share shared
        rw [length_append, rows, length_singleton]
        omega
      · have different : row.scope ≠ scope := own ▸ here
        have unchanged : (state.shared.create row).sharesOf scope =
            state.shared.sharesOf scope := by
          rw [sharesOf_create, if_neg different, append_nil]
        exact whole_update whole running unchanged (by simp [SplitPoint.inserts, here]) quiet
    · have unchanged : after.sharesOf scope = state.shared.sharesOf scope := by rw [same]
      exact whole_update whole running unchanged (by simp [SplitPoint.inserts, first]) quiet

/-- As long as no split stops between its first row and its last one, and no first row without a
project goes where rows are, the rows of a client and project are none or a complete set wherever no
split is inserting them. -/
theorem shares_whole {state : State}
    (reached : (splits settings sharing).system.Reachable (State.Orderly settings) state) :
    state.Whole settings sharing := by
  have joint : (splitting settings sharing).HoldsWith (State.Whole settings sharing) state := by
    refine ProofOutline.reachable_with reached ?_ ?_ ?_ ?_
    · intro store initial
      refine ⟨trivial, fun scope _ => .inl ?_⟩
      have empty : store.shares = [] := initial
      simp [Store.sharesOf, empty]
    · intro before begun store point holds _ _ started
      cases begun with
      | splitBackupKey split =>
        cases started
        refine ⟨trivial, ?_, fun other point _ runs => holds.locals other point runs, ?_⟩
        · intro point goes
          split at goes
          · cases goes
            trivial
          · cases goes
        · intro point other right goes _ _ scope inserts
          split at goes
          · cases goes
            cases inserts
          · cases goes
      | changeKeys keys =>
        cases started
        exact ⟨trivial, by simp, fun other point _ runs =>
          SplitPoint.Knows.of_scope (holds.locals other point runs) fun _ _ => rfl, by simp⟩
    · intro before pid point input store next holds whole allowed running moved
      have proceeds : point.proceeds settings before.shared input = true := by
        simpa [State.Orderly, State.orderly, running] using allowed
      exact advance_keeps holds whole proceeds running (Option.some.inj moved)
    · intro before action later holds whole allowed transition
      cases action with
      | launch begun =>
        obtain ⟨store, point, started, rfl⟩ := ProcessPool.step_launch transition
        have same : ∀ scope, store.sharesOf scope = before.shared.sharesOf scope := by
          intro scope
          cases begun <;> cases started <;> rfl
        intro scope quiet
        rw [PoolState.shared_spawn, same scope]
        exact whole scope fun runs => quiet (runs.spawn store point)
      | advance pid input =>
        obtain ⟨point, store, next, running, moved, rfl⟩ := ProcessPool.step_advance transition
        have proceeds : point.proceeds settings before.shared input = true := by
          simpa [State.Orderly, State.orderly, running] using allowed
        exact whole_advance holds whole proceeds running (Option.some.inj moved)
      | crash pid =>
        obtain ⟨point, running, rfl⟩ := ProcessPool.step_crash transition
        have stops : point.mayStop = true := by
          simpa [State.Orderly, State.orderly, running] using allowed
        intro scope quiet
        refine whole_update whole running rfl ?_ quiet
        cases point with
        | checkShares | findBackupKey => rfl
        | createShare split shares index =>
          have first : index = 0 := of_decide_eq_true stops
          simp [SplitPoint.inserts, first]
  exact joint.covered

/-! ## A client with one backup key -/

/-- A share is its number and the secret. -/
def toySharing : SecretSharing where
  share secret numShares threshold _ :=
    if 2 ≤ threshold ∧ threshold ≤ numShares ∧ numShares ≤ 255 then
      some ((List.range numShares).map fun index => UInt8.ofNat (index + 1) :: secret)
    else none
  length_share := by
    intro secret numShares threshold entropy shares shared
    split at shared
    · cases shared
      simp
    · cases shared

/-- The backup key of client 7. -/
def toyBackupKey : Record where
  id := 1
  subject := .derivedKey 7 none .backup .evm
  isActive := true
  payload := (encryptWithPassword toyCrypto 600000 [7, 7] "old" toyRandom).getD
    ⟨[], [], [], [], []⟩
  kdfIterations := none
  keyVersion := 1
  plaintext := [7, 7]

def sampleStore : Store := ⟨[toyBackupKey], []⟩

/-- A statement that takes effect. -/
def sampleMove (pid : Nat) : Action := .advance pid ⟨.done, ⟨0, 0, toyRandom⟩⟩

def sampleSplit : Action := .launch (.splitBackupKey (.default 7 none))

/-- A second split is refused. -/
theorem shares_whole_sample :
    ∃ state : State, state.shared.shares.map ShamirShare.shareIndex = [1, 2, 3, 4, 5] ∧
      state.Whole toySettings toySharing := by
  have replayed : ∃ state,
      (splits toySettings toySharing).system.Reachable (State.Orderly toySettings) state ∧
      decide (state.shared.shares.map ShamirShare.shareIndex = [1, 2, 3, 4, 5]) = true :=
    @exists_reachable_of_run _ _ (splits toySettings toySharing).system _ _ ⟨sampleStore, []⟩
      ⟨rfl, rfl⟩ (sampleSplit :: List.replicate 7 (sampleMove 0) ++ [sampleSplit, sampleMove 1])
      (fun state : State => state.shared.shares.map ShamirShare.shareIndex = [1, 2, 3, 4, 5])
      (by decide +kernel)
  obtain ⟨state, reached, found⟩ := replayed
  exact ⟨state, of_decide_eq_true found, shares_whole reached⟩

/-- Two splits without a project find no shares, and both insert theirs. -/
theorem splits_mixed :
    ¬ ∀ (settings : Vault.Settings) (sharing : SecretSharing) (state : State),
      (splits settings sharing).system.Reachable Unrestricted state →
        state.Whole settings sharing := by
  intro always
  have replayed : ∃ state, (splits toySettings toySharing).system.Reachable Unrestricted state ∧
      decide (state.processes.all Option.isNone = true ∧
        (state.shared.sharesOf (7, none)).map ShamirShare.shareIndex =
          [1, 2, 3, 4, 5, 1, 2, 3, 4, 5]) = true :=
    @exists_reachable_of_run _ _ (splits toySettings toySharing).system _ _ ⟨sampleStore, []⟩
      ⟨rfl, rfl⟩ ([sampleSplit, sampleSplit, sampleMove 0, sampleMove 1] ++
        List.replicate 6 (sampleMove 0) ++ List.replicate 6 (sampleMove 1))
      (fun state : State => state.processes.all Option.isNone = true ∧
        (state.shared.sharesOf (7, none)).map ShamirShare.shareIndex =
          [1, 2, 3, 4, 5, 1, 2, 3, 4, 5]) (by decide +kernel)
  obtain ⟨state, reached, found⟩ := replayed
  obtain ⟨ended, indices⟩ := of_decide_eq_true found
  have quiet : ¬ state.Runs fun point => point.inserts (7, none) = true := by
    rw [PoolState.runs_iff_mem]
    rintro ⟨process, member, point, running, _⟩
    have none := all_eq_true.mp ended process member
    rw [mem_def.mp running] at none
    cases none
  rcases always toySettings toySharing state reached (7, none) quiet with
    empty | ⟨split, secret, entropy, shares, _, _, _, wrote⟩
  · rw [empty] at indices
    cases indices
  · have sixth := congrArg (fun list => list[5]?) indices
    simp only [getElem?_map] at sixth
    obtain ⟨row, there, index⟩ := map_eq_some_iff.mp sixth
    obtain ⟨random, built⟩ := wrote 5 row there
    rw [(Split.scope_row built).2] at index
    cases index

end CryptoVaultHub.KeyVault.Shamir
