import CryptoVaultHub.KeyVault.Rotation

/-!
# What a timely rotation leaves

While the rotation runs, a record of a table not yet listed still holds the text it was
stored for under the old password, and a record of a listed table opens under the new
one, unless its turn has not come or an error was reported. Requests keep this when
their insertions are timely, and every query of the rotation does.
-/

namespace CryptoVaultHub.KeyVault.Vault

open TransitionSystem List

/-! ## Insertions -/

/-- A record was sealed under the password of the service. -/
structure Written (settings : Settings) (record : Record) : Prop where
  encrypted : ∃ random, encryptWithPassword settings.crypto settings.kdfIterations
    record.plaintext settings.masterPassword random = some record.payload
  iterations : record.kdfIterations.getD settings.kdfIterations = settings.kdfIterations

/-- Records were added, all of them by the service, under unused keys. -/
def Grown (settings : Settings) (records later : List Record) : Prop :=
  ∃ added, later = records ++ added ∧ (∀ record ∈ added, Written settings record) ∧
    ((records.map Record.key).Nodup → (later.map Record.key).Nodup)

theorem Grown.refl (settings : Settings) (records : List Record) :
    Grown settings records records :=
  ⟨[], by simp, by simp, fun distinct => distinct⟩

variable {settings : Settings}

theorem Grown.trans {records middle later : List Record} (first : Grown settings records middle)
    (second : Grown settings middle later) : Grown settings records later := by
  obtain ⟨added, rfl, written, distinct⟩ := first
  obtain ⟨more, rfl, others, further⟩ := second
  refine ⟨added ++ more, by simp, ?_, fun start => further (distinct start)⟩
  intro record member
  rcases mem_append.mp member with early | late
  · exact written record early
  · exact others record late

variable {records : List Record} {record : Record}

theorem id_lt_nextId (stored : record ∈ records) : record.id < nextId records record.table := by
  have bound : ∀ (rows : List Record), record ∈ rows →
      record.id < rows.foldr (fun row next => max (row.id + 1) next) 1 := by
    intro rows
    induction rows with
    | nil => simp
    | cons head tail ih =>
      intro member
      simp only [foldr_cons]
      rcases mem_cons.mp member with rfl | later
      · omega
      · have := ih later
        omega
  exact bound _ (mem_filter.mpr ⟨stored, by simp⟩)

/-- The iterations a draft names are those of the service. -/
def Draft.Current (settings : Settings) (draft : Draft) : Prop :=
  draft.kdfIterations.getD settings.kdfIterations = settings.kdfIterations

theorem insertRecord_grown {records later : List Record} {draft : Draft} {random : RandomBytes}
    (current : draft.Current settings)
    (insertion : insertRecord settings records draft random = some later) :
    Grown settings records later := by
  unfold insertRecord at insertion
  split at insertion
  · cases insertion
  · obtain ⟨payload, encrypted, built⟩ := Option.bind_eq_some_iff.mp insertion
    cases built
    refine ⟨_, rfl, ?_, ?_⟩
    · intro record member
      cases mem_singleton.mp member
      exact ⟨⟨random, encrypted⟩, current⟩
    · intro distinct
      rw [map_append, nodup_append]
      refine ⟨distinct, by simp, ?_⟩
      rintro key old other new rfl
      obtain ⟨record, stored, same⟩ := mem_map.mp old
      simp only [map_cons, map_nil, mem_singleton] at new
      have table := congrArg Prod.fst (same.trans new)
      have id := congrArg Prod.snd (same.trans new)
      have below := id_lt_nextId stored
      simp only [Record.key, Record.table] at table id below
      rw [table, id] at below
      omega

theorem insertRecords_grown {records later : List Record} {random : Nat → RandomBytes}
    {drafts : List Draft} (current : ∀ draft ∈ drafts, draft.Current settings)
    (insertion : insertRecords settings records random drafts = some later) :
    Grown settings records later := by
  induction drafts generalizing records with
  | nil =>
    cases insertion
    exact .refl _ _
  | cons draft rest ih =>
    obtain ⟨middle, first, others⟩ := Option.bind_eq_some_iff.mp insertion
    have one := insertRecord_grown (current draft mem_cons_self) first
    exact one.trans (ih
      (fun other member => current other (mem_cons_of_mem _ member)) others)

theorem keyDrafts_current {mnemonic : Bytes} {keys : List (Subject × DerivationPath)}
    {drafts : List Draft} (derived : keyDrafts settings mnemonic keys = some drafts) :
    ∀ draft ∈ drafts, draft.Current settings := by
  induction keys generalizing drafts with
  | nil =>
    cases derived
    simp
  | cons key rest ih =>
    simp only [keyDrafts, mapM_cons, Option.bind_eq_bind, Option.bind_eq_some_iff,
      Option.map_eq_some_iff, Option.pure_def, Option.some.injEq] at derived
    obtain ⟨first, ⟨privateKey, _, rfl⟩, others, continued, rfl⟩ := derived
    intro draft member
    rcases mem_cons.mp member with rfl | later
    · rfl
    · exact ih continued draft later

theorem createKeys_grown (settings : Settings) (records : List Record) (answer : Answer)
    (mnemonic : Bytes) (keys : List (Subject × DerivationPath)) (next : Option Point) :
    Grown settings records (createKeys settings records answer mnemonic keys next).after := by
  unfold createKeys
  split
  · exact .refl _ _
  · rename_i later created
    obtain ⟨drafts, derived, insertion⟩ := Option.bind_eq_some_iff.mp created
    exact insertRecords_grown (keyDrafts_current derived) insertion

/-- A query of a request only adds records of the service. -/
theorem statement_grown (settings : Settings) (records : List Record) (answer : Answer)
    (point : Point) : Grown settings records (point.statement settings records answer).after := by
  cases point with
  | findMasterSeed | findGasTankSeed | checkProjectSeed | findProjectSeed | findProjectGasTankSeed
  | checkProjectGasTankKey | checkShares | findBackupKey => exact .refl _ _
  | createGasTankKey | createProjectGasTankKey => exact createKeys_grown _ _ _ _ _ _
  | createClientKeys | createProjectKeys =>
    simp only [Point.statement]
    split
    · exact .refl _ _
    · exact createKeys_grown _ _ _ _ _ _
  | createMasterSeed | createProjectSeed | createShare =>
    simp only [Point.statement]
    split
    · exact .refl _ _
    · rename_i insertion
      refine insertRecord_grown ?_ insertion
      rfl

/-! ## Passwords -/

/-- The old password opens nothing that the service sealed under another one. -/
def Settings.OldPasswordRejected (settings : Settings) : Prop :=
  settings.masterPassword ≠ settings.oldPassword →
    ∀ plaintext random payload iterations,
      encryptWithPassword settings.crypto settings.kdfIterations plaintext
        settings.masterPassword random = some payload →
      decryptWithPassword settings.crypto settings.kdfIterations payload settings.oldPassword
        iterations = none

/-- A record opens under the new password to the text it was stored for. -/
def Record.Rotated (settings : Settings) (record : Record) : Prop :=
  record.decrypt settings settings.newPassword = some record.plaintext

theorem Written.faithful (lawful : settings.crypto.Lawful) (rejected : settings.OldPasswordRejected)
    (written : Written settings record) : Faithful settings record := by
  intro text opened
  obtain ⟨⟨random, encrypted⟩, iterations⟩ := written
  by_cases same : settings.masterPassword = settings.oldPassword
  · rw [same] at encrypted
    have opens := decrypt_of_encrypt lawful encrypted iterations
    exact Option.some.inj (opened.symm.trans opens)
  · have refused := rejected same _ _ _ record.kdfIterations encrypted
    rw [Record.decrypt, refused] at opened
    cases opened

theorem Written.rotated (lawful : settings.crypto.Lawful) (written : Written settings record)
    (same : settings.masterPassword = settings.newPassword) : record.Rotated settings := by
  obtain ⟨⟨random, encrypted⟩, iterations⟩ := written
  rw [same] at encrypted
  exact decrypt_of_encrypt lawful encrypted iterations

/-! ## The loop over a table -/

/-- The listed records whose turn has not come. -/
def RotationPoint.pending : RotationPoint → List Record
  | .update _ record rest => record :: rest
  | .setVersion _ _ rest => rest
  | .verify | .findMany _ | .returned | .refused => []

/-- The records that the loop in progress still refers to. -/
def RotationPoint.loop : RotationPoint → List Record
  | .update _ record rest | .setVersion _ record rest => record :: rest
  | .verify | .findMany _ | .returned | .refused => []

@[simp] theorem continue_pending (table : Table) (pending : List Record)
    (result : RotationResult) :
    (Rotation.continue table pending result).point.pending = pending := by
  rcases pending with _ | ⟨record, rest⟩
  · cases table <;> rfl
  · rfl

@[simp] theorem continue_loop (table : Table) (pending : List Record) (result : RotationResult) :
    (Rotation.continue table pending result).point.loop = pending := by
  rcases pending with _ | ⟨record, rest⟩
  · cases table <;> rfl
  · rfl

@[simp] theorem continue_result (table : Table) (pending : List Record)
    (result : RotationResult) : (Rotation.continue table pending result).result = result := by
  rcases pending with _ | ⟨record, rest⟩
  · cases table <;> rfl
  · rfl

variable {result : RotationResult}

theorem mem_continue_listed {table other : Table} {pending : List Record} :
    other ∈ (Rotation.continue table pending result).point.listed ↔
      other ∈ table :: table.before := by
  rcases pending with _ | ⟨record, rest⟩
  · cases table <;> cases other <;>
      simp [Rotation.continue, Table.next, RotationPoint.listed, Table.before]
  · rfl

theorem not_mem_before (table : Table) : table ∉ table.before := by
  cases table <;> decide

@[simp] theorem addRotated_errors (result : RotationResult) (table : Table) :
    (result.addRotated table).errors = result.errors := by
  cases table <;> rfl

theorem addError_errors_ne (result : RotationResult) (key : Table × Nat) :
    (result.addError key).errors ≠ [] := by
  simp [RotationResult.addError]

/-- The rotation deals with one record of a table. -/
def RotationPoint.Handles (point : RotationPoint) (table : Table) (record : Record)
    (rest : List Record) : Prop :=
  point = .update table record rest ∨ point = .setVersion table record rest

/-- What holds while the rotation has not been refused. -/
structure Progress (settings : Settings) (records : List Record) (rotation : Rotation) :
    Prop where
  keys : (records.map Record.key).Nodup
  unlisted : ∀ record ∈ records, record.table ∉ rotation.point.listed → Faithful settings record
  pending : ∀ record ∈ rotation.point.pending, record ∈ records ∧ Faithful settings record
  loop : (rotation.point.loop.map Record.key).Nodup
  inTable : ∀ record ∈ rotation.point.loop, record.table ∈ rotation.point.listed
  listed : rotation.result.errors = [] → ∀ record ∈ records,
    record.table ∈ rotation.point.listed →
      record ∈ rotation.point.pending ∨ record.Rotated settings

variable {rotation : Rotation}

/-- Timely insertions keep the progress of the rotation. -/
theorem Progress.grow (lawful : settings.crypto.Lawful) (rejected : settings.OldPasswordRejected)
    {records later : List Record} (progress : Progress settings records rotation)
    (grown : Grown settings records later)
    (timely : settings.masterPassword = settings.newPassword ∨
      ∀ record ∈ later.drop records.length, record.table ∉ rotation.point.listed) :
    Progress settings later rotation := by
  obtain ⟨added, rfl, written, distinct⟩ := grown
  rw [drop_left] at timely
  constructor
  · exact distinct progress.keys
  · intro record member unlisted
    rcases mem_append.mp member with old | new
    · exact progress.unlisted record old unlisted
    · exact (written record new).faithful lawful rejected
  · intro record member
    obtain ⟨stored, faithful⟩ := progress.pending record member
    exact ⟨mem_append_left _ stored, faithful⟩
  · exact progress.loop
  · exact progress.inTable
  · intro noErrors record member listed
    rcases mem_append.mp member with old | new
    · exact progress.listed noErrors record old listed
    · rcases timely with same | early
      · exact .inr ((written record new).rotated lawful same)
      · exact absurd listed (early record new)

/-- Changing the columns of the handled record keeps the records still to come. -/
theorem mem_map_of_other {records rest : List Record} {record other : Record}
    {change : Record → Record} (distinct : ((record :: rest).map Record.key).Nodup)
    (waits : other ∈ rest) (stored : other ∈ records) :
    other ∈ updateByKey records record.key change := by
  have unlike : other.key ≠ record.key := by
    intro same
    rw [map_cons, nodup_cons] at distinct
    exact distinct.1 (same ▸ mem_map_of_mem waits)
  exact mem_map.mpr ⟨other, stored, if_neg unlike⟩

theorem map_key_updateByKey {key : Table × Nat} {change : Record → Record}
    (keeps : ∀ row, (change row).key = row.key) :
    (updateByKey records key change).map Record.key = records.map Record.key := by
  rw [updateByKey, map_map]
  refine map_congr_left ?_
  intro row _
  by_cases hit : row.key = key
  · simp only [Function.comp_apply, if_pos hit, keeps]
  · simp only [Function.comp_apply, if_neg hit]

/-- Changing the columns of the handled record keeps the progress, if it leaves the
record open under the new password or reports an error. -/
theorem Progress.handle {settings : Settings} {records : List Record} {rotation next : Rotation}
    (progress : Progress settings records rotation) {table : Table} {record : Record}
    {rest : List Record} {change : Record → Record}
    (handles : rotation.point.Handles table record rest)
    (listed : ∀ other, other ∈ next.point.listed ↔ other ∈ table :: table.before)
    (pending : next.point.pending = rest) (loop : next.point.loop.Sublist (record :: rest))
    (keeps : ∀ row, (change row).key = row.key)
    (done : next.result.errors = [] → rotation.result.errors = [] ∧
      ∀ row ∈ records, row.key = record.key → (change row).Rotated settings) :
    Progress settings (updateByKey records record.key change) next := by
  have distinct : ((record :: rest).map Record.key).Nodup := by
    have nodup := progress.loop
    rcases handles with point | point <;> simpa [point, RotationPoint.loop] using nodup
  have inTable : ∀ other ∈ record :: rest, other.table ∈ table :: table.before := by
    have tables := progress.inTable
    rcases handles with point | point <;>
      simpa [point, RotationPoint.loop, RotationPoint.listed] using tables
  have before : ∀ other, other ∈ rotation.point.listed ↔ other ∈ table :: table.before := by
    intro other
    rcases handles with point | point <;> simp [point, RotationPoint.listed]
  have waiting : ∀ other ∈ rest, other ∈ rotation.point.pending := by
    intro other member
    rcases handles with point | point <;> simp [point, RotationPoint.pending, member]
  have waited : ∀ other ∈ rotation.point.pending, other = record ∨ other ∈ rest := by
    intro other member
    rcases handles with point | point
    · simpa [point, RotationPoint.pending] using member
    · rw [point] at member
      exact .inr member
  constructor
  · rw [map_key_updateByKey keeps]
    exact progress.keys
  · intro row member unlisted
    rw [listed] at unlisted
    obtain ⟨old, stored, rfl⟩ := mem_map.mp member
    by_cases hit : old.key = record.key
    · rw [if_pos hit] at unlisted
      have table : (change old).table = record.table :=
        congrArg Prod.fst ((keeps old).trans hit)
      exact absurd (inTable record mem_cons_self) (table ▸ unlisted)
    · rw [if_neg hit] at unlisted ⊢
      exact progress.unlisted old stored (fun inside => unlisted ((before _).mp inside))
  · intro other member
    rw [pending] at member
    obtain ⟨stored, faithful⟩ := progress.pending other (waiting other member)
    exact ⟨mem_map_of_other distinct member stored, faithful⟩
  · exact (loop.map Record.key).nodup distinct
  · intro other member
    exact (listed _).mpr (inTable other (loop.subset member))
  · intro noErrors row member inside
    obtain ⟨still, rotated⟩ := done noErrors
    rw [listed] at inside
    rw [pending]
    obtain ⟨old, stored, rfl⟩ := mem_map.mp member
    by_cases hit : old.key = record.key
    · rw [if_pos hit]
      exact .inr (rotated old stored hit)
    · rw [if_neg hit] at inside ⊢
      rcases progress.listed still old stored ((before _).mpr inside) with waits | opens
      · rcases waited old waits with rfl | later
        · exact absurd rfl hit
        · exact .inl later
      · exact .inr opens

variable {table : Table} {rest : List Record}

/-- The handled record is given up with an error, whatever was written of it. -/
theorem Progress.giveUp (progress : Progress settings records rotation)
    (handles : rotation.point.Handles table record rest) (change : Record → Record)
    (keeps : ∀ row, (change row).key = row.key) (result : RotationResult) :
    Progress settings (updateByKey records record.key change)
      (.continue table rest (result.addError record.key)) := by
  refine progress.handle handles (fun _ => mem_continue_listed) (continue_pending _ _ _) ?_ keeps ?_
  · rw [continue_loop]
    exact sublist_cons_self record rest
  · intro noErrors
    rw [continue_result] at noErrors
    exact absurd noErrors (addError_errors_ne _ _)

/-- Nothing was written of the record that is given up. -/
theorem Progress.skip (progress : Progress settings records rotation)
    (handles : rotation.point.Handles table record rest) (result : RotationResult) :
    Progress settings records (.continue table rest (result.addError record.key)) := by
  have given := progress.giveUp handles id (fun _ => rfl) result
  have same : updateByKey records record.key id = records := by simp [updateByKey]
  rwa [same] at given

/-! ## The queries of the rotation -/

/-- Nothing is claimed of a refused rotation. -/
def Kept (settings : Settings) (records : List Record) (rotation : Rotation) : Prop :=
  rotation.point = .refused ∨ Progress settings records rotation

/-- One record of each key is stored. -/
theorem Progress.eq_of_key (progress : Progress settings records rotation) {first second : Record}
    (left : first ∈ records) (right : second ∈ records) (same : first.key = second.key) :
    first = second :=
  inj_on_of_nodup_map progress.keys left right same

theorem findMany_progress {records listing : List Record}
    (progress : Progress settings records ⟨.findMany table, result⟩)
    (permuted : listing.isPerm (records.filter fun record => record.table = table) = true) :
    Progress settings records (.continue table listing result) := by
  have perm := isPerm_iff.mp permuted
  have member : ∀ record, record ∈ listing ↔ record ∈ records ∧ record.table = table := by
    intro record
    rw [perm.mem_iff, mem_filter, decide_eq_true_eq]
  constructor
  · exact progress.keys
  · intro record stored unlisted
    rw [mem_continue_listed] at unlisted
    exact progress.unlisted record stored (fun inside => unlisted (mem_cons_of_mem _ inside))
  · intro record pending
    rw [continue_pending] at pending
    obtain ⟨stored, inTable⟩ := (member record).mp pending
    refine ⟨stored, progress.unlisted record stored ?_⟩
    rw [inTable]
    exact not_mem_before table
  · rw [continue_loop]
    have filtered : ((records.filter fun record => record.table = table).map Record.key).Nodup :=
      (filter_sublist.map Record.key).nodup progress.keys
    exact (perm.map Record.key).nodup_iff.mpr filtered
  · intro record pending
    rw [continue_loop] at pending
    rw [mem_continue_listed, ((member record).mp pending).2]
    exact mem_cons_self
  · intro noErrors record stored inside
    rw [continue_result] at noErrors
    rw [mem_continue_listed] at inside
    rw [continue_pending]
    rcases mem_cons.mp inside with same | before
    · exact .inl ((member record).mpr ⟨stored, same⟩)
    · rcases progress.listed noErrors record stored before with waits | opens
      · cases waits
      · exact .inr opens

theorem update_progress (lawful : settings.crypto.Lawful)
    (progress : Progress settings records ⟨.update table record rest, result⟩)
    {random : RandomBytes} {payload : EncryptedPayload}
    (rotation : rotateEncryption settings.crypto settings.kdfIterations record.payload
      settings.oldPassword settings.newPassword record.kdfIterations random = some payload) :
    Progress settings (updateByKey records record.key (.reseal settings payload))
      ⟨.setVersion table record rest, result⟩ := by
  obtain ⟨stored, faithful⟩ := progress.pending record mem_cons_self
  refine progress.handle (.inl rfl) (fun _ => .rfl) rfl (.refl _) (fun _ => rfl) ?_
  intro noErrors
  refine ⟨noErrors, ?_⟩
  intro row member same
  cases progress.eq_of_key member stored same
  have iterations : (record.kdfIterations.map fun _ => settings.kdfIterations).getD
      settings.kdfIterations = settings.kdfIterations := by
    cases record.kdfIterations <;> rfl
  obtain ⟨text, opened, rotated⟩ := decrypt_of_rotate lawful rotation iterations
  rw [faithful text opened] at rotated
  exact rotated

theorem setVersion_progress
    (progress : Progress settings records ⟨.setVersion table record rest, result⟩) :
    Progress settings (updateByKey records record.key .setVersion)
      (.continue table rest (result.addRotated table)) := by
  refine progress.handle (.inr rfl) (fun _ => mem_continue_listed) (continue_pending _ _ _) ?_
    (fun _ => rfl) ?_
  · rw [continue_loop]
    exact sublist_cons_self record rest
  · intro noErrors
    rw [continue_result, addRotated_errors] at noErrors
    refine ⟨noErrors, ?_⟩
    intro row member same
    have inside : row.table ∈ table :: table.before := by
      have equal : row.table = record.table := congrArg Prod.fst same
      rw [equal]
      exact progress.inTable record mem_cons_self
    rcases progress.listed noErrors row member inside with waits | opens
    · have distinct := progress.loop
      simp only [RotationPoint.loop, map_cons, nodup_cons] at distinct
      exact absurd (same ▸ mem_map_of_mem waits) distinct.1
    · exact opens

/-- Every query of the rotation keeps its progress, however it ends. -/
theorem rotateMasterPassword_kept (lawful : settings.crypto.Lawful) {records later : List Record}
    {answer : RotationAnswer} {statement : Statement (List Record) Rotation} {ending : Ending}
    {next : Option Rotation} (kept : Kept settings records rotation)
    (query : rotateMasterPassword settings records rotation answer = some statement)
    (performed : statement.perform records ending = (later, next)) :
    Kept settings later (next.getD rotation) := by
  obtain ⟨point, result⟩ := rotation
  rcases kept with refused | progress
  · cases refused
    cases query
  cases point with
  | verify =>
    cases query
    have start : ∀ target : RotationPoint, target = .findMany .masterSeeds ∨ target = .refused →
        Kept settings records ⟨target, result⟩ := by
      rintro target (rfl | rfl)
      · refine .inr ⟨progress.keys, ?_, by simp [RotationPoint.pending], by
          simp [RotationPoint.loop], by simp [RotationPoint.loop], ?_⟩
        · exact progress.unlisted
        · intro _ record _ inside
          cases inside
      · exact .inl rfl
    obtain ⟨rfl, ⟨_, rfl⟩ | ⟨_, rfl⟩⟩ | ⟨_, rfl, rfl⟩ := Statement.perform_cases performed
    · exact start _ (ite_eq_or_eq _ _ _)
    · exact .inl rfl
    · exact .inl rfl
  | findMany table =>
    simp only [rotateMasterPassword] at query
    split at query
    · rename_i permuted
      cases query
      obtain ⟨rfl, ⟨_, rfl⟩ | ⟨_, rfl⟩⟩ | ⟨_, rfl, rfl⟩ := Statement.perform_cases performed
      · exact .inr (findMany_progress progress permuted)
      · exact .inl rfl
      · exact .inl rfl
    · cases query
  | update table record rest =>
    have handles : RotationPoint.Handles (.update table record rest) table record rest := .inl rfl
    have failed : Kept settings records
        (.continue table rest (result.addError record.key)) :=
      .inr (progress.skip handles result)
    simp only [rotateMasterPassword] at query
    split at query
    · cases query
      obtain ⟨rfl, ⟨_, rfl⟩ | ⟨_, rfl⟩⟩ | ⟨_, rfl, rfl⟩ := Statement.perform_cases performed
      · exact failed
      · exact failed
      · exact failed
    · rename_i payload rotated
      cases query
      obtain ⟨rfl, ⟨_, rfl⟩ | ⟨_, rfl⟩⟩ | ⟨_, rfl, rfl⟩ := Statement.perform_cases performed
      · exact .inr (update_progress lawful progress rotated)
      · exact .inr (progress.giveUp handles (.reseal settings payload) (fun _ => rfl) result)
      · exact failed
  | setVersion table record rest =>
    have handles : RotationPoint.Handles (.setVersion table record rest) table record rest :=
      .inr rfl
    cases query
    obtain ⟨rfl, ⟨_, rfl⟩ | ⟨_, rfl⟩⟩ | ⟨_, rfl, rfl⟩ := Statement.perform_cases performed
    · exact .inr (setVersion_progress progress)
    · exact .inr (progress.giveUp handles .setVersion (fun _ => rfl) result)
    · exact .inr (progress.skip handles result)
  | returned | refused => cases query

/-! ## Runs -/

theorem step_kept (lawful : settings.crypto.Lawful) (rejected : settings.OldPasswordRejected)
    {state next : State} {action : Action} (kept : Kept settings state.records state.rotation)
    (timely : Timely settings state action) (transition : step settings state action = some next) :
    Kept settings next.records next.rotation := by
  cases action with
  | rotate ending answer =>
    obtain ⟨statement, query, rfl⟩ := Option.map_eq_some_iff.mp transition
    exact rotateMasterPassword_kept lawful kept query rfl
  | begin request =>
    cases transition
    exact kept
  | advance index ending answer =>
    rw [Timely, inserted, transition] at timely
    obtain ⟨point, _, rfl⟩ := Option.map_eq_some_iff.mp transition
    rcases kept with refused | progress
    · exact .inl refused
    · have grown : Grown settings state.records
          ((point.statement settings state.records answer).perform state.records ending).1 :=
        Statement.perform_shared (Grown settings state.records) rfl (.refl _ _)
          (statement_grown settings state.records answer point)
      exact .inr (progress.grow lawful rejected grown timely)

theorem initial_kept {state : State} (initial : state.Initial settings) :
    Kept settings state.records state.rotation := by
  refine .inr ?_
  rw [initial.rotation]
  constructor
  · exact initial.keys
  · exact fun record stored _ => initial.faithful record stored
  · simp [RotationPoint.pending]
  · simp [RotationPoint.loop]
  · simp [RotationPoint.loop]
  · intro _ record _ inside
    cases inside

/-- In every run whose insertions are timely, the rotation that returns without an
error leaves every record open under the new password to its original text. -/
theorem rotated_records_open {settings : Settings} (lawful : settings.crypto.Lawful)
    (rejected : settings.OldPasswordRejected) {state : State}
    (reached : (system settings).Reachable (Timely settings) state)
    (returned : state.rotation.point = .returned) (noErrors : state.rotation.result.errors = []) :
    ∀ record ∈ state.records,
      record.decrypt settings settings.newPassword = some record.plaintext := by
  have kept : Kept settings state.records state.rotation := by
    refine reached.invariant (fun start => initial_kept) ?_
    exact fun state action next kept timely transition =>
      step_kept lawful rejected kept timely transition
  rcases kept with refused | progress
  · rw [returned] at refused
    cases refused
  · intro record stored
    have inside : record.table ∈ state.rotation.point.listed := by
      rw [returned]
      cases record.table <;> decide
    rcases progress.listed noErrors record stored inside with waits | opens
    · rw [returned] at waits
      cases waits
    · exact opens

/-! ## A vault with toy primitives -/

/-- A text pads to a key. -/
def toyKey (bytes : Bytes) : Bytes := (bytes ++ List.replicate 32 0).take 32

/-- Keys are padded passwords, and a tag is the front of its key. -/
def toyCrypto : Crypto where
  pbkdf2 password _ _ := some (toyKey (password.toList.map fun c => UInt8.ofNat c.toNat))
  gcmEncrypt key _ text := (text, (toyKey key).take 16)
  gcmDecrypt key _ ciphertext authTag :=
    if authTag = (toyKey key).take 16 then some ciphertext else none

theorem toyCrypto_lawful : toyCrypto.Lawful := by
  constructor
  · intro key iv text
    rfl
  · intro key iv text
    simp only [toyCrypto, toyKey, length_take, length_append, length_replicate]
    omega
  · intro key iv text
    simp [toyCrypto]

/-- The service runs with the old password. -/
def toySettings : Settings where
  crypto := toyCrypto
  privateKey mnemonic _ := some mnemonic
  projectExists _ := true
  kdfIterations := 600000
  masterPassword := "old"
  oldPassword := "old"
  newPassword := "new"

theorem toySettings_rejected : toySettings.OldPasswordRejected := fun different =>
  absurd rfl different

def toyRandom : RandomBytes where
  dek := List.replicate 32 1
  salt := []
  iv := []
  dekIv := List.replicate 12 2
  length_dek := by decide
  length_dekIv := by decide

def toyAnswer : Answer := ⟨fun _ => toyRandom, [7, 7], fun _ => [], 0⟩

def emptyVault : State := ⟨[], ⟨.verify, .empty⟩, []⟩

theorem emptyVault_initial : emptyVault.Initial toySettings :=
  ⟨by simp [emptyVault], by simp [emptyVault], rfl, rfl⟩

/-- The record of the seed of project 5, as the service stores it. -/
def toySeed : Record where
  id := 1
  subject := .projectSeed 5
  isActive := true
  payload := (encryptWithPassword toyCrypto 600000 [7, 7] "old" toyRandom).getD
    ⟨[], [], [], [], []⟩
  kdfIterations := some 600000
  keyVersion := 1
  plaintext := [7, 7]

/-- A query of the rotation that succeeds. -/
def rotates (listing : List Record) : Action := .rotate .done ⟨toyRandom, listing⟩

/-- A query of the first request that succeeds. -/
def requests : Action := .advance 0 .done toyAnswer

/-- The seed is stored before the rotation and rotated. -/
theorem rotated_records_open_sample :
    ∃ state : State, state.records.length = 1 ∧ ∀ record ∈ state.records,
      record.decrypt toySettings "new" = some record.plaintext := by
  obtain ⟨state, reached, returned, noErrors, one⟩ : ∃ state,
      (system toySettings).Reachable (Timely toySettings) state ∧
      state.rotation.point = .returned ∧ state.rotation.result.errors = [] ∧
        state.records.length = 1 :=
    exists_reachable emptyVault_initial
      [.begin (.generateProjectSeed 5), requests, requests, rotates [], rotates [],
        rotates [toySeed], rotates [], rotates [], rotates [], rotates []] (by decide +kernel)
  exact ⟨state, one, rotated_records_open toyCrypto_lawful toySettings_rejected reached returned
    noErrors⟩

/-- The seed is stored when the rotation has listed the seeds of projects: the rotation
reports no error and never sees it. -/
theorem record_left_behind :
    ¬ ∀ (settings : Settings) (state : State), settings.crypto.Lawful →
      settings.OldPasswordRejected → (system settings).Reachable Unrestricted state →
      state.rotation.point = .returned → state.rotation.result.errors = [] →
      ∀ record ∈ state.records,
        record.decrypt settings settings.newPassword = some record.plaintext := by
  intro always
  obtain ⟨state, reached, returned, noErrors, record, stored, unopened⟩ : ∃ state,
      (system toySettings).Reachable Unrestricted state ∧
      state.rotation.point = .returned ∧ state.rotation.result.errors = [] ∧
        ∃ record ∈ state.records, record.decrypt toySettings "new" = none :=
    exists_reachable emptyVault_initial
      [.begin (.generateProjectSeed 5), rotates [], rotates [], rotates [], requests, requests,
        rotates [], rotates []] (by decide +kernel)
  have opens := always toySettings state toyCrypto_lawful toySettings_rejected reached returned
    noErrors record stored
  have unlike := opens.symm.trans unopened
  cases unlike

end CryptoVaultHub.KeyVault.Vault
