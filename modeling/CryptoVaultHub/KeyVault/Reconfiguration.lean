import CryptoVaultHub.KeyVault.RotationSafety

/-!
# Changing the iterations

A seed is stored with the iterations that it was sealed with; a derived key or a share is not, and
its readers take those that are configured. Requests, rotations and restarts with other iterations
follow each other; after a rotation without errors the operator puts the new password into the
configuration. `configured_records_open` says when the iterations can change.
-/

namespace CryptoVaultHub.KeyVault.Vault

open TransitionSystem List Option

/-! ## The service -/

/-- The records, and what the service is configured with. -/
structure Service where
  records : List Record
  kdfIterations : Nat
  masterPassword : String

/-- The settings of a request. -/
def Service.settings (service : Service) (settings : Settings) : Settings :=
  { settings with
    kdfIterations := service.kdfIterations
    masterPassword := service.masterPassword }

/-- The settings of a rotation. -/
def Settings.rotating (settings : Settings) (oldPassword newPassword : String) : Settings :=
  { settings with oldPassword := oldPassword, newPassword := newPassword }

/-- A request, up to its end or to a crash. -/
def serve (settings : Settings) : List (Input Answer) → Option Point → List Record → List Record
  | [], _, records | _, none, records => records
  | input :: inputs, some point, records =>
    let (after, next) :=
      (point.statement settings records input.answer).perform records input.ending
    serve settings inputs next after

/-- A rotation on its own; each of its queries takes effect. -/
def rotateAll (settings : Settings) : List RotationAnswer → List Record → Rotation →
    Option (List Record × Rotation)
  | [], records, rotation => some (records, rotation)
  | answer :: answers, records, rotation =>
    (rotateMasterPassword settings records rotation answer).bind fun statement =>
      rotateAll settings answers statement.after (statement.next.getD rotation)

/-- What happens, one after the other. -/
inductive ServiceAction where
  | request (request : Request) (inputs : List (Input Answer))
  | rotate (oldPassword newPassword : String) (answers : List RotationAnswer)
  | configure (kdfIterations : Nat)

def Service.step (settings : Settings) (service : Service) : ServiceAction → Option Service
  | .request request inputs =>
    let settings := service.settings settings
    some { service with
      records := serve settings inputs (request.first settings) service.records }
  | .rotate oldPassword newPassword answers =>
    (rotateAll ((service.settings settings).rotating oldPassword newPassword) answers
      service.records ⟨.verify, .empty⟩).bind fun result =>
        match result.2.point with
        | .returned =>
          some { service with
            records := result.1
            masterPassword :=
              if result.2.result.errors = [] then newPassword else service.masterPassword }
        | .refused => some { service with records := result.1 }
        | .verify | .findMany _ | .update .. | .setVersion .. => none
  | .configure kdfIterations => some { service with kdfIterations := kdfIterations }

/-- Every record opens under the configured password to the text that it was stored for. -/
def Service.Open (settings : Settings) (service : Service) : Prop :=
  ∀ record ∈ service.records,
    record.decrypt (service.settings settings) service.masterPassword = some record.plaintext

structure Service.Initial (settings : Settings) (service : Service) : Prop where
  keys : (service.records.map Record.key).Nodup
  opens : service.Open settings

def serviceSystem (settings : Settings) : TransitionSystem Service ServiceAction where
  Initial := Service.Initial settings
  step := Service.step settings

/-! ## The condition -/

/-- The iterations change only while every record has its own, and the old password of a rotation is
the configured one, or it opens nothing. -/
def Service.keepsIterations (settings : Settings) (service : Service) : ServiceAction → Bool
  | .request .. => true
  | .rotate oldPassword _ _ =>
    oldPassword = service.masterPassword || service.records.all fun record =>
      record.decrypt (service.settings settings) oldPassword = none
  | .configure kdfIterations =>
    kdfIterations = service.kdfIterations || service.records.all fun record =>
      record.kdfIterations.isSome

@[reducible] def Service.KeepsIterations (settings : Settings) (service : Service) (action : ServiceAction) :
    Prop :=
  Service.keepsIterations settings service action = true

/-! ## Requests -/

variable {settings : Settings} {records later start : List Record} {rotation : Rotation}

theorem serve_grown (settings : Settings) (inputs : List (Input Answer)) (point : Option Point)
    (records : List Record) : Grown settings records (serve settings inputs point records) := by
  induction inputs generalizing point records with
  | nil => exact .refl _ _
  | cons input inputs ih =>
    cases point with
    | none => exact .refl _ _
    | some point =>
      have first : Grown settings records ((point.statement settings records
          input.answer).perform records input.ending).1 :=
        Statement.perform_shared (Grown settings records) rfl (.refl _ _)
          (statement_grown settings records input.answer point)
      exact first.trans (ih _ _)

/-- What the service has sealed opens under its password. -/
theorem Written.opens (lawful : settings.crypto.Lawful) {record : Record}
    (written : Written settings record) :
    record.decrypt settings settings.masterPassword = some record.plaintext := by
  obtain ⟨⟨random, encrypted⟩, iterations⟩ := written
  exact decrypt_of_encrypt lawful encrypted iterations

/-! ## A rotation on its own -/

variable {answers : List RotationAnswer} {ended : Rotation}

/-- A property that every query keeps holds at the end. -/
theorem rotateAll_invariant (Property : List Record → Rotation → Prop)
    (kept : ∀ records rotation answer statement, Property records rotation →
      rotateMasterPassword settings records rotation answer = some statement →
        Property statement.after (statement.next.getD rotation)) (holds : Property records rotation)
    (run : rotateAll settings answers records rotation = some (later, ended)) :
    Property later ended := by
  induction answers generalizing records rotation with
  | nil =>
    cases run
    exact holds
  | cons answer answers ih =>
    obtain ⟨statement, query, rest⟩ := bind_eq_some_iff.mp run
    exact ih (kept _ _ _ _ holds query) rest

/-- The records that the loop has not come to are those that the rotation has found. -/
structure Untouched (start records : List Record) (rotation : Rotation) : Prop where
  unlisted : ∀ record ∈ records, record.table ∉ rotation.point.listed → record ∈ start
  loop : ∀ record ∈ rotation.point.loop, record ∈ start ∧ record.table ∈ rotation.point.listed

theorem Untouched.initial (start : List Record) : Untouched start start ⟨.verify, .empty⟩ where
  unlisted _ stored _ := stored
  loop := by simp [RotationPoint.loop]

/-- A query that deals with one record of a listed table. -/
theorem Untouched.handle {next : Rotation} {table : Table} {record : Record} {rest : List Record}
    {change : Record → Record} (untouched : Untouched start records rotation)
    (handles : rotation.point.Handles table record rest)
    (listed : ∀ other, other ∈ next.point.listed ↔ other ∈ table :: table.before)
    (loop : ∀ other ∈ next.point.loop, other ∈ record :: rest)
    (keeps : ∀ row, (change row).key = row.key) :
    Untouched start (updateByKey records record.key change) next := by
  have before : rotation.point.listed = table :: table.before ∧
      rotation.point.loop = record :: rest := by
    rcases handles with point | point <;> simp [point, RotationPoint.listed, RotationPoint.loop]
  have same : ∀ other, other ∈ next.point.listed ↔ other ∈ rotation.point.listed := by
    intro other
    rw [listed, before.1]
  constructor
  · intro row member unlisted
    rw [same] at unlisted
    obtain ⟨old, stored, rfl⟩ := mem_map.mp member
    by_cases hit : old.key = record.key
    · rw [if_pos hit] at unlisted
      have inside := (untouched.loop record (by rw [before.2]; exact mem_cons_self)).2
      have table : (change old).table = record.table := congrArg Prod.fst ((keeps old).trans hit)
      exact absurd inside (table ▸ unlisted)
    · rw [if_neg hit] at unlisted ⊢
      exact untouched.unlisted old stored unlisted
  · intro other member
    obtain ⟨found, inside⟩ := untouched.loop other (before.2 ▸ loop other member)
    exact ⟨found, (same _).mpr inside⟩

/-- Nothing is written of the record. -/
theorem Untouched.skip {next : Rotation} {table : Table} {record : Record} {rest : List Record}
    (untouched : Untouched start records rotation)
    (handles : rotation.point.Handles table record rest)
    (listed : ∀ other, other ∈ next.point.listed ↔ other ∈ table :: table.before)
    (loop : ∀ other ∈ next.point.loop, other ∈ record :: rest) : Untouched start records next := by
  have handled := @Untouched.handle _ _ _ _ _ _ _ id untouched handles listed loop fun _ => rfl
  have same : updateByKey records record.key id = records := by simp [updateByKey]
  rwa [same] at handled

variable {answer : RotationAnswer} {result : RotationResult}
  {statement : Statement (List Record) Rotation}

/-- A rotation starts with the first table, or it is refused. -/
theorem verify_next
    (query : rotateMasterPassword settings records ⟨.verify, result⟩ answer = some statement) :
    statement.after = records ∧ (statement.next = some ⟨.findMany .masterSeeds, result⟩ ∨
      statement.next = some ⟨.refused, result⟩) := by
  have target : ∀ point : RotationPoint, statement.next = some ⟨point, result⟩ →
      point = .findMany .masterSeeds ∨ point = .refused →
        statement.next = some ⟨.findMany .masterSeeds, result⟩ ∨
          statement.next = some ⟨.refused, result⟩ := by
    rintro point next (rfl | rfl)
    · exact .inl next
    · exact .inr next
  cases query
  exact ⟨rfl, target _ rfl (ite_eq_or_eq _ _ _)⟩

theorem Untouched.query (untouched : Untouched start records rotation)
    (query : rotateMasterPassword settings records rotation answer = some statement) :
    Untouched start statement.after (statement.next.getD rotation) := by
  obtain ⟨point, result⟩ := rotation
  cases point with
  | verify =>
    obtain ⟨after, starts | refuses⟩ := verify_next query
    · rw [after, starts]
      exact ⟨untouched.unlisted, by simp [RotationPoint.loop]⟩
    · rw [after, refuses]
      exact ⟨untouched.unlisted, by simp [RotationPoint.loop]⟩
  | findMany table =>
    simp only [rotateMasterPassword] at query
    split at query
    · rename_i permuted
      cases query
      simp only [getD_some]
      constructor
      · intro record stored unlisted
        rw [mem_continue_listed] at unlisted
        exact untouched.unlisted record stored fun inside =>
          unlisted (mem_cons_of_mem _ inside)
      · intro record member
        rw [continue_loop, (isPerm_iff.mp permuted).mem_iff, mem_filter,
          decide_eq_true_eq] at member
        refine ⟨untouched.unlisted record member.1 ?_, mem_continue_listed.mpr ?_⟩
        · rw [member.2]
          exact not_mem_before table
        · rw [member.2]
          exact mem_cons_self
    · cases query
  | update table record rest =>
    simp only [rotateMasterPassword] at query
    split at query
    · cases query
      refine untouched.skip (.inl rfl) (fun _ => mem_continue_listed) ?_
      intro other member
      rw [getD_some, continue_loop] at member
      exact mem_cons_of_mem _ member
    · cases query
      exact untouched.handle (.inl rfl) (fun _ => .rfl) (fun _ member => member) fun _ => rfl
  | setVersion table record rest =>
    cases query
    refine untouched.handle (.inr rfl) (fun _ => mem_continue_listed) ?_ fun _ => rfl
    intro other member
    rw [getD_some, continue_loop] at member
    exact mem_cons_of_mem _ member
  | returned | refused => cases query

/-- A record that is rotated whatever values are drawn. -/
def Record.Rotates (settings : Settings) (record : Record) : Prop :=
  ∀ random, (rotateEncryption settings.crypto settings.kdfIterations record.payload
    settings.oldPassword settings.newPassword record.kdfIterations random).isSome = true

/-- A record that is not rotated. -/
def Record.Resists (settings : Settings) (record : Record) : Prop :=
  ∀ random, rotateEncryption settings.crypto settings.kdfIterations record.payload
    settings.oldPassword settings.newPassword record.kdfIterations random = none

/-- Where every record rotates, no error is reported. -/
theorem query_noErrors (rotates : ∀ record ∈ start, record.Rotates settings)
    (untouched : Untouched start records rotation) (noErrors : rotation.result.errors = [])
    (query : rotateMasterPassword settings records rotation answer = some statement) :
    (statement.next.getD rotation).result.errors = [] := by
  obtain ⟨point, result⟩ := rotation
  cases point with
  | verify =>
    cases query
    exact noErrors
  | findMany table =>
    simp only [rotateMasterPassword] at query
    split at query
    · cases query
      simpa using noErrors
    · cases query
  | update table record rest =>
    have found := (untouched.loop record mem_cons_self).1
    simp only [rotateMasterPassword] at query
    split at query
    · rename_i failed
      have success := rotates record found answer.random
      rw [failed] at success
      cases success
    · cases query
      exact noErrors
  | setVersion table record rest =>
    cases query
    simpa using noErrors
  | returned | refused => cases query

/-- Where no record rotates, nothing is written. -/
structure Unchanged (start records : List Record) (rotation : Rotation) : Prop where
  same : records = start
  point : ∀ table record rest, rotation.point ≠ .setVersion table record rest

theorem continue_ne_setVersion {table other : Table} {record : Record} {pending rest : List Record} :
    (Rotation.continue table pending result).point ≠ .setVersion other record rest := by
  cases pending with
  | nil => cases table <;> simp [Rotation.continue, Table.next]
  | cons => simp [Rotation.continue]

theorem Unchanged.query (resists : ∀ record ∈ start, record.Resists settings)
    (untouched : Untouched start records rotation) (unchanged : Unchanged start records rotation)
    (query : rotateMasterPassword settings records rotation answer = some statement) :
    Unchanged start statement.after (statement.next.getD rotation) := by
  obtain ⟨point, result⟩ := rotation
  cases point with
  | verify =>
    obtain ⟨after, starts | refuses⟩ := verify_next query
    · rw [after, starts]
      exact ⟨unchanged.same, by simp⟩
    · rw [after, refuses]
      exact ⟨unchanged.same, by simp⟩
  | findMany table =>
    simp only [rotateMasterPassword] at query
    split at query
    · cases query
      exact ⟨unchanged.same, fun _ _ _ => continue_ne_setVersion⟩
    · cases query
  | update table record rest =>
    have found := (untouched.loop record mem_cons_self).1
    simp only [rotateMasterPassword] at query
    split at query
    · cases query
      exact ⟨unchanged.same, fun _ _ _ => continue_ne_setVersion⟩
    · rename_i rotated
      rw [resists record found answer.random] at rotated
      cases rotated
  | setVersion table record rest => exact absurd rfl (unchanged.point table record rest)
  | returned | refused => cases query

/-! ## Along runs -/

/-- What the records of a service keep. -/
structure Service.Kept (settings : Settings) (service : Service) : Prop where
  keys : (service.records.map Record.key).Nodup
  opens : service.Open settings

/-- With the configured password, a record that opens rotates unless the iterations are refused. -/
theorem rotates_or_resists (uniform : settings.crypto.Uniform)
    (opens : ∀ record ∈ records,
      record.decrypt settings settings.oldPassword = some record.plaintext) :
    (∀ record ∈ records, record.Rotates settings) ∨
      ∀ record ∈ records, record.Resists settings := by
  cases derived : settings.crypto.pbkdf2 "" [] settings.kdfIterations with
  | none =>
    right
    intro record member random
    have same := uniform settings.newPassword random.salt "" [] settings.kdfIterations
    rw [derived, isSome_none, isSome_eq_false_iff, isNone_iff_eq_none] at same
    have opened := opens record member
    rw [Record.decrypt] at opened
    simp [rotateEncryption, opened, encryptWithPassword, same]
  | some key =>
    left
    intro record member random
    have same := uniform settings.newPassword random.salt "" [] settings.kdfIterations
    rw [derived, isSome_some] at same
    obtain ⟨kek, found⟩ := isSome_iff_exists.mp same
    have opened := opens record member
    rw [Record.decrypt] at opened
    simp [rotateEncryption, opened, encryptWithPassword, found]

theorem resists_of_rejected (rejected : ∀ record ∈ records,
    record.decrypt settings settings.oldPassword = none) :
    ∀ record ∈ records, record.Resists settings := by
  intro record member random
  have refused := rejected record member
  rw [Record.decrypt] at refused
  simp [rotateEncryption, refused]

/-- Before the first table, and where a rotation is refused, nothing is written. -/
def Waits (start records : List Record) (rotation : Rotation) : Prop :=
  rotation.point = .verify ∨ rotation.point = .refused → records = start

theorem continue_started {table : Table} {pending : List Record} :
    (Rotation.continue table pending result).point ≠ .verify ∧
      (Rotation.continue table pending result).point ≠ .refused := by
  cases pending with
  | nil => cases table <;> simp [Rotation.continue, Table.next]
  | cons => simp [Rotation.continue]

theorem Waits.query (waits : Waits start records rotation)
    (query : rotateMasterPassword settings records rotation answer = some statement) :
    Waits start statement.after (statement.next.getD rotation) := by
  have started : ∀ (after : List Record) {table : Table} {pending : List Record}
      {result : RotationResult}, Waits start after (.continue table pending result) := by
    rintro after table pending result (verify | refused)
    · exact absurd verify continue_started.1
    · exact absurd refused continue_started.2
  obtain ⟨point, result⟩ := rotation
  cases point with
  | verify =>
    obtain ⟨after, _⟩ := verify_next query
    rw [after]
    exact fun _ => waits (.inl rfl)
  | findMany table =>
    simp only [rotateMasterPassword] at query
    split at query
    · cases query
      exact started _
    · cases query
  | update table record rest =>
    simp only [rotateMasterPassword] at query
    split at query
    · cases query
      exact started _
    · cases query
      rintro (verify | refused)
      · cases verify
      · cases refused
  | setVersion table record rest =>
    cases query
    exact started _
  | returned | refused => cases query

/-- A record that opens to its own text, if it opens, is what a rotation expects. -/
theorem rotateAll_kept (lawful : settings.crypto.Lawful) (keys : (start.map Record.key).Nodup)
    (faithful : ∀ record ∈ start, Faithful settings record)
    (run : rotateAll settings answers start ⟨.verify, .empty⟩ = some (later, ended)) :
    Vault.Kept settings later ended ∧ Untouched start later ended ∧ Waits start later ended := by
  have initial : Vault.Kept settings start ⟨.verify, .empty⟩ :=
    initial_kept (⟨keys, faithful, rfl, rfl⟩ : State.Initial settings ⟨start, ⟨.verify, .empty⟩, []⟩)
  refine rotateAll_invariant (fun records rotation =>
    Vault.Kept settings records rotation ∧ Untouched start records rotation ∧
      Waits start records rotation) ?_ ⟨initial, .initial start, fun _ => rfl⟩ run
  rintro records rotation answer statement ⟨kept, untouched, waits⟩ query
  exact ⟨rotateMasterPassword_kept lawful kept query (rfl : statement.perform records .done = _),
    untouched.query query, waits.query query⟩

theorem rotateAll_noErrors (rotates : ∀ record ∈ start, record.Rotates settings)
    (run : rotateAll settings answers start ⟨.verify, .empty⟩ = some (later, ended)) :
    ended.result.errors = [] := by
  have joint : Untouched start later ended ∧ ended.result.errors = [] := by
    refine rotateAll_invariant (fun records rotation =>
      Untouched start records rotation ∧ rotation.result.errors = []) ?_
      ⟨.initial start, rfl⟩ run
    rintro records rotation answer statement ⟨untouched, noErrors⟩ query
    exact ⟨untouched.query query, query_noErrors rotates untouched noErrors query⟩
  exact joint.2

theorem rotateAll_unchanged (resists : ∀ record ∈ start, record.Resists settings)
    (run : rotateAll settings answers start ⟨.verify, .empty⟩ = some (later, ended)) :
    later = start := by
  have joint : Untouched start later ended ∧ Unchanged start later ended := by
    refine rotateAll_invariant (fun records rotation =>
      Untouched start records rotation ∧ Unchanged start records rotation) ?_
      ⟨.initial start, rfl, by simp⟩ run
    rintro records rotation answer statement ⟨untouched, unchanged⟩ query
    exact ⟨untouched.query query, unchanged.query resists untouched query⟩
  exact joint.2.same

/-- A rotation that has returned without errors has resealed every record. -/
theorem rotated_of_returned (kept : Vault.Kept settings records rotation)
    (returned : rotation.point = .returned) (noErrors : rotation.result.errors = []) :
    (records.map Record.key).Nodup ∧ ∀ record ∈ records, record.Rotated settings := by
  rcases kept with refused | progress
  · rw [returned] at refused
    cases refused
  · refine ⟨progress.keys, ?_⟩
    intro record stored
    have inside : record.table ∈ rotation.point.listed := by
      rw [returned]
      cases record.table <;> decide
    rcases progress.listed noErrors record stored inside with waits | opens
    · rw [returned] at waits
      cases waits
    · exact opens

variable {service next : Service}

theorem Service.Kept.rotate {oldPassword newPassword : String} (lawful : settings.crypto.Lawful)
    (uniform : settings.crypto.Uniform) (kept : service.Kept settings)
    (allowed : Service.KeepsIterations settings service (.rotate oldPassword newPassword answers))
    (transition : service.step settings (.rotate oldPassword newPassword answers) = some next) :
    next.Kept settings := by
  obtain ⟨⟨later, ended⟩, run, rest⟩ := bind_eq_some_iff.mp transition
  have password : oldPassword = service.masterPassword ∨ ∀ record ∈ service.records,
      record.decrypt (service.settings settings) oldPassword = none := by
    simpa [Service.KeepsIterations, Service.keepsIterations] using allowed
  have faithful : ∀ record ∈ service.records,
      Faithful ((service.settings settings).rotating oldPassword newPassword) record := by
    intro record stored text opened
    have opened : record.decrypt (service.settings settings) oldPassword = some text := opened
    rcases password with rfl | rejected
    · exact Option.some.inj (opened.symm.trans (kept.opens record stored))
    · rw [rejected record stored] at opened
      cases opened
  have rotatingLawful :
      ((service.settings settings).rotating oldPassword newPassword).crypto.Lawful := lawful
  have rotatingUniform :
      ((service.settings settings).rotating oldPassword newPassword).crypto.Uniform := uniform
  obtain ⟨rotated, _, waits⟩ := rotateAll_kept rotatingLawful kept.keys faithful run
  have fixed : later = service.records → next = { service with records := later } →
      next.Kept settings := by
    intro same whole
    rw [whole, same]
    exact kept
  cases point : ended.point with
  | verify | findMany | update | setVersion => simp [point] at rest
  | refused =>
    simp only [point, Option.some.injEq] at rest
    exact fixed (waits (.inr point)) rest.symm
  | returned =>
    simp only [point, Option.some.injEq] at rest
    subst rest
    by_cases noErrors : ended.result.errors = []
    · obtain ⟨keys, opens⟩ := rotated_of_returned rotated point noErrors
      refine ⟨keys, ?_⟩
      intro record stored
      have opened : record.decrypt (service.settings settings) newPassword =
          some record.plaintext := opens record stored
      simp only [noErrors, if_true]
      exact opened
    · rw [if_neg noErrors] at fixed ⊢
      have modes : (∀ record ∈ service.records, record.Rotates
          ((service.settings settings).rotating oldPassword newPassword)) ∨
          ∀ record ∈ service.records, record.Resists
            ((service.settings settings).rotating oldPassword newPassword) := by
        rcases password with rfl | rejected
        · exact rotates_or_resists rotatingUniform kept.opens
        · exact .inr (resists_of_rejected rejected)
      rcases modes with rotates | resists
      · exact absurd (rotateAll_noErrors rotates run) noErrors
      · exact fixed (rotateAll_unchanged resists run) rfl

theorem Service.Kept.request {request : Request} {inputs : List (Input Answer)}
    (lawful : settings.crypto.Lawful) (kept : service.Kept settings)
    (transition : service.step settings (.request request inputs) = some next) :
    next.Kept settings := by
  cases transition
  obtain ⟨added, same, written, distinct⟩ := serve_grown (service.settings settings) inputs
    (request.first (service.settings settings)) service.records
  refine ⟨distinct kept.keys, ?_⟩
  intro record stored
  have stored : record ∈ service.records ++ added := same ▸ stored
  rcases mem_append.mp stored with old | fresh
  · exact kept.opens record old
  · have serviceLawful : (service.settings settings).crypto.Lawful := lawful
    exact (written record fresh).opens serviceLawful

theorem Service.Kept.configure {kdfIterations : Nat} (kept : service.Kept settings)
    (allowed : Service.KeepsIterations settings service (.configure kdfIterations))
    (transition : service.step settings (.configure kdfIterations) = some next) :
    next.Kept settings := by
  cases transition
  refine ⟨kept.keys, ?_⟩
  have free : kdfIterations = service.kdfIterations ∨ ∀ record ∈ service.records,
      record.kdfIterations.isSome = true := by
    simpa [Service.KeepsIterations, Service.keepsIterations] using allowed
  rcases free with rfl | own
  · exact kept.opens
  · intro record stored
    obtain ⟨iterations, found⟩ := isSome_iff_exists.mp (own record stored)
    have opens := kept.opens record stored
    simp only [Record.decrypt, decryptWithPassword, found, getD_some] at opens ⊢
    exact opens

/-- As long as the iterations change only where every record has its own, every record opens under
the configured password to its original text. -/
theorem configured_records_open (lawful : settings.crypto.Lawful)
    (uniform : settings.crypto.Uniform)
    (reached : (serviceSystem settings).Reachable (Service.KeepsIterations settings) service) :
    service.Open settings := by
  have kept : service.Kept settings := by
    refine reached.invariant (fun start initial => ⟨initial.keys, initial.opens⟩) ?_
    intro service action next kept allowed transition
    cases action with
    | request request inputs => exact kept.request lawful transition
    | rotate oldPassword newPassword answers =>
      exact kept.rotate lawful uniform allowed transition
    | configure kdfIterations => exact kept.configure allowed transition
  exact kept.opens

/-! ## A vault whose keys depend on the iterations -/

/-- The iterations are part of the key. -/
def countingCrypto : Crypto :=
  { toyCrypto with
    pbkdf2 := fun password _ iterations =>
      if iterations = 0 then none
      else some (toyKey (UInt8.ofNat iterations :: password.toList.map fun c =>
        UInt8.ofNat c.toNat)) }

theorem countingCrypto_lawful : countingCrypto.Lawful :=
  ⟨toyCrypto_lawful.length_ciphertext, toyCrypto_lawful.length_authTag,
    toyCrypto_lawful.decrypt_encrypt⟩

theorem countingCrypto_uniform : countingCrypto.Uniform := by
  intro password salt other pepper iterations
  by_cases none : iterations = 0
  · simp [countingCrypto, none]
  · simp [countingCrypto, none]

def countingSettings : Settings := { toySettings with crypto := countingCrypto }

def emptyService : Service := ⟨[], 1, "old"⟩

theorem emptyService_initial : (serviceSystem countingSettings).Initial emptyService :=
  ⟨by simp [emptyService], by simp [Service.Open, emptyService]⟩

/-- A request whose queries take effect. -/
def served (request : Request) (queries : Nat) : ServiceAction :=
  .request request (List.replicate queries ⟨.done, toyAnswer⟩)

/-- The seed of project 5, sealed with one iteration. -/
def countingSeed : Record :=
  { toySeed with
    payload := (encryptWithPassword countingCrypto 1 [7, 7] "old" toyRandom).getD
      ⟨[], [], [], [], []⟩
    kdfIterations := some 1 }

/-- A seed is stored, the iterations change, and a rotation reseals it. -/
theorem configured_records_open_sample :
    ∃ service : Service, service.records.length = 1 ∧ service.masterPassword = "new" ∧
      service.kdfIterations = 2 ∧ service.Open countingSettings := by
  obtain ⟨service, reached, one, password, iterations⟩ : ∃ service,
      (serviceSystem countingSettings).Reachable
      (Service.KeepsIterations countingSettings) service ∧
      service.records.length = 1 ∧ service.masterPassword = "new" ∧
        service.kdfIterations = 2 :=
    exists_reachable emptyService_initial
      [served (.generateProjectSeed 5) 2, .configure 2,
        .rotate "old" "new" ([[], [], [countingSeed], [], [], [], []].map fun listing =>
          ⟨toyRandom, listing⟩)] (by decide +kernel)
  exact ⟨service, one, password, iterations,
    configured_records_open countingCrypto_lawful countingCrypto_uniform reached⟩

/-- The keys of a project are stored, the iterations change, and the keys are lost. -/
theorem iterations_lost :
    ¬ ∀ (settings : Settings) (service : Service), settings.crypto.Lawful →
      settings.crypto.Uniform → (serviceSystem settings).Reachable Unrestricted service →
        service.Open settings := by
  intro always
  obtain ⟨service, reached, record, stored, lost⟩ : ∃ service,
      (serviceSystem countingSettings).Reachable Unrestricted service ∧
      ∃ record ∈ service.records,
        record.decrypt (service.settings countingSettings) service.masterPassword = none :=
    exists_reachable emptyService_initial
      [served (.generateProjectSeed 5) 2, served (.generateProjectKeys 5 7) 4, .configure 2]
      (by decide +kernel)
  have opens := always countingSettings service countingCrypto_lawful countingCrypto_uniform reached
    record stored
  rw [lost] at opens
  cases opens

end CryptoVaultHub.KeyVault.Vault
