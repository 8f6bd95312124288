import CryptoVaultHub.KeyVault.Reconfiguration

/-!
# Running a rotation again

A rotation that fails for some records leaves them under the old password and the others under the
new one. `rotateMasterPassword` starts by opening the newest master seed with the old password, so a
second rotation gets past that only where this seed is among the records that failed.
-/

namespace CryptoVaultHub.KeyVault.Vault

open List

/-! ## Runs -/

/-- How the two queries on a record end. -/
structure RecordEndings where
  update : Table × Nat → Ending
  setVersion : Table × Nat → Ending

/-- No query fails. -/
def RecordEndings.done : RecordEndings := ⟨fun _ => .done, fun _ => .done⟩

def RecordEndings.of (endings : RecordEndings) : RotationPoint → Ending
  | .update _ record _ => endings.update record.key
  | .setVersion _ record _ => endings.setVersion record.key
  | .verify | .findMany _ | .returned | .refused => .done

/-- A rotation on its own, whose queries on records end as given. -/
def rotateEnding (settings : Settings) (endings : RecordEndings) :
    List RotationAnswer → List Record → Rotation → Option (List Record × Rotation)
  | [], records, rotation => some (records, rotation)
  | answer :: answers, records, rotation =>
    (rotateMasterPassword settings records rotation answer).bind fun statement =>
      let (records, next) := statement.perform records (endings.of rotation.point)
      rotateEnding settings endings answers records (next.getD rotation)

/-- The rotation has returned or thrown. -/
def RotationPoint.Over (point : RotationPoint) : Prop := point = .returned ∨ point = .refused

/-- A record under the old password only. -/
structure Record.Old (settings : Settings) (record : Record) : Prop where
  opens : record.decrypt settings settings.oldPassword = some record.plaintext
  closed : record.decrypt settings settings.newPassword = none

/-- The new password has a key for every salt that is drawn. -/
def Settings.Seals (settings : Settings) : Prop :=
  ∀ random : RandomBytes,
    (settings.crypto.pbkdf2 settings.newPassword random.salt settings.kdfIterations).isSome = true

/-- The old password opens nothing that was sealed under the new one. -/
def Settings.Rejects (settings : Settings) : Prop :=
  ∀ plaintext random payload iterations,
    encryptWithPassword settings.crypto settings.kdfIterations plaintext settings.newPassword
      random = some payload →
    decryptWithPassword settings.crypto settings.kdfIterations payload settings.oldPassword
      iterations = none

/-! ## Every run can go on to its end -/

section Endings

variable {settings : Settings} {endings : RecordEndings} {records later : List Record}
  {rotation ended : Rotation}

theorem rotateEnding_append {answers others : List RotationAnswer} :
    rotateEnding settings endings (answers ++ others) records rotation =
      (rotateEnding settings endings answers records rotation).bind fun reached =>
        rotateEnding settings endings others reached.1 reached.2 := by
  induction answers generalizing records rotation with
  | nil => rfl
  | cons answer answers ih =>
    simp only [cons_append, rotateEnding, Option.bind_assoc, ih]

/-- A property that every query keeps holds at the end. -/
theorem rotateEnding_invariant (Property : List Record → Rotation → Prop)
    {answers : List RotationAnswer}
    (kept : ∀ records rotation answer statement, Property records rotation →
      rotateMasterPassword settings records rotation answer = some statement →
        Property (statement.perform records (endings.of rotation.point)).1
          ((statement.perform records (endings.of rotation.point)).2.getD rotation))
    (holds : Property records rotation)
    (run : rotateEnding settings endings answers records rotation = some (later, ended)) :
    Property later ended := by
  induction answers generalizing records rotation with
  | nil =>
    cases run
    exact holds
  | cons answer answers ih =>
    obtain ⟨statement, query, rest⟩ := Option.bind_eq_some_iff.mp run
    exact ih (kept _ _ _ _ holds query) rest

/-- The loop comes to the end of its table. -/
theorem loop_ends (settings : Settings) (endings : RecordEndings) (random : RandomBytes)
    (table : Table) (pending : List Record) (records : List Record) (result : RotationResult) :
    ∃ answers after final, rotateEnding settings endings answers records
      (.continue table pending result) = some (after, .continue table [] final) := by
  induction pending generalizing records result with
  | nil => exact ⟨[], records, result, rfl⟩
  | cons record rest ih =>
    have versioned : ∀ records, ∃ answers after final, rotateEnding settings endings answers
        records ⟨.setVersion table record rest, result⟩ =
          some (after, .continue table [] final) := by
      intro records
      cases ending : endings.setVersion record.key with
      | done =>
        obtain ⟨answers, after, final, run⟩ := ih
          (updateByKey records record.key Record.setVersion) (result.addRotated table)
        refine ⟨⟨random, []⟩ :: answers, after, final, ?_⟩
        simpa [rotateEnding, rotateMasterPassword, RecordEndings.of, ending,
          Statement.perform] using run
      | failed =>
        obtain ⟨answers, after, final, run⟩ := ih records
          (result.addError record.key)
        refine ⟨⟨random, []⟩ :: answers, after, final, ?_⟩
        simpa [rotateEnding, rotateMasterPassword, RecordEndings.of, ending,
          Statement.perform] using run
      | lost =>
        obtain ⟨answers, after, final, run⟩ := ih
          (updateByKey records record.key Record.setVersion) (result.addError record.key)
        refine ⟨⟨random, []⟩ :: answers, after, final, ?_⟩
        simpa [rotateEnding, rotateMasterPassword, RecordEndings.of, ending,
          Statement.perform] using run
    have givenUp : ∀ records, ∃ answers after final, rotateEnding settings endings answers
        records (.continue table rest (result.addError record.key)) =
          some (after, .continue table [] final) :=
      fun records => ih records _
    cases rotated : rotateEncryption settings.crypto settings.kdfIterations record.payload
        settings.oldPassword settings.newPassword record.kdfIterations random with
    | none =>
      obtain ⟨answers, after, final, run⟩ := givenUp records
      refine ⟨⟨random, []⟩ :: answers, after, final, ?_⟩
      cases ending : endings.update record.key <;>
        simpa [rotateEnding, rotateMasterPassword, Rotation.continue, RecordEndings.of, ending,
          Statement.perform, rotated] using run
    | some payload =>
      cases ending : endings.update record.key with
      | done =>
        obtain ⟨answers, after, final, run⟩ := versioned
          (updateByKey records record.key (Record.reseal settings payload))
        refine ⟨⟨random, []⟩ :: answers, after, final, ?_⟩
        simpa [rotateEnding, rotateMasterPassword, Rotation.continue, RecordEndings.of,
          ending, Statement.perform, rotated] using run
      | failed =>
        obtain ⟨answers, after, final, run⟩ := givenUp records
        refine ⟨⟨random, []⟩ :: answers, after, final, ?_⟩
        simpa [rotateEnding, rotateMasterPassword, Rotation.continue, RecordEndings.of,
          ending, Statement.perform, rotated] using run
      | lost =>
        obtain ⟨answers, after, final, run⟩ := givenUp
          (updateByKey records record.key (Record.reseal settings payload))
        refine ⟨⟨random, []⟩ :: answers, after, final, ?_⟩
        simpa [rotateEnding, rotateMasterPassword, Rotation.continue, RecordEndings.of,
          ending, Statement.perform, rotated] using run

/-- The tables from one on come to their end. -/
theorem tables_end (settings : Settings) (endings : RecordEndings) (random : RandomBytes)
    (table : Table) (records : List Record) (result : RotationResult) :
    ∃ answers after final, rotateEnding settings endings answers records
      ⟨.findMany table, result⟩ = some (after, ⟨.returned, final⟩) := by
  have listing : ∀ (table : Table) records result, ∃ answers after final,
      rotateEnding settings endings answers records ⟨.findMany table, result⟩ =
        some (after, .continue table [] final) := by
    intro table records result
    obtain ⟨answers, after, final, run⟩ := loop_ends settings endings random table
      (records.filter fun record => record.table = table) records result
    have permuted := isPerm_iff.mpr
      (List.Perm.refl (records.filter fun record => record.table = table))
    refine ⟨⟨random, records.filter fun record => record.table = table⟩ :: answers, after, final,
      ?_⟩
    simpa [rotateEnding, rotateMasterPassword, RecordEndings.of, Statement.perform, permuted]
      using run
  have chained : ∀ (table next : Table) records result, table.next = some next →
      (∀ records result, ∃ answers after final, rotateEnding settings endings answers records
        ⟨.findMany next, result⟩ = some (after, ⟨.returned, final⟩)) →
      ∃ answers after final, rotateEnding settings endings answers records
        ⟨.findMany table, result⟩ = some (after, ⟨.returned, final⟩) := by
    intro table next records result follows ends
    obtain ⟨answers, middle, reached, run⟩ := listing table records result
    obtain ⟨others, after, final, rest⟩ := ends middle reached
    refine ⟨answers ++ others, after, final, ?_⟩
    rw [rotateEnding_append, run, Option.bind_some]
    simpa [Rotation.continue, follows] using rest
  have shares : ∀ records result, ∃ answers after final, rotateEnding settings endings answers
      records ⟨.findMany .shamirShares, result⟩ = some (after, ⟨.returned, final⟩) := by
    intro records result
    obtain ⟨answers, after, final, run⟩ := listing .shamirShares records result
    exact ⟨answers, after, final, run⟩
  have keys := fun records result => chained .derivedKeys .shamirShares records result rfl shares
  have seeds := fun records result => chained .projectSeeds .derivedKeys records result rfl keys
  cases table with
  | masterSeeds => exact chained .masterSeeds .projectSeeds records result rfl seeds
  | projectSeeds => exact seeds records result
  | derivedKeys => exact keys records result
  | shamirShares => exact shares records result

/-- Whatever fails, a rotation ends. -/
theorem rotation_ends (settings : Settings) (endings : RecordEndings) (random : RandomBytes)
    (records : List Record) :
    ∃ answers later ended, rotateEnding settings endings answers records ⟨.verify, .empty⟩ =
      some (later, ended) ∧ ended.point.Over := by
  obtain ⟨answers, after, final, run⟩ := tables_end settings endings random .masterSeeds records
    .empty
  cases verified : rotateMasterPassword settings records ⟨.verify, .empty⟩ ⟨random, []⟩ with
  | none => cases verified
  | some statement =>
    obtain ⟨same, starts | refuses⟩ := verify_next verified
    · refine ⟨⟨random, []⟩ :: answers, after, ⟨.returned, final⟩, ?_, .inl rfl⟩
      simpa [rotateEnding, verified, RecordEndings.of, Statement.perform, same, starts] using run
    · refine ⟨[⟨random, []⟩], records, ⟨.refused, .empty⟩, ?_, .inr rfl⟩
      simp [rotateEnding, verified, RecordEndings.of, Statement.perform, same, refuses]

end Endings

/-! ## What a run leaves of each record -/

/-- The turn of the record has not come. -/
def Rotation.Waits (rotation : Rotation) (record : Record) : Prop :=
  record.table ∉ rotation.point.listed ∨ record ∈ rotation.point.pending

/-- What the run has made of a record whose turn has come: what the old password opens is under the
new one, unless its update had no effect, and nothing else is changed. -/
structure Settled (settings : Settings) (endings : RecordEndings) (record after : Record) :
    Prop where
  rotated : ∀ text, record.decrypt settings settings.oldPassword = some text →
    endings.update record.key ≠ .failed →
      after.decrypt settings settings.newPassword = some text ∧
        after.decrypt settings settings.oldPassword = none
  kept : record.decrypt settings settings.oldPassword = none ∨
      endings.update record.key = .failed →
    after.payload = record.payload ∧ after.kdfIterations = record.kdfIterations

/-- Every record that the run started with, and what it has become. -/
structure Accounted (settings : Settings) (endings : RecordEndings) (start records : List Record)
    (rotation : Rotation) (become : Record → Record) : Prop where
  stored : records = start.map become
  key : ∀ record, (become record).key = record.key
  plaintext : ∀ record, (become record).plaintext = record.plaintext
  loop : (rotation.point.loop.map Record.key).Nodup
  found : ∀ record ∈ rotation.point.loop, record ∈ start ∧ record.table ∈ rotation.point.listed
  waits : ∀ record ∈ start, rotation.Waits record → become record = record
  settled : ∀ record ∈ start, ¬ rotation.Waits record →
    Settled settings endings record (become record)

section Accounting

variable {settings : Settings} {endings : RecordEndings} {start records later : List Record}
  {rotation next ended : Rotation} {become : Record → Record} {record other : Record}

/-- What decryption reads of a record. -/
theorem decrypt_congr (payload : other.payload = record.payload)
    (iterations : other.kdfIterations = record.kdfIterations) (password : String) :
    other.decrypt settings password = record.decrypt settings password := by
  rw [Record.decrypt, Record.decrypt, payload, iterations]

variable {table : Table} {result : RotationResult}

theorem waits_continue {pending : List Record} :
    (Rotation.continue table pending result).Waits record ↔
      record.table ∉ table :: table.before ∨ record ∈ pending := by
  rw [Rotation.Waits, mem_continue_listed, continue_pending]

theorem Accounted.initial (settings : Settings) (endings : RecordEndings) (start : List Record)
    {point : RotationPoint} (listed : point.listed = []) (loop : point.loop = [])
    (result : RotationResult) : Accounted settings endings start start ⟨point, result⟩ id where
  stored := (map_id start).symm
  key _ := rfl
  plaintext _ := rfl
  loop := by simp [loop]
  found := by simp [loop]
  waits _ _ _ := rfl
  settled record _ passed := absurd (.inl (by simp [listed])) passed

/-- The listing of a table changes no one's turn. -/
theorem Accounted.list (keys : (start.map Record.key).Nodup) {listing : List Record}
    (accounted : Accounted settings endings start records ⟨.findMany table, result⟩ become)
    (permuted : listing.Perm (records.filter fun record => record.table = table)) :
    Accounted settings endings start records (.continue table listing result) become := by
  have waiting : ∀ record ∈ start, record.table = table → become record = record := by
    intro record member inTable
    refine accounted.waits record member (.inl ?_)
    rw [inTable]
    exact not_mem_before table
  have listed : ∀ record, record ∈ listing ↔ record ∈ start ∧ record.table = table := by
    intro record
    rw [permuted.mem_iff, mem_filter, decide_eq_true_eq, accounted.stored]
    constructor
    · rintro ⟨member, inTable⟩
      obtain ⟨old, found, rfl⟩ := mem_map.mp member
      have same : old.table = table := by
        have keyed := congrArg Prod.fst (accounted.key old)
        exact keyed.symm.trans inTable
      rw [waiting old found same]
      exact ⟨found, same⟩
    · rintro ⟨found, inTable⟩
      exact ⟨mem_map.mpr ⟨record, found, waiting record found inTable⟩, inTable⟩
  have turns : ∀ record ∈ start, (Rotation.continue table listing result).Waits record ↔
      (⟨.findMany table, result⟩ : Rotation).Waits record := by
    intro record member
    rw [waits_continue, listed]
    simp only [Rotation.Waits, RotationPoint.listed, RotationPoint.pending, not_mem_nil,
      or_false, mem_cons, not_or]
    constructor
    · rintro (⟨_, later⟩ | ⟨_, inTable⟩)
      · exact later
      · rw [inTable]
        exact not_mem_before table
    · intro later
      by_cases inTable : record.table = table
      · exact .inr ⟨member, inTable⟩
      · exact .inl ⟨inTable, later⟩
  constructor
  · exact accounted.stored
  · exact accounted.key
  · exact accounted.plaintext
  · rw [continue_loop]
    refine ((permuted.map Record.key).nodup_iff).mpr ?_
    refine (filter_sublist.map Record.key).nodup ?_
    rw [accounted.stored, map_map]
    have same : Record.key ∘ become = Record.key := funext accounted.key
    rwa [same]
  · intro record member
    rw [continue_loop, listed] at member
    refine ⟨member.1, mem_continue_listed.mpr ?_⟩
    rw [member.2]
    exact mem_cons_self
  · exact fun record member waits => accounted.waits record member ((turns record member).mp waits)
  · exact fun record member passed =>
      accounted.settled record member fun waits => passed ((turns record member).mpr waits)

variable {rest : List Record}

/-- Whose turn is left after a record of the loop. -/
theorem Accounted.turns (handles : rotation.point.Handles table record rest)
    (pending : next.point.pending = rest)
    (listed : ∀ other, other ∈ next.point.listed ↔ other ∈ table :: table.before)
    (unlike : other ≠ record) : next.Waits other ↔ rotation.Waits other := by
  rw [Rotation.Waits, Rotation.Waits, pending, listed]
  rcases handles with point | point <;>
    simp [point, RotationPoint.listed, RotationPoint.pending, unlike]

/-- A query that deals with one record, and changes it at most. -/
theorem Accounted.handle (keys : (start.map Record.key).Nodup)
    (accounted : Accounted settings endings start records rotation become)
    {table : Table} {rest : List Record} {change : Record → Record}
    (handles : rotation.point.Handles table record rest)
    (pending : next.point.pending = rest)
    (listed : ∀ other, other ∈ next.point.listed ↔ other ∈ table :: table.before)
    (loop : next.point.loop.Sublist (record :: rest))
    (keepsKey : ∀ row, (change row).key = row.key)
    (keepsPlaintext : ∀ row, (change row).plaintext = row.plaintext)
    (settled : record ∈ start → Settled settings endings record (change (become record))) :
    ∃ become, Accounted settings endings start (updateByKey records record.key change) next
      become := by
  have before : rotation.point.listed = table :: table.before ∧
      rotation.point.loop = record :: rest := by
    rcases handles with point | point <;> simp [point, RotationPoint.listed, RotationPoint.loop]
  have distinct : ((record :: rest).map Record.key).Nodup := before.2 ▸ accounted.loop
  obtain ⟨found, inside⟩ := accounted.found record (by rw [before.2]; exact mem_cons_self)
  have unique : ∀ row ∈ start, row.key = record.key → row = record :=
    fun row member same => inj_on_of_nodup_map keys member found same
  refine ⟨fun row => if (become row).key = record.key then change (become row) else become row, ?_⟩
  constructor
  · rw [accounted.stored, updateByKey, map_map]
    rfl
  · intro row
    split
    · rw [keepsKey, accounted.key]
    · exact accounted.key row
  · intro row
    split
    · rw [keepsPlaintext, accounted.plaintext]
    · exact accounted.plaintext row
  · exact (loop.map Record.key).nodup distinct
  · intro other member
    obtain ⟨stored, tabled⟩ := accounted.found other (before.2 ▸ loop.subset member)
    exact ⟨stored, (listed _).mpr (before.1 ▸ tabled)⟩
  · intro other member waits
    have unlike : other.key ≠ record.key := by
      intro same
      rw [unique other member same] at waits
      rcases waits with unlisted | later
      · exact unlisted ((listed _).mpr (before.1 ▸ inside))
      · rw [pending] at later
        rw [map_cons, nodup_cons] at distinct
        exact distinct.1 (mem_map_of_mem later)
    rw [accounted.key, if_neg unlike]
    refine accounted.waits other member ((Accounted.turns handles pending listed ?_).mp waits)
    exact fun same => unlike (congrArg Record.key same)
  · intro other member passed
    rw [accounted.key]
    by_cases same : other.key = record.key
    · rw [if_pos same, unique other member same]
      exact settled found
    · rw [if_neg same]
      refine accounted.settled other member fun waits => passed ?_
      exact (Accounted.turns handles pending listed
        (fun equal => same (congrArg Record.key equal))).mpr waits

/-- Nothing is written of the record. -/
theorem Accounted.skip (keys : (start.map Record.key).Nodup)
    (accounted : Accounted settings endings start records rotation become)
    (handles : rotation.point.Handles table record rest) (pending : next.point.pending = rest)
    (listed : ∀ other, other ∈ next.point.listed ↔ other ∈ table :: table.before)
    (loop : next.point.loop.Sublist (record :: rest))
    (settled : record ∈ start → Settled settings endings record (become record)) :
    ∃ become, Accounted settings endings start records next become := by
  have handled := @Accounted.handle _ _ _ _ _ _ _ _ keys accounted _ _ id handles pending listed
    loop (fun _ => rfl) (fun _ => rfl) settled
  have same : updateByKey records record.key id = records := by simp [updateByKey]
  rwa [same] at handled

variable {answer : RotationAnswer} {statement : Statement (List Record) Rotation}

/-- A record whose turn comes is settled by the end of its update. -/
theorem Accounted.update (lawful : settings.crypto.Lawful) (seals : settings.Seals)
    (rejects : settings.Rejects) (keys : (start.map Record.key).Nodup)
    (accounted : Accounted settings endings start records ⟨.update table record rest, result⟩
      become)
    (query : rotateMasterPassword settings records ⟨.update table record rest, result⟩ answer =
      some statement) :
    ∃ become, Accounted settings endings start
      (statement.perform records (endings.update record.key)).1
      ((statement.perform records (endings.update record.key)).2.getD
        ⟨.update table record rest, result⟩) become := by
  have waiting : record ∈ start → become record = record :=
    fun member => accounted.waits record member (.inr mem_cons_self)
  have handles : (RotationPoint.update table record rest).Handles table record rest := .inl rfl
  have sublist : (Rotation.continue table rest (result.addError record.key)).point.loop.Sublist
      (record :: rest) := by
    rw [continue_loop]
    exact sublist_cons_self record rest
  simp only [rotateMasterPassword] at query
  split at query
  · rename_i refused
    cases query
    have closed : record.decrypt settings settings.oldPassword = none := by
      cases opened : record.decrypt settings settings.oldPassword with
      | none => rfl
      | some text =>
        obtain ⟨kek, derived⟩ := Option.isSome_iff_exists.mp (seals answer.random)
        rw [Record.decrypt] at opened
        simp [rotateEncryption, opened, encryptWithPassword, derived] at refused
    have settled : record ∈ start → Settled settings endings record (become record) := by
      intro member
      rw [waiting member]
      constructor
      · intro text opened
        rw [closed] at opened
        cases opened
      · exact fun _ => ⟨rfl, rfl⟩
    have gaveUp := accounted.skip keys handles (continue_pending table rest _)
      (fun _ => mem_continue_listed) sublist settled
    cases ending : endings.update record.key <;> exact gaveUp
  · rename_i payload rotated
    cases query
    obtain ⟨text, opened, encrypted⟩ := Option.bind_eq_some_iff.mp rotated
    have opened : record.decrypt settings settings.oldPassword = some text := opened
    have settled : endings.update record.key ≠ .failed → record ∈ start →
        Settled settings endings record (Record.reseal settings payload (become record)) := by
      intro effective member
      rw [waiting member]
      constructor
      · intro other reads _
        rw [opened] at reads
        cases reads
        constructor
        · refine decrypt_of_encrypt lawful encrypted ?_
          cases stored : record.kdfIterations <;> simp [Record.reseal, stored]
        · exact rejects _ _ _ _ encrypted
      · rintro (closed | failed)
        · rw [opened] at closed
          cases closed
        · exact absurd failed effective
    cases ending : endings.update record.key with
    | done =>
      exact accounted.handle keys handles rfl (fun _ => .rfl) (List.Sublist.refl _)
        (fun _ => rfl) (fun _ => rfl) (settled (by simp [ending]))
    | failed =>
      refine accounted.skip keys handles (continue_pending table rest _)
        (fun _ => mem_continue_listed) sublist ?_
      intro member
      rw [waiting member]
      exact ⟨fun _ _ effective => absurd ending effective, fun _ => ⟨rfl, rfl⟩⟩
    | lost =>
      exact accounted.handle keys handles (continue_pending table rest _)
        (fun _ => mem_continue_listed) sublist (fun _ => rfl) (fun _ => rfl)
        (settled (by simp [ending]))

/-- The version of a record is no part of what it opens to. -/
theorem Settled.congr {after : Record} (settled : Settled settings endings record after)
    (payload : other.payload = after.payload)
    (iterations : other.kdfIterations = after.kdfIterations) :
    Settled settings endings record other where
  rotated text opened effective := by
    rw [decrypt_congr payload iterations, decrypt_congr payload iterations]
    exact settled.rotated text opened effective
  kept closed := by
    rw [payload, iterations]
    exact settled.kept closed

theorem Accounted.setVersion (keys : (start.map Record.key).Nodup)
    (accounted : Accounted settings endings start records ⟨.setVersion table record rest, result⟩
      become)
    (query : rotateMasterPassword settings records ⟨.setVersion table record rest, result⟩ answer =
      some statement) :
    ∃ become, Accounted settings endings start
      (statement.perform records (endings.setVersion record.key)).1
      ((statement.perform records (endings.setVersion record.key)).2.getD
        ⟨.setVersion table record rest, result⟩) become := by
  have handles : (RotationPoint.setVersion table record rest).Handles table record rest := .inr rfl
  have sublist : ∀ result : RotationResult,
      (Rotation.continue table rest result).point.loop.Sublist (record :: rest) := by
    intro result
    rw [continue_loop]
    exact sublist_cons_self record rest
  have passed : record ∈ start → Settled settings endings record (become record) := by
    intro member
    refine accounted.settled record member ?_
    rintro (unlisted | later)
    · exact unlisted (accounted.found record mem_cons_self).2
    · have distinct : ((record :: rest).map Record.key).Nodup := accounted.loop
      rw [map_cons, nodup_cons] at distinct
      exact distinct.1 (mem_map_of_mem later)
  have versioned : record ∈ start →
      Settled settings endings record (become record).setVersion :=
    fun member => (passed member).congr rfl rfl
  cases query
  cases endings.setVersion record.key with
  | done =>
    exact accounted.handle keys handles (continue_pending table rest _)
      (fun _ => mem_continue_listed) (sublist _) (fun _ => rfl) (fun _ => rfl) versioned
  | failed =>
    exact accounted.skip keys handles (continue_pending table rest _)
      (fun _ => mem_continue_listed) (sublist _) passed
  | lost =>
    exact accounted.handle keys handles (continue_pending table rest _)
      (fun _ => mem_continue_listed) (sublist _) (fun _ => rfl) (fun _ => rfl) versioned

/-- Before the first table nothing is written. -/
theorem Accounted.unstarted
    (accounted : Accounted settings endings start records rotation become)
    (listed : rotation.point.listed = []) : records = start := by
  rw [accounted.stored]
  conv_rhs => rw [← map_id start]
  refine map_congr_left ?_
  intro record member
  exact accounted.waits record member (.inl (by simp [listed]))

theorem Accounted.query (lawful : settings.crypto.Lawful) (seals : settings.Seals)
    (rejects : settings.Rejects) (keys : (start.map Record.key).Nodup)
    (accounted : Accounted settings endings start records rotation become)
    (query : rotateMasterPassword settings records rotation answer = some statement) :
    ∃ become, Accounted settings endings start
      (statement.perform records (endings.of rotation.point)).1
      ((statement.perform records (endings.of rotation.point)).2.getD rotation) become := by
  obtain ⟨point, result⟩ := rotation
  cases point with
  | verify =>
    have untouched := accounted.unstarted rfl
    obtain ⟨after, starts | refuses⟩ := verify_next query
    · simp only [RecordEndings.of, Statement.perform, after, starts, Option.getD_some, untouched]
      exact ⟨id, .initial settings endings start rfl rfl result⟩
    · simp only [RecordEndings.of, Statement.perform, after, refuses, Option.getD_some, untouched]
      exact ⟨id, .initial settings endings start rfl rfl result⟩
  | findMany table =>
    simp only [rotateMasterPassword] at query
    split at query
    · rename_i permuted
      cases query
      exact ⟨become, accounted.list keys (isPerm_iff.mp permuted)⟩
    · cases query
  | update table record rest => exact accounted.update lawful seals rejects keys query
  | setVersion table record rest => exact accounted.setVersion keys query
  | returned | refused => cases query

theorem accounted_of_run (lawful : settings.crypto.Lawful) (seals : settings.Seals)
    (rejects : settings.Rejects) (keys : (start.map Record.key).Nodup)
    {answers : List RotationAnswer}
    (run : rotateEnding settings endings answers start ⟨.verify, .empty⟩ = some (later, ended)) :
    ∃ become, Accounted settings endings start later ended become := by
  refine rotateEnding_invariant
    (fun records rotation => ∃ become, Accounted settings endings start records rotation become)
    ?_ ⟨id, .initial settings endings start rfl rfl .empty⟩ run
  rintro records rotation answer statement ⟨become, accounted⟩ query
  exact accounted.query lawful seals rejects keys query

theorem masterSeed?_map (key : ∀ record, (become record).key = record.key) (start : List Record) :
    masterSeed? (start.map become) = (masterSeed? start).map become := by
  have table : (fun record => decide (Record.table record = .masterSeeds)) ∘ become =
      fun record => decide (record.table = .masterSeeds) := by
    funext record
    have same : (become record).table = record.table := congrArg Prod.fst (key record)
    simp only [Function.comp_apply, same]
  rw [masterSeed?, masterSeed?, filter_map, table, getLast?_map]

/-! ## When a run gets past its verification -/

/-- The passwords are proper, and the old one opens the newest master seed. -/
structure Accepts (settings : Settings) (records : List Record) : Prop where
  passwords : settings.oldPassword ≠ "" ∧ settings.newPassword ≠ "" ∧
    settings.oldPassword ≠ settings.newPassword
  seed : ∀ seed, masterSeed? records = some seed →
    (seed.decrypt settings settings.oldPassword).isSome = true

theorem verify_accepts
    (query : rotateMasterPassword settings records ⟨.verify, result⟩ answer = some statement) :
    (statement.next = some ⟨.findMany .masterSeeds, result⟩ ∧ Accepts settings records) ∨
      (statement.next = some ⟨.refused, result⟩ ∧ ¬ Accepts settings records) := by
  have decided : ∀ verified : Bool,
      statement.next = some ⟨if settings.oldPassword != "" && settings.newPassword != "" &&
        settings.oldPassword != settings.newPassword && verified then .findMany .masterSeeds
          else .refused, result⟩ →
      (verified = true ↔ ∀ seed, masterSeed? records = some seed →
        (seed.decrypt settings settings.oldPassword).isSome = true) →
      (statement.next = some ⟨.findMany .masterSeeds, result⟩ ∧ Accepts settings records) ∨
        (statement.next = some ⟨.refused, result⟩ ∧ ¬ Accepts settings records) := by
    intro verified next opens
    by_cases accepted : (settings.oldPassword != "" && settings.newPassword != "" &&
        settings.oldPassword != settings.newPassword && verified) = true
    · rw [if_pos accepted] at next
      simp only [Bool.and_eq_true, bne_iff_ne, ne_eq] at accepted
      exact .inl ⟨next, ⟨accepted.1.1.1, accepted.1.1.2, accepted.1.2⟩, opens.mp accepted.2⟩
    · rw [if_neg accepted] at next
      refine .inr ⟨next, ?_⟩
      rintro ⟨passwords, seed⟩
      apply accepted
      simp only [Bool.and_eq_true, bne_iff_ne, ne_eq]
      exact ⟨⟨⟨passwords.1, passwords.2.1⟩, passwords.2.2⟩, opens.mpr seed⟩
  cases newest : masterSeed? records with
  | none =>
    refine decided true ?_ (by simp [newest])
    simp only [rotateMasterPassword, newest] at query
    cases query
    rfl
  | some seed =>
    refine decided (seed.decrypt settings settings.oldPassword).isSome ?_ (by simp [newest])
    simp only [rotateMasterPassword, newest] at query
    cases query
    rfl

/-- Where the run is, and whether it was let in. -/
inductive Admitted (settings : Settings) (start : List Record) : List Record → Rotation → Prop where
  | verifies (result : RotationResult) : Admitted settings start start ⟨.verify, result⟩
  | refused (records : List Record) (result : RotationResult) (not : ¬ Accepts settings start) :
      Admitted settings start records ⟨.refused, result⟩
  | runs (records : List Record) (rotation : Rotation) (accepts : Accepts settings start)
      (verified : rotation.point ≠ .verify) (admitted : rotation.point ≠ .refused) :
      Admitted settings start records rotation

theorem Admitted.query (admitted : Admitted settings start records rotation)
    (query : rotateMasterPassword settings records rotation answer = some statement) :
    Admitted settings start (statement.perform records (endings.of rotation.point)).1
      ((statement.perform records (endings.of rotation.point)).2.getD rotation) := by
  cases admitted with
  | verifies result =>
    obtain ⟨starts, accepts⟩ | ⟨refuses, not⟩ := verify_accepts query
    · simp only [RecordEndings.of, Statement.perform, starts, Option.getD_some]
      exact .runs _ _ accepts (by simp) (by simp)
    · simp only [RecordEndings.of, Statement.perform, refuses, Option.getD_some]
      exact .refused _ _ not
  | refused result not => cases query
  | runs _ _ accepts verified admitted =>
    have goesOn : ∀ (after : List Record) {table : Table} {pending : List Record}
        {result : RotationResult},
        Admitted settings start after (.continue table pending result) :=
      fun after {_ _ _} => .runs _ _ accepts continue_started.1 continue_started.2
    obtain ⟨point, result⟩ := rotation
    cases point with
    | verify => exact absurd rfl verified
    | findMany table =>
      simp only [rotateMasterPassword] at query
      split at query
      · cases query
        exact goesOn _
      · cases query
    | update table record rest =>
      simp only [rotateMasterPassword, RecordEndings.of] at query ⊢
      split at query
      · cases query
        cases endings.update record.key <;> exact goesOn _
      · cases query
        cases endings.update record.key with
        | done =>
          refine .runs _ _ accepts ?_ ?_
          · exact fun verify => RotationPoint.noConfusion verify
          · exact fun refused => RotationPoint.noConfusion refused
        | failed | lost => exact goesOn _
    | setVersion table record rest =>
      cases query
      simp only [RecordEndings.of]
      cases endings.setVersion record.key <;> exact goesOn _
    | returned | refused => cases query

theorem admitted_of_run {answers : List RotationAnswer}
    (run : rotateEnding settings endings answers start ⟨.verify, .empty⟩ = some (later, ended)) :
    Admitted settings start later ended := by
  refine rotateEnding_invariant (Admitted settings start) ?_ (.verifies _) run
  exact fun _ _ _ _ admitted query => admitted.query query

/-- A run that has returned was let in, and all its records are settled. -/
theorem settled_of_returned
    (accounted : Accounted settings endings start later ended become)
    (admitted : Admitted settings start later ended) (returned : ended.point = .returned) :
    Accepts settings start ∧
      ∀ record ∈ start, Settled settings endings record (become record) := by
  have accepts : Accepts settings start := by
    cases admitted with
    | verifies => cases returned
    | refused => cases returned
    | runs _ _ accepts => exact accepts
  refine ⟨accepts, ?_⟩
  intro record member
  refine accounted.settled record member ?_
  rintro (unlisted | waiting)
  · rw [returned] at unlisted
    exact unlisted (by cases record.table <;> decide)
  · rw [returned] at waiting
    cases waiting

end Accounting

/-! ## The second run -/

instance : Nonempty RandomBytes :=
  ⟨⟨List.replicate 32 0, [], [], List.replicate 12 0, by simp, by simp⟩⟩

/-- The newest master seed is among the records that failed, if there is one, or no record is. -/
def Resumable (endings : RecordEndings) (start : List Record) : Prop :=
  (∀ seed, masterSeed? start = some seed → endings.update seed.key = .failed) ∨
    ∀ record ∈ start, endings.update record.key ≠ .failed

section Second

variable {settings : Settings} {endings : RecordEndings} {start middle later : List Record}
  {paused ended : Rotation} {become rebecome : Record → Record}

/-- After the first run, a record is under the new password or as it was. -/
theorem settled_cases {record after : Record} (old : record.Old settings)
    (settled : Settled settings endings record after) :
    (endings.update record.key ≠ .failed ∧
        after.decrypt settings settings.newPassword = some record.plaintext ∧
        after.decrypt settings settings.oldPassword = none) ∨
      (endings.update record.key = .failed ∧
        after.decrypt settings settings.newPassword = none ∧
        after.decrypt settings settings.oldPassword = some record.plaintext) := by
  by_cases failed : endings.update record.key = .failed
  · obtain ⟨payload, iterations⟩ := settled.kept (.inr failed)
    refine .inr ⟨failed, ?_, ?_⟩
    · rw [decrypt_congr payload iterations]
      exact old.closed
    · rw [decrypt_congr payload iterations]
      exact old.opens
  · exact .inl ⟨failed, settled.rotated _ old.opens failed⟩

/-- The second run is let in where the newest master seed failed. -/
theorem accepts_middle (old : ∀ record ∈ start, record.Old settings)
    (accepts : Accepts settings start) (key : ∀ record, (become record).key = record.key)
    (settled : ∀ record ∈ start, Settled settings endings record (become record)) :
    Accepts settings (start.map become) ↔
      ∀ seed, masterSeed? start = some seed → endings.update seed.key = .failed := by
  have stored : ∀ seed, masterSeed? start = some seed → seed ∈ start :=
    fun seed newest => mem_of_mem_filter (mem_of_getLast? newest)
  constructor
  · intro again seed newest
    have opened := again.seed (become seed) (by rw [masterSeed?_map key, newest]; rfl)
    rcases settled_cases (old seed (stored seed newest)) (settled seed (stored seed newest)) with
      ⟨_, _, closed⟩ | ⟨failed, _⟩
    · rw [closed] at opened
      cases opened
    · exact failed
  · intro failed
    refine ⟨accepts.passwords, ?_⟩
    intro seed newest
    rw [masterSeed?_map key] at newest
    obtain ⟨first, found, rfl⟩ := Option.map_eq_some_iff.mp newest
    rcases settled_cases (old first (stored first found)) (settled first (stored first found)) with
      ⟨effective, _⟩ | ⟨_, _, opens⟩
    · exact absurd (failed first found) effective
    · rw [opens]
      rfl

/-- What has been through both runs opens under the new password. -/
theorem rotated_of_both {record : Record} (old : record.Old settings)
    (plaintext : ∀ record, (become record).plaintext = record.plaintext)
    (replaintext : ∀ record, (rebecome record).plaintext = record.plaintext)
    (settled : Settled settings endings record (become record))
    (resettled : Settled settings .done (become record) (rebecome (become record))) :
    (rebecome (become record)).Rotated settings := by
  rw [Record.Rotated, replaintext, plaintext]
  rcases settled_cases old settled with ⟨_, opens, closed⟩ | ⟨_, _, opens⟩
  · obtain ⟨payload, iterations⟩ := resettled.kept (.inl closed)
    rw [decrypt_congr payload iterations]
    exact opens
  · exact (resettled.rotated _ opens (by simp [RecordEndings.done])).1

end Second

/-- A rotation has failed for some records and is run again, and no query fails: it ends, and every
record is under the new password then exactly when the newest master seed is among those that
failed, or no record is. -/
theorem rerun_completes_iff {settings : Settings} {start middle : List Record}
    {endings : RecordEndings} {answers : List RotationAnswer} {paused : Rotation}
    (lawful : settings.crypto.Lawful) (seals : settings.Seals) (rejects : settings.Rejects)
    (keys : (start.map Record.key).Nodup) (old : ∀ record ∈ start, record.Old settings)
    (first : rotateEnding settings endings answers start ⟨.verify, .empty⟩ = some (middle, paused))
    (returned : paused.point = .returned) :
    (∃ answers later ended,
      rotateEnding settings .done answers middle ⟨.verify, .empty⟩ = some (later, ended) ∧
        ended.point.Over) ∧
      ∀ answers later ended,
        rotateEnding settings .done answers middle ⟨.verify, .empty⟩ = some (later, ended) →
        ended.point.Over →
        ((∀ record ∈ later, record.Rotated settings) ↔ Resumable endings start) := by
  obtain ⟨random⟩ := (inferInstance : Nonempty RandomBytes)
  refine ⟨rotation_ends settings .done random middle, ?_⟩
  intro answers later ended second finished
  obtain ⟨become, accounted⟩ := accounted_of_run lawful seals rejects keys first
  obtain ⟨accepts, settled⟩ := settled_of_returned accounted (admitted_of_run first) returned
  have reaccepts := accepts_middle old accepts accounted.key settled
  rw [← accounted.stored] at reaccepts
  have rekeys : (middle.map Record.key).Nodup := by
    have same : Record.key ∘ become = Record.key := funext accounted.key
    rwa [accounted.stored, map_map, same]
  obtain ⟨rebecome, reaccounted⟩ := accounted_of_run lawful seals rejects rekeys second
  rcases finished with complete | refused
  · obtain ⟨again, resettled⟩ := settled_of_returned reaccounted (admitted_of_run second) complete
    refine iff_of_true ?_ (.inl (reaccepts.mp again))
    intro record stored
    rw [reaccounted.stored, accounted.stored, map_map] at stored
    obtain ⟨original, found, rfl⟩ := mem_map.mp stored
    refine rotated_of_both (old original found) accounted.plaintext reaccounted.plaintext
      (settled original found) (resettled _ ?_)
    rw [accounted.stored]
    exact mem_map_of_mem found
  · have not : ¬ Accepts settings middle := by
      cases admitted_of_run second with
      | verifies => cases refused
      | refused _ _ not => exact not
      | runs _ _ _ _ admitted => exact absurd refused admitted
    have same : later = middle := reaccounted.unstarted (by rw [refused]; rfl)
    constructor
    · intro rotated
      right
      intro record found failed
      have opens := rotated (become record) (by
        rw [same, accounted.stored]
        exact mem_map_of_mem found)
      rcases settled_cases (old record found) (settled record found) with
        ⟨effective, _⟩ | ⟨_, closed, _⟩
      · exact effective failed
      · rw [Record.Rotated, closed] at opens
        cases opens
    · rintro (failed | effective)
      · exact absurd (reaccepts.mpr failed) not
      · intro record stored
        rw [same, accounted.stored] at stored
        obtain ⟨original, found, rfl⟩ := mem_map.mp stored
        rw [Record.Rotated, accounted.plaintext]
        rcases settled_cases (old original found) (settled original found) with
          ⟨_, opens, _⟩ | ⟨failed, _⟩
        · exact opens
        · exact absurd failed (effective original found)

/-! ## Two seeds -/

theorem toySettings_seals : toySettings.Seals := fun _ => rfl

theorem toySettings_rejects : toySettings.Rejects := by
  intro plaintext random payload iterations encrypted
  cases encrypted
  have unwrapped := unwrapDek_wrapped toyCrypto_lawful (toyKey [110, 101, 119])
    (Or.inl random.length_dekIv) random.length_dek (toyKey [111, 108, 100])
  have refused : toyCrypto.gcmDecrypt (toyKey [111, 108, 100]) random.dekIv
      (toyCrypto.gcmEncrypt (toyKey [110, 101, 119]) random.dekIv random.dek).1
      (toyCrypto.gcmEncrypt (toyKey [110, 101, 119]) random.dekIv random.dek).2 = none :=
    by
      simp only [toyCrypto]
      exact if_neg (by decide)
  rw [refused] at unwrapped
  exact congrArg (fun dek => dek.bind fun dek => toyCrypto.gcmDecrypt dek random.iv
    (toyCrypto.gcmEncrypt random.dek random.iv plaintext).1
    (toyCrypto.gcmEncrypt random.dek random.iv plaintext).2) unwrapped

/-- The master seed, beside the seed of project 5. -/
def toyMasterSeed : Record := { toySeed with subject := .masterSeed }

theorem toySeeds_old : ∀ record ∈ [toyMasterSeed, toySeed], record.Old toySettings := by
  intro record member
  rcases mem_pair.mp member with rfl | rfl
  · exact ⟨by decide +kernel, by decide +kernel⟩
  · exact ⟨by decide +kernel, by decide +kernel⟩

/-- The update of one record fails. -/
def failingAt (key : Table × Nat) : RecordEndings :=
  ⟨fun other => if other = key then .failed else .done, fun _ => .done⟩

/-- The rotation of two seeds, as its queries list them. -/
def toyAnswers (listings : List (List Record)) : List RotationAnswer :=
  listings.map fun listing => ⟨toyRandom, listing⟩

/-- The update of the master seed fails, and a second run completes the rotation. -/
theorem rerun_completes_sample :
    ∃ answers later ended middle,
      rotateEnding toySettings .done answers middle ⟨.verify, .empty⟩ = some (later, ended) ∧
        ended.point.Over ∧ ∀ record ∈ later, record.Rotated toySettings := by
  have replayed : ((rotateEnding toySettings (failingAt (.masterSeeds, 1))
      (toyAnswers [[], [toyMasterSeed], [], [toySeed], [], [], [], []])
      [toyMasterSeed, toySeed] ⟨.verify, .empty⟩).any fun reached =>
        reached.2.point = .returned) = true := by decide +kernel
  cases run : rotateEnding toySettings (failingAt (.masterSeeds, 1))
      (toyAnswers [[], [toyMasterSeed], [], [toySeed], [], [], [], []])
      [toyMasterSeed, toySeed] ⟨.verify, .empty⟩ with
  | none =>
    rw [run] at replayed
    cases replayed
  | some reached =>
    rw [run, Option.any_some, decide_eq_true_eq] at replayed
    obtain ⟨ends, iff⟩ := rerun_completes_iff toyCrypto_lawful toySettings_seals
      toySettings_rejects (by decide) toySeeds_old run replayed
    obtain ⟨answers, later, ended, second, finished⟩ := ends
    exact ⟨answers, later, ended, reached.1, second, finished,
      (iff answers later ended second finished).mpr (.inl (by decide +kernel))⟩

/-- The update of the seed of the project fails, and a second run is refused. -/
theorem rerun_refused :
    ¬ ∀ (settings : Settings) (start middle : List Record) (endings : RecordEndings)
      (answers : List RotationAnswer) (paused : Rotation), settings.crypto.Lawful →
      settings.Seals → settings.Rejects → (start.map Record.key).Nodup →
      (∀ record ∈ start, record.Old settings) →
      rotateEnding settings endings answers start ⟨.verify, .empty⟩ = some (middle, paused) →
      paused.point = .returned →
      ∀ answers later ended,
        rotateEnding settings .done answers middle ⟨.verify, .empty⟩ = some (later, ended) →
        ended.point.Over → ∀ record ∈ later, record.Rotated settings := by
  intro always
  have replayed : ((rotateEnding toySettings (failingAt (.projectSeeds, 1))
      (toyAnswers [[], [toyMasterSeed], [], [], [toySeed], [], [], []])
      [toyMasterSeed, toySeed] ⟨.verify, .empty⟩).any fun reached =>
        reached.2.point = .returned && (rotateEnding toySettings .done (toyAnswers [[]]) reached.1
          ⟨.verify, .empty⟩).any fun again => again.2.point = .refused &&
            again.1.any fun record => record.decrypt toySettings "new" = none) = true := by
    decide +kernel
  cases run : rotateEnding toySettings (failingAt (.projectSeeds, 1))
      (toyAnswers [[], [toyMasterSeed], [], [], [toySeed], [], [], []])
      [toyMasterSeed, toySeed] ⟨.verify, .empty⟩ with
  | none =>
    rw [run] at replayed
    cases replayed
  | some reached =>
    rw [run, Option.any_some, Bool.and_eq_true, decide_eq_true_eq] at replayed
    cases second : rotateEnding toySettings .done (toyAnswers [[]]) reached.1
        ⟨.verify, .empty⟩ with
    | none =>
      rw [second] at replayed
      cases replayed.2
    | some again =>
      rw [second, Option.any_some, Bool.and_eq_true, decide_eq_true_eq] at replayed
      obtain ⟨returned, refused, left⟩ := replayed
      obtain ⟨record, stored, closed⟩ := any_eq_true.mp left
      have opens := always toySettings _ _ _ _ _ toyCrypto_lawful toySettings_seals
        toySettings_rejects (by decide) toySeeds_old run returned _ _ _ second (.inr refused)
        record stored
      have closed : record.decrypt toySettings toySettings.newPassword = none :=
        of_decide_eq_true closed
      rw [Record.Rotated, closed] at opens
      cases opens

end CryptoVaultHub.KeyVault.Vault
