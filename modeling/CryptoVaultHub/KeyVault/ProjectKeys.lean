import CryptoVaultHub.KeyVault.ShareSets
import CryptoVaultHub.Semantics.Calls

/-!
# Generating the keys of a project

`generateProjectKeys` reads the seed of a project, inserts its three keys in one transaction, splits
the backup key into shares that are inserted one by one, and marks the seed. Every statement can
fail. A call that fails once the transaction has taken effect leaves keys behind, and the next call
is refused because of them.

The audit log never throws, and nothing reads it.
-/

namespace CryptoVaultHub.KeyVault.ProjectKeys

open Vault Shamir Option

/-! ## The call -/

/-- The records and shares, and the projects whose seed is marked `shamirSplitDone`. -/
structure ProjectStore extends Shamir.Store where
  splitDone : List ProjectId

inductive Failure where
  | notFound (message : String)
  | conflict (message : String)
  | badRequest (message : String)
  | thrown
deriving DecidableEq

structure DerivedKeyInfo where
  publicKey : String
  address : String
  derivationPath : DerivationPath
  keyType : KeyType
deriving DecidableEq

/-- How the statements of a call end, and what it draws: the random values of its encryptions, which
of several backup keys it finds, and the shares. -/
structure Environment where
  findSeed : Ending
  createKeys : Ending
  keyRandom : Nat → RandomBytes
  findShares : Ending
  findBackupKey : Ending
  chosen : Nat
  entropy : Nat
  createShare : Nat → Ending
  shareRandom : Nat → RandomBytes
  markSeed : Ending

abbrev Attempt := Call ProjectStore Failure

/-- A statement of a call. -/
def query {Value : Type} (ending : Ending)
    (body : ProjectStore → Except Failure (Value × ProjectStore)) : Attempt Value :=
  Call.statement ending .thrown body

variable (settings : Vault.Settings) (sharing : SecretSharing)
  (describe : Bytes → String × String) (projectId : ProjectId) (clientId : ClientId)
  (environment : Environment)

/-- A key of the project, of any type. -/
def isProjectKey (record : Record) : Bool :=
  match record.subject with
  | .derivedKey _ (some other) .. => other = projectId
  | _ => false

/-- The seed of the project, decrypted. -/
def loadMnemonic : Attempt Bytes :=
  query environment.findSeed fun store =>
    match projectSeed? store.keys projectId with
    | none =>
      .error <| .notFound <|
        s!"No seed found for project {projectId}. Generate a project seed first."
    | some seed =>
      match mnemonicOf settings (some seed) with
      | none => .error .thrown
      | some mnemonic => .ok (mnemonic, store)

/-- What is returned about the keys; `describe` gives the public key and the address of a private
key. -/
def keyInfos (drafts : List Draft) : List DerivedKeyInfo :=
  (signingTypes.zip drafts).map fun key =>
    { publicKey := (describe key.2.plaintext).1
      address := (describe key.2.plaintext).2
      derivationPath := projectKeyPath key.1.position
      keyType := key.1 }

/-- The transaction that checks for keys and inserts the three. -/
def createProjectKeys (mnemonic : Bytes) : Attempt (List DerivedKeyInfo) :=
  query environment.createKeys fun store =>
    if store.keys.any (isProjectKey projectId) then
      .error (.conflict s!"Project {projectId} already has derived keys")
    else
      match keyDrafts settings mnemonic (projectKeySubjects projectId clientId) with
      | none => .error .thrown
      | some drafts =>
        match insertRecords settings store.keys environment.keyRandom drafts with
        | none => .error .thrown
        | some records => .ok (keyInfos describe drafts, { store with keys := records })

/-- The shares of a split, from one position on. -/
def createShares (split : Shamir.Split) (shares : List Bytes) : (index left : Nat) → Attempt Unit
  | _, 0 => pure ()
  | index, left + 1 => do
    query (environment.createShare index) fun store =>
      match (split.row settings shares index (environment.shareRandom index)).filter
          store.accepts with
      | none => .error .thrown
      | some row => .ok ((), { store with toStore := store.toStore.create row })
    createShares split shares (index + 1) left

/-- `splitBackupKey` of the project, with its defaults. -/
def splitBackupKey : Attempt Unit := do
  let split := Shamir.Split.default clientId (some projectId)
  query environment.findShares fun store =>
    if store.sharesOf split.scope = [] then .ok ((), store)
    else
      .error <| .badRequest <|
        s!"Shares already exist for client {clientId}, project {projectId}. " ++
          "Delete existing shares first."
  let shares ← query environment.findBackupKey fun store =>
    match (store.keys.filter split.isBackupKey)[environment.chosen]? with
    | none => .error (.notFound s!"Active backup key not found for project {projectId}")
    | some key =>
      match (key.decrypt settings settings.masterPassword).bind fun privateKey =>
          sharing.share privateKey split.totalShares split.threshold environment.entropy with
      | none => .error .thrown
      | some shares => .ok (shares, store)
  createShares settings environment split shares 0 shares.length

def generateProjectKeys : Attempt (List DerivedKeyInfo) := do
  let mnemonic ← loadMnemonic settings projectId environment
  let keys ← createProjectKeys settings describe projectId clientId environment mnemonic
  splitBackupKey settings sharing projectId clientId environment
  query environment.markSeed fun store =>
    .ok ((), { store with splitDone := projectId :: store.splitDone })
  return keys

/-! ## The property and the condition -/

/-- The seed opens, and the platform, client and backup key of the project are stored, active, and
open to the private keys at their paths. -/
def ProjectStore.Usable (store : ProjectStore) : Prop :=
  ∃ mnemonic, mnemonicOf settings (projectSeed? store.keys projectId) = some mnemonic ∧
    ∀ keyType ∈ signingTypes, ∃ record ∈ store.keys, ∃ privateKey,
      record.subject = .derivedKey clientId (some projectId) keyType .evm ∧
        record.isActive = true ∧
        settings.privateKey mnemonic (projectKeyPath keyType.position) = some privateKey ∧
        record.decrypt settings settings.masterPassword = some privateKey

/-- A call that is made again after a failure returns the keys, and the project can use them. -/
structure Retried (keys : List DerivedKeyInfo) (failed : ProjectStore) : Prop where
  returns : (generateProjectKeys settings sharing describe projectId clientId environment
    failed).1 = .ok keys
  usable : (generateProjectKeys settings sharing describe projectId clientId environment
    failed).2.Usable settings projectId clientId

/-- The call fails before its transaction takes effect. -/
def Environment.FailsEarly : Prop :=
  environment.findSeed ≠ .done ∨ environment.createKeys = .failed

/-! ## Inserting the keys -/

section Records

variable {settings : Vault.Settings} {records later others : List Record} {draft : Draft}
  {drafts : List Draft} {random other : Nat → RandomBytes}

/-- What a draft becomes. -/
structure Stores (draft : Draft) (record : Record) : Prop where
  subject : record.subject = draft.subject
  isActive : record.isActive = true
  plaintext : record.plaintext = draft.plaintext

theorem insertRecord_stores {random : RandomBytes}
    (insertion : insertRecord settings records draft random = some later) :
    ∃ record, later = records ++ [record] ∧ Stores draft record := by
  unfold insertRecord at insertion
  split at insertion
  · cases insertion
  · obtain ⟨payload, -, built⟩ := bind_eq_some_iff.mp insertion
    cases built
    exact ⟨_, rfl, ⟨rfl, rfl, rfl⟩⟩

/-- Every draft is stored, behind the records that were there. -/
theorem insertRecords_stores
    (insertion : insertRecords settings records random drafts = some later) :
    ∃ added, later = records ++ added ∧
      ∀ draft ∈ drafts, ∃ record ∈ added, Stores draft record := by
  induction drafts generalizing records with
  | nil =>
    cases insertion
    exact ⟨[], by simp, by simp⟩
  | cons draft rest ih =>
    obtain ⟨middle, first, continued⟩ := bind_eq_some_iff.mp insertion
    obtain ⟨record, rfl, stores⟩ := insertRecord_stores first
    obtain ⟨added, rfl, stored⟩ := ih continued
    refine ⟨record :: added, by simp, ?_⟩
    intro one member
    rcases List.mem_cons.mp member with rfl | later
    · exact ⟨record, List.mem_cons_self, stores⟩
    · obtain ⟨other, inside, holds⟩ := stored one later
      exact ⟨other, List.mem_cons_of_mem _ inside, holds⟩

/-- Whether an insertion throws depends on no random value. -/
theorem insertRecord_uniform (uniform : settings.crypto.Uniform)
    (same : records.map Record.subject = others.map Record.subject) {random other : RandomBytes}
    (insertion : insertRecord settings records draft random = some later) :
    ∃ inserted, insertRecord settings others draft other = some inserted ∧
      later.map Record.subject = inserted.map Record.subject := by
  unfold insertRecord at insertion ⊢
  have conflicts : (records.any fun record => draft.subject.conflicts record.subject) =
      others.any fun record => draft.subject.conflicts record.subject := by
    have mapped := congrArg (fun subjects => subjects.any draft.subject.conflicts) same
    simpa only [List.any_map, Function.comp_def] using mapped
  rw [conflicts] at insertion
  split at insertion
  · cases insertion
  · rename_i free
    rw [if_neg free]
    obtain ⟨payload, encrypted, built⟩ := bind_eq_some_iff.mp insertion
    cases built
    obtain ⟨kek, derived, -⟩ := bind_eq_some_iff.mp encrypted
    have works : (settings.crypto.pbkdf2 settings.masterPassword other.salt
        settings.kdfIterations).isSome = true := by
      rw [← uniform settings.masterPassword random.salt settings.masterPassword other.salt
        settings.kdfIterations, derived]
      rfl
    obtain ⟨key, again⟩ := isSome_iff_exists.mp works
    simp only [encryptWithPassword, again, bind_eq_bind, bind_some]
    refine ⟨_, rfl, ?_⟩
    simp [same]

theorem insertRecords_uniform (uniform : settings.crypto.Uniform)
    (same : records.map Record.subject = others.map Record.subject)
    (insertion : insertRecords settings records random drafts = some later) :
    ∃ inserted, insertRecords settings others other drafts = some inserted := by
  induction drafts generalizing records others with
  | nil => exact ⟨others, rfl⟩
  | cons draft rest ih =>
    obtain ⟨middle, first, continued⟩ := bind_eq_some_iff.mp insertion
    obtain ⟨inserted, again, subjects⟩ := insertRecord_uniform uniform same first
    obtain ⟨last, goes⟩ := ih subjects continued
    exact ⟨last, bind_eq_some_iff.mpr ⟨inserted, again, goes⟩⟩

/-- There is a draft for each key, with the private key at its path. -/
theorem keyDrafts_mem {mnemonic : Bytes} {keys : List (Subject × DerivationPath)}
    (derived : keyDrafts settings mnemonic keys = some drafts) :
    ∀ key ∈ keys, ∃ draft ∈ drafts, draft.subject = key.1 ∧
      settings.privateKey mnemonic key.2 = some draft.plaintext := by
  induction keys generalizing drafts with
  | nil => simp
  | cons key rest ih =>
    simp only [keyDrafts, List.mapM_cons, bind_eq_bind, bind_eq_some_iff,
      map_eq_some_iff, pure_def, Option.some.injEq] at derived
    obtain ⟨first, ⟨privateKey, found, rfl⟩, others, continued, rfl⟩ := derived
    intro one member
    rcases List.mem_cons.mp member with rfl | later
    · exact ⟨_, List.mem_cons_self, rfl, found⟩
    · obtain ⟨draft, inside, holds⟩ := ih continued one later
      exact ⟨draft, List.mem_cons_of_mem _ inside, holds⟩

end Records

/-! ## One call -/

section Calls

variable {settings sharing describe projectId clientId}
variable {environment : Environment} {store after : ProjectStore} {mnemonic : Bytes}
  {drafts : List Draft} {records : List Record} {keys : List DerivedKeyInfo}

/-- The part of a call behind its transaction. -/
def afterKeys (settings : Vault.Settings) (sharing : SecretSharing) (projectId : ProjectId)
    (clientId : ClientId) (environment : Environment) (keys : List DerivedKeyInfo) :
    Attempt (List DerivedKeyInfo) := do
  splitBackupKey settings sharing projectId clientId environment
  query environment.markSeed fun store =>
    .ok ((), { store with splitDone := projectId :: store.splitDone })
  return keys

theorem generateProjectKeys_eq :
    generateProjectKeys settings sharing describe projectId clientId environment =
      loadMnemonic settings projectId environment >>= fun mnemonic =>
        createProjectKeys settings describe projectId clientId environment mnemonic >>=
          afterKeys settings sharing projectId clientId environment := rfl

/-- Nothing behind the transaction changes the keys. -/
theorem afterKeys_keeps (keys : List DerivedKeyInfo) (records : List Record) :
    (afterKeys settings sharing projectId clientId environment keys).Keeps
      fun store => store.keys = records := by
  have shares : ∀ (split : Shamir.Split) (shares : List Bytes) (left index : Nat),
      (createShares settings environment split shares index left).Keeps
        fun store => store.keys = records := by
    intro split shares left
    induction left with
    | zero => exact fun index => Call.Keeps.pure ()
    | succ left ih =>
      intro index
      refine Call.Keeps.bind (Call.Keeps.statement ?_) fun _ => ih (index + 1)
      intro store value after same inserted
      split at inserted
      · cases inserted
      · cases inserted
        exact same
  refine Call.Keeps.bind (Call.Keeps.bind (Call.Keeps.statement ?_) fun _ =>
    Call.Keeps.bind (Call.Keeps.statement ?_) fun found => shares _ found _ 0) fun _ =>
      Call.Keeps.bind (Call.Keeps.statement ?_) fun _ => Call.Keeps.pure keys
  · intro store value after same checked
    split at checked
    · cases checked
      exact same
    · cases checked
  · intro store value after same found
    split at found
    · cases found
    · split at found
      · cases found
      · cases found
        exact same
  · rintro store value after same ⟨⟩
    exact same

theorem loadMnemonic_store (store : ProjectStore) :
    (loadMnemonic settings projectId environment store).2 = store := by
  have keeps : (loadMnemonic settings projectId environment).Keeps fun other => other = store := by
    refine Call.Keeps.statement ?_
    intro before value after same loaded
    split at loaded
    · cases loaded
    · split at loaded
      · cases loaded
      · cases loaded
        exact same
  exact keeps store rfl

/-- The transaction can insert these keys. -/
structure Creates (settings : Vault.Settings) (projectId : ProjectId) (clientId : ClientId)
    (random : Nat → RandomBytes) (store : ProjectStore) (mnemonic : Bytes) (drafts : List Draft)
    (records : List Record) : Prop where
  free : store.keys.any (isProjectKey projectId) = false
  derived : keyDrafts settings mnemonic (projectKeySubjects projectId clientId) = some drafts
  inserted : insertRecords settings store.keys random drafts = some records

/-- A mnemonic that was loaded is the one of the seed. -/
theorem loadMnemonic_ok
    (loaded : loadMnemonic settings projectId environment store = (.ok mnemonic, after)) :
    after = store ∧ environment.findSeed = .done ∧
      mnemonicOf settings (projectSeed? store.keys projectId) = some mnemonic := by
  rw [loadMnemonic, query] at loaded
  obtain ⟨takes, done⟩ := Call.statement_returned loaded
  split at takes
  · cases takes
  · rename_i seed found
    split at takes
    · cases takes
    · rename_i opened
      cases takes
      exact ⟨rfl, done, by rw [found, opened]⟩

/-- A seed that opens is loaded, unless the statement fails. -/
theorem loadMnemonic_done (environment : Environment)
    (opens : mnemonicOf settings (projectSeed? store.keys projectId) = some mnemonic)
    (done : environment.findSeed = .done) :
    loadMnemonic settings projectId environment store = (.ok mnemonic, store) := by
  rcases found : projectSeed? store.keys projectId with _ | seed
  · rw [found] at opens
    cases opens
  · rw [found] at opens
    simp [loadMnemonic, query, Call.statement, found, opens, done]

theorem createProjectKeys_apply (describe : Bytes → String × String)
    (creates : Creates settings projectId clientId environment.keyRandom store mnemonic drafts
      records) :
    createProjectKeys settings describe projectId clientId environment mnemonic store =
      match environment.createKeys with
      | .done => (.ok (keyInfos describe drafts), { store with keys := records })
      | .failed => (.error .thrown, store)
      | .lost => (.error .thrown, { store with keys := records }) := by
  rw [createProjectKeys, query]
  refine Call.statement_ok ?_
  simp [creates.free, creates.derived, creates.inserted]

/-- Keys of the project turn the next call away. -/
theorem createProjectKeys_refused (store : ProjectStore) (mnemonic : Bytes)
    (present : store.keys.any (isProjectKey projectId) = true) :
    createProjectKeys settings describe projectId clientId environment mnemonic store =
      (.error (.conflict s!"Project {projectId} already has derived keys"), store) := by
  rw [createProjectKeys, query]
  refine Call.statement_error ?_
  simp [present]

theorem createProjectKeys_ok
    (created : createProjectKeys settings describe projectId clientId environment mnemonic store =
      (.ok keys, after)) :
    ∃ drafts records, Creates settings projectId clientId environment.keyRandom store mnemonic
      drafts records ∧ after = { store with keys := records } := by
  rw [createProjectKeys, query] at created
  obtain ⟨takes, -⟩ := Call.statement_returned created
  split at takes
  · cases takes
  · rename_i free
    split at takes
    · cases takes
    · rename_i drafts derived
      split at takes
      · cases takes
      · rename_i records inserted
        cases takes
        exact ⟨drafts, records, ⟨by simpa using free, derived, inserted⟩, rfl⟩

/-- Another call draws other values, and can insert the keys just as well. -/
theorem Creates.uniform (uniform : settings.crypto.Uniform) {random : Nat → RandomBytes}
    (creates : Creates settings projectId clientId random store mnemonic drafts records)
    (other : Nat → RandomBytes) :
    ∃ inserted, Creates settings projectId clientId other store mnemonic drafts inserted := by
  obtain ⟨inserted, again⟩ := insertRecords_uniform uniform rfl creates.inserted
  exact ⟨inserted, creates.free, creates.derived, again⟩

/-- A call that returns has read the seed and inserted the keys. -/
theorem generateProjectKeys_ok
    (returns : (generateProjectKeys settings sharing describe projectId clientId environment
      store).1 = .ok keys) :
    ∃ mnemonic drafts records,
      mnemonicOf settings (projectSeed? store.keys projectId) = some mnemonic ∧
        Creates settings projectId clientId environment.keyRandom store mnemonic drafts records ∧
        (generateProjectKeys settings sharing describe projectId clientId environment
          store).2.keys = records := by
  rw [generateProjectKeys_eq] at returns ⊢
  obtain ⟨mnemonic, loaded, read, continued⟩ := Call.bind_ok returns
  obtain ⟨rfl, -, opens⟩ := loadMnemonic_ok read
  obtain ⟨infos, created, inserted, rest⟩ := Call.bind_ok continued
  obtain ⟨drafts, records, creates, rfl⟩ := createProjectKeys_ok inserted
  refine ⟨mnemonic, drafts, records, opens, creates, ?_⟩
  rw [Call.bind_apply_ok read, Call.bind_apply_ok inserted]
  exact afterKeys_keeps infos records _ rfl

/-- Inserted keys can be used. -/
theorem Creates.usable (lawful : settings.crypto.Lawful) {random : Nat → RandomBytes}
    (opens : mnemonicOf settings (projectSeed? store.keys projectId) = some mnemonic)
    (creates : Creates settings projectId clientId random store mnemonic drafts records)
    (stored : after.keys = records) : after.Usable settings projectId clientId := by
  obtain ⟨added, rfl, all⟩ := insertRecords_stores creates.inserted
  have written : ∀ record ∈ added, Written settings record := by
    obtain ⟨other, same, written, -⟩ :=
      insertRecords_grown (keyDrafts_current creates.derived) creates.inserted
    rwa [List.append_cancel_left same]
  refine ⟨mnemonic, ?_, ?_⟩
  · rcases found : projectSeed? store.keys projectId with _ | seed
    · rw [found] at opens
      cases opens
    · rw [found] at opens
      rw [stored, projectSeed?, List.find?_append, ← projectSeed?, found]
      exact opens
  · intro keyType member
    obtain ⟨draft, drafted, subject, privateKey⟩ := keyDrafts_mem creates.derived
      (.derivedKey clientId (some projectId) keyType .evm, projectKeyPath keyType.position)
      (List.mem_map_of_mem member)
    obtain ⟨record, inside, stores⟩ := all draft drafted
    refine ⟨record, by rw [stored]; exact List.mem_append_right _ inside, draft.plaintext, ?_⟩
    refine ⟨stores.subject.trans subject, stores.isActive, privateKey, ?_⟩
    obtain ⟨⟨drawn, encrypted⟩, iterations⟩ := written record inside
    rw [← stores.plaintext]
    exact decrypt_of_encrypt lawful encrypted iterations

/-- A project that can use its keys has some. -/
theorem ProjectStore.Usable.any (usable : store.Usable settings projectId clientId) :
    store.keys.any (isProjectKey projectId) = true := by
  obtain ⟨mnemonic, -, all⟩ := usable
  obtain ⟨record, stored, privateKey, subject, -⟩ := all .platform (by simp [signingTypes])
  exact List.any_eq_true.mpr ⟨record, stored, by simp [isProjectKey, subject]⟩

/-- Once a project has keys, a call is refused and changes no key. -/
theorem generateProjectKeys_refused
    (present : store.keys.any (isProjectKey projectId) = true) :
    (∀ keys, (generateProjectKeys settings sharing describe projectId clientId environment
        store).1 ≠ .ok keys) ∧
      (generateProjectKeys settings sharing describe projectId clientId environment store).2 =
        store := by
  rw [generateProjectKeys_eq]
  have loads : (loadMnemonic settings projectId environment store).2 = store :=
    loadMnemonic_store store
  obtain ⟨failure, after, loaded, thrown⟩ | ⟨mnemonic, after, loaded, continued⟩ :=
    Call.bind_cases (loadMnemonic settings projectId environment) (fun mnemonic =>
      createProjectKeys settings describe projectId clientId environment mnemonic >>=
        afterKeys settings sharing projectId clientId environment) store
  · rw [loaded] at loads
    rw [thrown]
    exact ⟨fun keys => by simp, loads⟩
  · rw [loaded] at loads
    obtain rfl : after = store := loads
    rw [continued, Call.bind_apply_error (createProjectKeys_refused after mnemonic present)]
    exact ⟨fun keys => by simp, rfl⟩

/-! ## A call after a failed one -/

/-- A call that fails early changes nothing; otherwise it has inserted the keys, if it could. -/
theorem generateProjectKeys_cases (inputs : Environment)
    (opens : mnemonicOf settings (projectSeed? store.keys projectId) = some mnemonic)
    (creates : Creates settings projectId clientId inputs.keyRandom store mnemonic drafts records) :
    (inputs.FailsEarly ∧ (generateProjectKeys settings sharing describe projectId clientId inputs
        store).2 = store) ∨
      (¬ inputs.FailsEarly ∧ (generateProjectKeys settings sharing describe projectId clientId
        inputs store).2.keys = records) := by
  rw [generateProjectKeys_eq]
  by_cases done : inputs.findSeed = .done
  · rw [Call.bind_apply_ok (loadMnemonic_done inputs opens done)]
    have created := createProjectKeys_apply describe creates
    cases ending : inputs.createKeys with
    | done =>
      rw [ending] at created
      rw [Call.bind_apply_ok created]
      refine .inr ⟨by simp [Environment.FailsEarly, done, ending], ?_⟩
      exact afterKeys_keeps _ records _ rfl
    | failed =>
      rw [ending] at created
      rw [Call.bind_apply_error created]
      exact .inl ⟨.inr ending, rfl⟩
    | lost =>
      rw [ending] at created
      rw [Call.bind_apply_error created]
      exact .inr ⟨by simp [Environment.FailsEarly, done, ending], rfl⟩
  · have loads : (loadMnemonic settings projectId inputs store).2 = store :=
      loadMnemonic_store store
    obtain ⟨failure, after, loaded, thrown⟩ | ⟨other, after, loaded, -⟩ :=
      Call.bind_cases (loadMnemonic settings projectId inputs) (fun mnemonic =>
        createProjectKeys settings describe projectId clientId inputs mnemonic >>=
          afterKeys settings sharing projectId clientId inputs) store
    · rw [loaded] at loads
      rw [thrown]
      exact .inl ⟨.inl done, loads⟩
    · exact absurd (loadMnemonic_ok loaded).2.1 done

/-- After a call that may have failed anywhere, a second one is made, in an environment in which a
call without the first one returns the keys. It returns them too exactly if the first one has failed
before its transaction took effect. -/
theorem project_keys_retried_iff {again inputs : Environment} (lawful : settings.crypto.Lawful)
    (uniform : settings.crypto.Uniform)
    (returns : (generateProjectKeys settings sharing describe projectId clientId again store).1 =
      .ok keys) :
    Retried settings sharing describe projectId clientId again keys
        (generateProjectKeys settings sharing describe projectId clientId inputs store).2 ↔
      inputs.FailsEarly := by
  obtain ⟨mnemonic, drafts, records, opens, creates, stored⟩ := generateProjectKeys_ok returns
  obtain ⟨inserted, others⟩ := creates.uniform uniform inputs.keyRandom
  obtain ⟨early, same⟩ | ⟨late, keys⟩ := generateProjectKeys_cases inputs opens others
  · rw [same]
    exact ⟨fun _ => early, fun _ => ⟨returns, creates.usable lawful opens stored⟩⟩
  · have usable := others.usable lawful opens keys
    exact ⟨fun retried => absurd retried.returns ((generateProjectKeys_refused usable.any).1 _),
      fun early => absurd early late⟩

/-- Whenever the first call fails, the project can use its keys after the second one. -/
theorem keys_usable {again inputs : Environment} (lawful : settings.crypto.Lawful)
    (uniform : settings.crypto.Uniform)
    (returns : (generateProjectKeys settings sharing describe projectId clientId again store).1 =
      .ok keys) :
    (generateProjectKeys settings sharing describe projectId clientId again
      (generateProjectKeys settings sharing describe projectId clientId inputs store).2).2.Usable
        settings projectId clientId := by
  obtain ⟨mnemonic, drafts, records, opens, creates, stored⟩ := generateProjectKeys_ok returns
  obtain ⟨inserted, others⟩ := creates.uniform uniform inputs.keyRandom
  obtain ⟨early, same⟩ | ⟨late, keys⟩ := generateProjectKeys_cases inputs opens others
  · rw [same]
    exact creates.usable lawful opens stored
  · have usable := others.usable lawful opens keys
    rw [(generateProjectKeys_refused usable.any).2]
    exact usable

end Calls

/-! ## A share that is not inserted -/

/-- The seed of project 5 is stored. -/
def seededStore : ProjectStore := ⟨⟨[toySeed], []⟩, []⟩

/-- Nothing fails. -/
def quiet : Environment where
  findSeed := .done
  createKeys := .done
  keyRandom := fun _ => toyRandom
  findShares := .done
  findBackupKey := .done
  chosen := 0
  entropy := 0
  createShare := fun _ => .done
  shareRandom := fun _ => toyRandom
  markSeed := .done

/-- Every key has the same public key and address. -/
def toyDescribe (_ : Bytes) : String × String := ("0x04", "0xa")

def toyKeys : List DerivedKeyInfo :=
  signingTypes.map fun keyType => ⟨"0x04", "0xa", projectKeyPath keyType.position, keyType⟩

theorem toyCrypto_uniform : toyCrypto.Uniform := fun _ _ _ _ _ => rfl

theorem quiet_returns : (generateProjectKeys toySettings toySharing toyDescribe 5 7 quiet
    seededStore).1 = .ok toyKeys := by
  decide +kernel

/-- The transaction is rolled back, and the call succeeds the second time. -/
theorem project_keys_retried_iff_sample :
    Retried toySettings toySharing toyDescribe 5 7 quiet toyKeys
        (generateProjectKeys toySettings toySharing toyDescribe 5 7
          { quiet with createKeys := .failed } seededStore).2 ↔
      Environment.FailsEarly { quiet with createKeys := .failed } :=
  project_keys_retried_iff toyCrypto_lawful toyCrypto_uniform quiet_returns

theorem keys_usable_sample : (generateProjectKeys toySettings toySharing toyDescribe 5 7 quiet
    (generateProjectKeys toySettings toySharing toyDescribe 5 7
      { quiet with createKeys := .failed } seededStore).2).2.Usable toySettings 5 7 :=
  keys_usable toyCrypto_lawful toyCrypto_uniform quiet_returns

/-- The second share is not inserted. -/
def secondShareFails : Environment :=
  { quiet with createShare := fun index => if index = 1 then .failed else .done }

/-- The second call is refused because of the keys of the first one. -/
theorem project_keys_not_retried :
    ¬ ∀ (settings : Vault.Settings) (sharing : SecretSharing) (describe : Bytes → String × String)
      (projectId : ProjectId) (clientId : ClientId) (again inputs : Environment)
      (store : ProjectStore) (keys : List DerivedKeyInfo) (failure : Failure),
      settings.crypto.Lawful → settings.crypto.Uniform →
      (generateProjectKeys settings sharing describe projectId clientId again store).1 = .ok keys →
      (generateProjectKeys settings sharing describe projectId clientId inputs store).1 =
        .error failure →
      Retried settings sharing describe projectId clientId again keys
        (generateProjectKeys settings sharing describe projectId clientId inputs store).2 := by
  intro retried
  have again := (retried toySettings toySharing toyDescribe 5 7 quiet secondShareFails seededStore
    toyKeys .thrown toyCrypto_lawful toyCrypto_uniform quiet_returns (by decide +kernel)).returns
  have refused : (generateProjectKeys toySettings toySharing toyDescribe 5 7 quiet
      (generateProjectKeys toySettings toySharing toyDescribe 5 7 secondShareFails
        seededStore).2).1 = .error (.conflict "Project 5 already has derived keys") := by
    decide +kernel
  rw [refused] at again
  cases again

end CryptoVaultHub.KeyVault.ProjectKeys
