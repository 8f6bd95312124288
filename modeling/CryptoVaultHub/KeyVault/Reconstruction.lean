import CryptoVaultHub.Encoding.ByteField
import CryptoVaultHub.Encoding.PolynomialSharing
import CryptoVaultHub.KeyVault.ShareSets
import CryptoVaultHub.KeyVault.TransactionSigning

/-!
# Reconstructing a backup key

A split shares the key it finds with the threshold it is given. A reconstruction asks for at least
three shares whatever that threshold was, combines them, and compares the address of what it gets
with a backup key that another query finds. Without a project that query, like the one of the split,
takes any active backup key of the client, also one of a project.
-/

namespace CryptoVaultHub.KeyVault.Shamir

open TransitionSystem Vault TransactionSigning PolynomialSharing Option

variable {F : Type} [Field F]

/-! ## The library -/

/-- `secrets.js` over a field of 256 elements: the elements by number, the elements a secret is cut
into, what elements stand for, and the text of a share and back. -/
structure Secrets (F : Type) [Field F] where
  element : Fin 256 ≃ F
  element_zero : element 0 = 0
  chunks : Bytes → List F
  secret : List F → Bytes
  secret_chunks : ∀ bytes, secret (chunks bytes) = bytes
  text : Share F → Bytes
  components : Bytes → Option (Share F)
  components_text : ∀ share, components (text share) = some share

namespace Secrets

def number (secrets : Secrets F) (value : Nat) : F := secrets.element (Fin.ofNat 256 value)

/-- A polynomial for each element of the secret; `entropy` is written in bytes, and each coefficient
but the constant one takes the next of them. -/
def polynomials (secrets : Secrets F) (bytes : Bytes) (threshold entropy : Nat) : List (List F) :=
  (secrets.chunks bytes).mapIdx fun column constant =>
    constant :: (List.range (threshold - 1)).map fun position =>
      secrets.number (entropy / 256 ^ (column * (threshold - 1) + position))

/-- The shares with the given numbers. -/
def dealt (secrets : Secrets F) (bytes : Bytes) (threshold entropy : Nat) (numbers : List Nat) :
    List (Share F) :=
  (numbers.map secrets.number).map (deal (secrets.polynomials bytes threshold entropy))

/-- `secrets.share`. -/
def share (secrets : Secrets F) (bytes : Bytes) (numShares threshold entropy : Nat) :
    Option (List Bytes) :=
  if 2 ≤ threshold ∧ threshold ≤ numShares ∧ numShares ≤ 255 then
    some ((secrets.dealt bytes threshold entropy (List.range' 1 numShares)).map secrets.text)
  else none

/-- `secrets.combine`. -/
def combine [DecidableEq F] (secrets : Secrets F) (texts : List Bytes) : Option Bytes :=
  (texts.mapM secrets.components).map fun shares =>
    secrets.secret (PolynomialSharing.combine shares)

end Secrets

/-- `secp256k1.publicKeyCreate`, which throws on an invalid private key, and the address of a public
key after `ethers`. -/
structure Curve where
  publicKeyCreate : Bytes → Option Bytes
  address : Bytes → String

/-! ## The tables -/

/-- A row of `derived_keys` with its column `address`. -/
structure AddressedKey extends Record where
  address : String

structure Tables where
  keys : List AddressedKey
  shares : List ShamirShare

namespace Tables

def store (tables : Tables) : Store :=
  { keys := tables.keys.map AddressedKey.toRecord, shares := tables.shares }

/-- The active backup keys of the project, or of the client. -/
def backupKeys (tables : Tables) (scope : Scope) : List AddressedKey :=
  tables.keys.filter fun key => key.isActive && match key.subject, scope.2 with
    | .derivedKey _ (some projectId) .backup _, some other => projectId = other
    | .derivedKey clientId _ .backup _, none => clientId = scope.1
    | _, _ => false

end Tables

/-- How the database orders the rows of a query that names no order. -/
structure Arrangement (Row : Type) where
  arrange : List Row → List Row
  perm : ∀ rows, (arrange rows).Perm rows

/-- How the database answers. -/
structure Database where
  shares : Arrangement ShamirShare
  keys : Selection AddressedKey

/-- The service with what it calls. -/
structure Service (F : Type) [Field F] where
  settings : Vault.Settings
  secrets : Secrets F
  curve : Curve

/-! ## The split -/

/-- The loop over the shares when nothing else runs. -/
def createShares (settings : Vault.Settings) (split : Split) (shares : List Bytes)
    (random : Nat → RandomBytes) (store : Store) : Option Store :=
  (List.range shares.length).foldlM (fun store index => do
    let row ← split.row settings shares index (random index)
    if store.accepts row then some (store.create row) else none) store

/-- `splitBackupKey` when nothing else runs: the table that it leaves. -/
def splitBackupKey (service : Service F) (database : Database) (tables : Tables) (split : Split)
    (entropy : Nat) (random : Nat → RandomBytes) : Option Tables := do
  guard (split.accepted = true)
  guard (tables.store.sharesOf split.scope = [])
  let key ← database.keys.pick (tables.backupKeys split.scope)
  let privateKey ← key.decrypt service.settings service.settings.masterPassword
  let shares ← service.secrets.share privateKey split.totalShares split.threshold entropy
  let store ← createShares service.settings split shares random tables.store
  return { tables with shares := store.shares }

/-! ## The reconstruction -/

/-- Why a reconstruction is refused. -/
inductive Refusal where
  | tooFewShares
  | sharesNotFound (requested : List Nat) (found : Nat)
  | notDecrypted
  | notCombined
  | invalidKey
  | keyNotFound
  | addressMismatch
deriving DecidableEq

structure Reconstructed where
  address : String
  publicKey : Bytes
deriving DecidableEq

/-- The address and the public key of a private key. -/
def Service.account (service : Service F) (privateKey : Bytes) : Option Reconstructed :=
  (service.curve.publicKeyCreate privateKey).map fun publicKey =>
    { address := service.curve.address publicKey, publicKey := publicKey }

/-- The public key of what was combined, compared with the stored backup key. -/
def Service.verify (service : Service F) (storedBackupKey : Option AddressedKey)
    (privateKey : Bytes) : Except Refusal Reconstructed :=
  match service.account privateKey, storedBackupKey with
  | none, _ => .error .invalidKey
  | some _, none => .error .keyNotFound
  | some account, some stored =>
    if account.address.toLower = stored.address.toLower then .ok account
    else .error .addressMismatch

variable [DecidableEq F]

def reconstructBackupKey (service : Service F) (database : Database) (tables : Tables)
    (scope : Scope) (shareIndices : List Nat) : Except Refusal Reconstructed :=
  if shareIndices.length < defaultThreshold then .error .tooFewShares
  else
    let shares := database.shares.arrange
      ((tables.store.sharesOf scope).filter fun row => row.shareIndex ∈ shareIndices)
    if shares.length < shareIndices.length then
      .error (.sharesNotFound shareIndices shares.length)
    else
      match shares.mapM fun row => decryptWithPassword service.settings.crypto
          service.settings.kdfIterations row.payload service.settings.masterPassword none with
      | none => .error .notDecrypted
      | some decryptedShares =>
        match service.secrets.combine decryptedShares with
        | none => .error .notCombined
        | some privateKey =>
          service.verify (database.keys.pick (tables.backupKeys scope)) privateKey

/-! ## The property -/

/-- Distinct indices of stored shares. -/
def Tables.Stores (tables : Tables) (scope : Scope) (indices : List Nat) : Prop :=
  indices.Nodup ∧ ∀ index ∈ indices, ∃ row ∈ tables.store.sharesOf scope, row.shareIndex = index

/-- As many shares as the threshold give the address of the secret, and fewer are refused. -/
def Service.Recovers (service : Service F) (tables : Tables) (split : Split) (secret : Bytes) :
    Prop :=
  ∀ database indices, tables.Stores split.scope indices →
    if split.threshold ≤ indices.length then
      ∃ account, service.account secret = some account ∧
        reconstructBackupKey service database tables split.scope indices = .ok account
    else
      ∃ refusal, reconstructBackupKey service database tables split.scope indices = .error refusal

/-! ## The condition -/

/-- The threshold is at least that of the reconstruction, there is a backup key to be found and all
have the address of the secret, and fewer shares do not combine to a key of that address. -/
structure Service.Restorable (service : Service F) (tables : Tables) (split : Split)
    (secret : Bytes) (entropy : Nat) (account : Reconstructed) : Prop where
  account_eq : service.account secret = some account
  threshold : defaultThreshold ≤ split.threshold
  found : tables.backupKeys split.scope ≠ []
  own : ∀ key ∈ tables.backupKeys split.scope, key.address.toLower = account.address.toLower
  short : ∀ indices : List Nat, indices.Nodup →
    (∀ index ∈ indices, 1 ≤ index ∧ index ≤ split.totalShares) →
    defaultThreshold ≤ indices.length → indices.length < split.threshold →
    ∀ other, service.account (service.secrets.secret (PolynomialSharing.combine
      (service.secrets.dealt secret split.threshold entropy indices))) = some other →
        other.address.toLower ≠ account.address.toLower

/-! ## The shares that a split stores -/

omit [DecidableEq F] in
theorem Secrets.number_injOn (secrets : Secrets F) {left right : Nat} (first : left < 256)
    (second : right < 256) (same : secrets.number left = secrets.number right) : left = right := by
  have equal := congrArg Fin.val (secrets.element.injective same)
  simpa [Fin.ofNat, Nat.mod_eq_of_lt first, Nat.mod_eq_of_lt second] using equal

/-- Enough shares combine to the secret. -/
theorem Secrets.combine_dealt (secrets : Secrets F) {bytes : Bytes} {threshold entropy : Nat}
    {numbers : List Nat} (nodup : numbers.Nodup) (small : ∀ number ∈ numbers, number < 256)
    (positive : 2 ≤ threshold) (enough : threshold ≤ numbers.length) :
    secrets.secret (PolynomialSharing.combine (secrets.dealt bytes threshold entropy numbers)) =
      bytes := by
  have points : (numbers.map secrets.number).Nodup :=
    List.Nodup.map_on (fun left inside right member same =>
      secrets.number_injOn (small left inside) (small right member) same) nodup
  have nonempty : numbers.map secrets.number ≠ [] := by
    intro none
    rw [List.map_eq_nil_iff.mp none, List.length_nil] at enough
    omega
  have lengths : ∀ coefficients ∈ secrets.polynomials bytes threshold entropy,
      coefficients.length ≤ (numbers.map secrets.number).length := by
    intro coefficients member
    obtain ⟨column, _, rfl⟩ := List.mem_mapIdx.mp member
    simp only [List.length_cons, List.length_map, List.length_range]
    omega
  have constants : (secrets.polynomials bytes threshold entropy).map (fun coefficients =>
      coefficients.headD 0) = secrets.chunks bytes := by
    refine List.ext_getElem (by simp [polynomials]) fun column _ _ => ?_
    simp [polynomials]
  rw [dealt, combine_deal points nonempty lengths, constants, secrets.secret_chunks]

/-- A loop all of whose steps succeed. -/
theorem mapM_of_forall {Item Result : Type} {items : List Item} {step : Item → Option Result}
    {result : Item → Result} (succeeds : ∀ item ∈ items, step item = some (result item)) :
    items.mapM step = some (items.map result) := by
  induction items with
  | nil => rfl
  | cons item rest ih =>
    rw [List.mapM_cons, succeeds item List.mem_cons_self,
      ih fun other member => succeeds other (List.mem_cons_of_mem item member)]
    rfl

theorem Secrets.combine_texts (secrets : Secrets F) (shares : List (Share F)) :
    secrets.combine (shares.map secrets.text) =
      some (secrets.secret (PolynomialSharing.combine shares)) := by
  have read : (shares.map secrets.text).mapM secrets.components = some shares := by
    induction shares with
    | nil => rfl
    | cons share rest ih =>
      rw [List.map_cons, List.mapM_cons, secrets.components_text, ih]
      rfl
  rw [combine, read]
  rfl

/-- The loop inserts the rows of its shares, from the first one on. -/
theorem createShares_wrote {settings : Vault.Settings} {split : Split} {shares : List Bytes}
    {random : Nat → RandomBytes} {store after : Store} (none : store.sharesOf split.scope = [])
    (created : createShares settings split shares random store = some after) :
    (after.sharesOf split.scope).length = shares.length ∧
      split.Wrote settings shares (after.sharesOf split.scope) := by
  rw [createShares] at created
  generalize shares.length = count at created ⊢
  induction count generalizing after with
  | zero =>
    cases created
    rw [none]
    exact ⟨rfl, .nil⟩
  | succ count ih =>
    rw [List.range_succ, List.foldlM_append] at created
    obtain ⟨before, earlier, last⟩ := bind_eq_some_iff.mp created
    obtain ⟨length, wrote⟩ := ih earlier
    obtain ⟨later, inserted, same⟩ := bind_eq_some_iff.mp last
    cases same
    obtain ⟨row, built, taken⟩ := bind_eq_some_iff.mp inserted
    split at taken
    · cases taken
      rw [sharesOf_create, if_pos (Split.scope_row built).1]
      refine ⟨by rw [List.length_append, length]; rfl, wrote.snoc (length.symm ▸ built)⟩
    · cases taken

/-- The shares of a scope are those of one split of a secret. -/
structure Stored (service : Service F) (tables : Tables) (split : Split) (secret : Bytes)
    (entropy : Nat) : Prop where
  threshold : 2 ≤ split.threshold
  within : split.threshold ≤ split.totalShares
  numbered : split.totalShares ≤ 255
  length : (tables.store.sharesOf split.scope).length = split.totalShares
  wrote : split.Wrote service.settings
    ((service.secrets.dealt secret split.threshold entropy (List.range' 1 split.totalShares)).map
      service.secrets.text) (tables.store.sharesOf split.scope)

omit [DecidableEq F] in
/-- What a split leaves. -/
theorem Stored.of_split {service : Service F} {database : Database} {tables done : Tables}
    {split : Split} {entropy : Nat} {random : Nat → RandomBytes} {key : AddressedKey}
    {secret : Bytes}
    (found : database.keys.pick (tables.backupKeys split.scope) = some key)
    (opened : key.decrypt service.settings service.settings.masterPassword = some secret)
    (stored : splitBackupKey service database tables split entropy random = some done) :
    Stored service done split secret entropy := by
  obtain ⟨_, _, rest⟩ := bind_eq_some_iff.mp stored
  obtain ⟨_, guarded, rest⟩ := bind_eq_some_iff.mp rest
  have none : tables.store.sharesOf split.scope = [] := (guard_eq_some' _).mp guarded
  rw [found, bind_eq_bind, bind_some, opened, bind_eq_bind,
    bind_some] at rest
  obtain ⟨shares, shared, rest⟩ := bind_eq_some_iff.mp rest
  obtain ⟨store, created, rest⟩ := bind_eq_some_iff.mp rest
  cases rest
  rw [Secrets.share] at shared
  split at shared
  · rename_i bounds
    cases shared
    obtain ⟨length, wrote⟩ := createShares_wrote none created
    rw [List.length_map, Secrets.dealt, List.length_map, List.length_map,
      List.length_range'] at length
    exact ⟨bounds.1, bounds.2.1, bounds.2.2, length, wrote⟩
  · cases shared

namespace Stored

variable {service : Service F} {tables : Tables} {split : Split} {secret : Bytes} {entropy : Nat}

omit [DecidableEq F] in
theorem indices (stored : Stored service tables split secret entropy) :
    (tables.store.sharesOf split.scope).map ShamirShare.shareIndex =
      List.range' 1 split.totalShares := by
  refine List.ext_getElem (by simp [stored.length]) fun index inside _ => ?_
  have bounded : index < (tables.store.sharesOf split.scope).length := by simpa using inside
  obtain ⟨random, built⟩ := stored.wrote index _ (List.getElem?_eq_getElem bounded)
  rw [List.getElem_map, (Split.scope_row built).2, List.getElem_range']
  omega

omit [DecidableEq F] in
/-- A stored row opens to the share of its number. -/
theorem opens (stored : Stored service tables split secret entropy)
    (lawful : service.settings.crypto.Lawful) {row : ShamirShare}
    (member : row ∈ tables.store.sharesOf split.scope) :
    decryptWithPassword service.settings.crypto service.settings.kdfIterations row.payload
        service.settings.masterPassword none =
      some (service.secrets.text (deal (service.secrets.polynomials secret split.threshold entropy)
        (service.secrets.number row.shareIndex))) := by
  obtain ⟨index, there⟩ := List.getElem?_of_mem member
  obtain ⟨random, built⟩ := stored.wrote index row there
  obtain ⟨share, shared, rest⟩ := bind_eq_some_iff.mp built
  obtain ⟨custodian, _, rest⟩ := bind_eq_some_iff.mp rest
  obtain ⟨payload, encrypted, same⟩ := bind_eq_some_iff.mp rest
  cases same
  rw [decrypt_of_encrypt lawful encrypted rfl]
  simp only [Secrets.dealt, List.getElem?_map] at shared
  obtain ⟨dealt, cut, rfl⟩ := map_eq_some_iff.mp shared
  obtain ⟨point, numbered, rfl⟩ := map_eq_some_iff.mp cut
  obtain ⟨number, counted, rfl⟩ := map_eq_some_iff.mp numbered
  obtain ⟨_, rfl⟩ := List.getElem?_eq_some_iff.mp counted
  simp [Nat.add_comm]

omit [DecidableEq F] in
/-- Indices of stored shares are those of the split. -/
theorem stores_iff (stored : Stored service tables split secret entropy) {indices : List Nat} :
    tables.Stores split.scope indices ↔
      indices.Nodup ∧ ∀ index ∈ indices, 1 ≤ index ∧ index ≤ split.totalShares := by
  refine and_congr_right fun _ => forall₂_congr fun index _ => ?_
  have counted : index ∈ (tables.store.sharesOf split.scope).map ShamirShare.shareIndex ↔
      1 ≤ index ∧ index ≤ split.totalShares := by
    rw [stored.indices, List.mem_range'_1]
    omega
  rw [← counted, List.mem_map]

omit [DecidableEq F] in
theorem nodup_points (stored : Stored service tables split secret entropy) {indices : List Nat}
    (chosen : tables.Stores split.scope indices) : (indices.map service.secrets.number).Nodup := by
  obtain ⟨nodup, bounded⟩ := stored.stores_iff.mp chosen
  have numbered := stored.numbered
  refine List.Nodup.map_on (fun left inside right member same => ?_) nodup
  have first := bounded left inside
  have second := bounded right member
  exact service.secrets.number_injOn (by omega) (by omega) same

/-- Distinct stored indices are found and their shares are combined. -/
theorem reconstruct_eq (stored : Stored service tables split secret entropy)
    (lawful : service.settings.crypto.Lawful) (database : Database) {indices : List Nat}
    (chosen : tables.Stores split.scope indices) :
    reconstructBackupKey service database tables split.scope indices =
      if indices.length < defaultThreshold then .error .tooFewShares
      else service.verify (database.keys.pick (tables.backupKeys split.scope))
        (service.secrets.secret (PolynomialSharing.combine
          (service.secrets.dealt secret split.threshold entropy indices))) := by
  obtain ⟨nodup, known⟩ := id chosen
  let wanted := (tables.store.sharesOf split.scope).filter fun row => row.shareIndex ∈ indices
  have query : (tables.store.sharesOf split.scope).filter (fun row => row.shareIndex ∈ indices) =
      wanted := rfl
  have numbers : wanted.map ShamirShare.shareIndex =
      (List.range' 1 split.totalShares).filter (· ∈ indices) := by
    rw [← stored.indices, List.filter_map]
    rfl
  have all : (wanted.map ShamirShare.shareIndex).Perm indices := by
    rw [numbers]
    refine (List.perm_ext_iff_of_nodup (List.Nodup.filter _ List.nodup_range') nodup).mpr
      fun index => ?_
    rw [List.mem_filter, decide_eq_true_eq, and_iff_right_iff_imp, ← stored.indices]
    intro member
    obtain ⟨row, there, same⟩ := known index member
    exact List.mem_map.mpr ⟨row, there, same⟩
  have arranged := database.shares.perm wanted
  let order := (database.shares.arrange wanted).map ShamirShare.shareIndex
  have reordered : indices.Perm order := ((arranged.map _).trans all).symm
  have count : (database.shares.arrange wanted).length = indices.length := by
    rw [arranged.length_eq, ← all.length_eq, List.length_map]
  have opened : (database.shares.arrange wanted).mapM (fun row =>
      decryptWithPassword service.settings.crypto service.settings.kdfIterations row.payload
        service.settings.masterPassword none) =
      some ((service.secrets.dealt secret split.threshold entropy order).map
        service.secrets.text) := by
    rw [mapM_of_forall fun row member => stored.opens lawful
      (List.mem_of_mem_filter (arranged.mem_iff.mp member))]
    simp [Secrets.dealt, Function.comp_def, order]
  have points : ((service.secrets.dealt secret split.threshold entropy indices).map
      Share.point).Nodup := by
    simpa [Secrets.dealt, deal, Function.comp_def] using stored.nodup_points chosen
  have combined : PolynomialSharing.combine
      (service.secrets.dealt secret split.threshold entropy order) =
        PolynomialSharing.combine (service.secrets.dealt secret split.threshold entropy indices) :=
    (combine_perm ((reordered.map _).map _) points).symm
  simp only [reconstructBackupKey, query, count, lt_self_iff_false, if_false, opened,
    Secrets.combine_texts, combined]

/-- Enough stored shares give the secret, compared with the key that is found. -/
theorem reconstruct_enough (stored : Stored service tables split secret entropy)
    (lawful : service.settings.crypto.Lawful) (database : Database) {indices : List Nat}
    (chosen : tables.Stores split.scope indices) (enough : split.threshold ≤ indices.length)
    (three : defaultThreshold ≤ indices.length) :
    reconstructBackupKey service database tables split.scope indices =
      service.verify (database.keys.pick (tables.backupKeys split.scope)) secret := by
  obtain ⟨nodup, bounded⟩ := stored.stores_iff.mp chosen
  have numbered := stored.numbered
  rw [stored.reconstruct_eq lawful database chosen, if_neg (Nat.not_lt.mpr three),
    service.secrets.combine_dealt nodup
      (fun index member => by have := bounded index member; omega) stored.threshold enough]

end Stored

/-! ## The statements of a split -/

section Statements

variable {settings : Vault.Settings} {sharing : SecretSharing}

end Statements

omit [DecidableEq F] in
/-! ## The comparison -/

omit [DecidableEq F] in
theorem Service.verify_eq_ok {service : Service F} {stored : Option AddressedKey}
    {privateKey : Bytes} {account : Reconstructed} :
    service.verify stored privateKey = .ok account ↔
      service.account privateKey = some account ∧ ∃ key, stored = some key ∧
        account.address.toLower = key.address.toLower := by
  unfold verify
  cases service.account privateKey with
  | none => simp
  | some found =>
    cases stored with
    | none => simp
    | some key =>
      by_cases same : found.address.toLower = key.address.toLower
      · simp only [same, if_true, Except.ok.injEq, Option.some.injEq, exists_eq_left']
        exact ⟨fun equal => ⟨equal, equal ▸ same⟩, fun agrees => agrees.1⟩
      · simp only [same, if_false, reduceCtorEq, Option.some.injEq, exists_eq_left', false_iff,
          not_and]
        rintro rfl
        exact same

theorem Except.exists_error_iff {Error Value : Type} {result : Except Error Value} :
    (∃ error, result = .error error) ↔ ∀ value, result ≠ .ok value := by
  cases result <;> simp

/-! ## Recovery -/

/-- The database answers in the order of the table, and with a key of a kind if there is one. -/
def Database.preferring (wanted : AddressedKey → Bool) : Database where
  shares := ⟨id, fun _ => .refl _⟩
  keys := .preferring wanted

namespace Stored

variable {service : Service F} {tables : Tables} {split : Split} {secret : Bytes} {entropy : Nat}

omit [DecidableEq F] in
theorem stores_first (stored : Stored service tables split secret entropy) {count : Nat}
    (within : count ≤ split.totalShares) : tables.Stores split.scope (List.range' 1 count) := by
  refine stored.stores_iff.mpr ⟨List.nodup_range', fun index member => ?_⟩
  rw [List.mem_range'_1] at member
  omega

/-- A split with a lower threshold than that of the reconstruction has too few shares that are
enough. -/
theorem threshold_of_recovers (stored : Stored service tables split secret entropy)
    (recovers : service.Recovers tables split secret) : defaultThreshold ≤ split.threshold := by
  by_contra low
  have result := recovers (.preferring fun _ => true) _ (stored.stores_first stored.within)
  rw [List.length_range', if_pos le_rfl] at result
  obtain ⟨account, _, accepted⟩ := result
  rw [reconstructBackupKey, List.length_range', if_pos (Nat.not_le.mp low)] at accepted
  cases accepted

/-- What a recovery with all shares compares. -/
theorem verify_of_recovers (stored : Stored service tables split secret entropy)
    (lawful : service.settings.crypto.Lawful) (recovers : service.Recovers tables split secret)
    (database : Database) :
    ∃ account, service.account secret = some account ∧
      ∃ key, database.keys.pick (tables.backupKeys split.scope) = some key ∧
        account.address.toLower = key.address.toLower := by
  have threshold := stored.threshold_of_recovers recovers
  have within := stored.within
  have chosen := stored.stores_first (le_refl split.totalShares)
  have result := recovers database _ chosen
  rw [if_pos (by simpa using within), stored.reconstruct_enough lawful database chosen
    (by simpa using within) (by rw [List.length_range']; omega)] at result
  obtain ⟨account, own, accepted⟩ := result
  exact ⟨account, own, (Service.verify_eq_ok.mp accepted).2⟩

/-- Whatever key is found has the address of the secret. -/
theorem own_of_recovers (stored : Stored service tables split secret entropy)
    (lawful : service.settings.crypto.Lawful) (recovers : service.Recovers tables split secret)
    {account : Reconstructed} (own : service.account secret = some account) {key : AddressedKey}
    (member : key ∈ tables.backupKeys split.scope) :
    key.address.toLower = account.address.toLower := by
  by_contra different
  let foreign (key : AddressedKey) : Bool := key.address.toLower ≠ account.address.toLower
  obtain ⟨picked, chosen, _, kind⟩ :=
    @Selection.pick_preferring _ foreign _ _ member (decide_eq_true different)
  obtain ⟨same, equal, other, found, agrees⟩ :=
    stored.verify_of_recovers lawful recovers (.preferring foreign)
  cases own.symm.trans equal
  cases chosen.symm.trans found
  exact of_decide_eq_true kind agrees.symm

/-- Where every key that may be found has the address of the secret, what fewer shares combine to
has another one. -/
theorem short_of_recovers (stored : Stored service tables split secret entropy)
    (lawful : service.settings.crypto.Lawful) (recovers : service.Recovers tables split secret)
    {account : Reconstructed} (found : tables.backupKeys split.scope ≠ [])
    (own : ∀ key ∈ tables.backupKeys split.scope,
      key.address.toLower = account.address.toLower) {indices : List Nat}
    (chosen : tables.Stores split.scope indices) (three : defaultThreshold ≤ indices.length)
    (few : indices.length < split.threshold) {other : Reconstructed}
    (combined : service.account (service.secrets.secret (PolynomialSharing.combine
      (service.secrets.dealt secret split.threshold entropy indices))) = some other) :
    other.address.toLower ≠ account.address.toLower := by
  intro same
  have result := recovers (.preferring fun _ => true) indices chosen
  rw [if_neg (Nat.not_le.mpr few), stored.reconstruct_eq lawful _ chosen,
    if_neg (Nat.not_lt.mpr three), Except.exists_error_iff] at result
  refine result other (Service.verify_eq_ok.mpr ⟨combined, ?_⟩)
  obtain ⟨key, rest, rows⟩ := List.exists_cons_of_ne_nil found
  obtain ⟨picked, chosen, member, _⟩ := @Selection.pick_preferring _ (fun _ => true) _ key
    (rows ▸ List.mem_cons_self) rfl
  exact ⟨picked, chosen, same.trans (own picked member).symm⟩

theorem restorable_of_recovers (stored : Stored service tables split secret entropy)
    (lawful : service.settings.crypto.Lawful) (recovers : service.Recovers tables split secret) :
    ∃ account, service.Restorable tables split secret entropy account := by
  obtain ⟨account, equal, key, picked, _⟩ :=
    stored.verify_of_recovers lawful recovers (.preferring fun _ => true)
  have found := List.ne_nil_of_mem (Selection.pick_mem _ picked)
  have own : ∀ key ∈ tables.backupKeys split.scope,
      key.address.toLower = account.address.toLower :=
    fun key member => stored.own_of_recovers lawful recovers equal member
  exact ⟨account, {
    account_eq := equal
    threshold := stored.threshold_of_recovers recovers
    found := found
    own := own
    short := fun indices nodup bounded three few other combined =>
      stored.short_of_recovers lawful recovers found own
        (stored.stores_iff.mpr ⟨nodup, bounded⟩) three few combined }⟩

theorem recovers_of_restorable (stored : Stored service tables split secret entropy)
    (lawful : service.settings.crypto.Lawful) {account : Reconstructed}
    (restorable : service.Restorable tables split secret entropy account) :
    service.Recovers tables split secret := by
  have threshold := restorable.threshold
  intro database indices chosen
  split
  · rename_i enough
    refine ⟨account, restorable.account_eq, ?_⟩
    rw [stored.reconstruct_enough lawful database chosen enough (threshold.trans enough)]
    refine Service.verify_eq_ok.mpr ⟨restorable.account_eq, ?_⟩
    cases picked : database.keys.pick (tables.backupKeys split.scope) with
    | none => exact absurd (Selection.pick_none _ picked) restorable.found
    | some key => exact ⟨key, rfl, (restorable.own key (Selection.pick_mem _ picked)).symm⟩
  · rename_i few
    rw [stored.reconstruct_eq lawful database chosen]
    split
    · exact ⟨_, rfl⟩
    · rename_i three
      refine Except.exists_error_iff.mpr fun other accepted => ?_
      obtain ⟨combined, key, picked, agrees⟩ := Service.verify_eq_ok.mp accepted
      obtain ⟨nodup, bounded⟩ := stored.stores_iff.mp chosen
      refine restorable.short indices nodup bounded (Nat.not_lt.mp three) (Nat.not_le.mp few) other
        combined ?_
      rw [agrees, restorable.own key (Selection.pick_mem _ picked)]

end Stored

/-- After a split that succeeds, every set of stored shares of at least its threshold gives the
address of its key and every smaller one is refused, if and only if the threshold is three or more,
there is an active backup key for the reconstruction to find and all that it may find have that
address, and no smaller set of three or more shares combines to a key of that address. The other
rows may have changed since. -/
theorem backup_key_recovers_iff {service : Service F} (lawful : service.settings.crypto.Lawful)
    {database : Database} {tables done later : Tables} {split : Split} {entropy : Nat}
    {random : Nat → RandomBytes} {key : AddressedKey} {secret : Bytes}
    (found : database.keys.pick (tables.backupKeys split.scope) = some key)
    (opened : key.decrypt service.settings service.settings.masterPassword = some secret)
    (succeeded : splitBackupKey service database tables split entropy random = some done)
    (kept : later.store.sharesOf split.scope = done.store.sharesOf split.scope) :
    service.Recovers later split secret ↔
      ∃ account, service.Restorable later split secret entropy account := by
  have stored : Stored service later split secret entropy := by
    obtain ⟨threshold, within, numbered, length, wrote⟩ := Stored.of_split found opened succeeded
    exact ⟨threshold, within, numbered, kept ▸ length, kept ▸ wrote⟩
  constructor
  · intro recovers
    exact stored.restorable_of_recovers lawful recovers
  · rintro ⟨account, restorable⟩
    exact stored.recovers_of_restorable lawful restorable

/-! ## A client with a key of its own and one of a project -/

def hexDigit (value : Nat) : UInt8 := UInt8.ofNat (Nat.digitChar value).toNat

def hexByte (byte : ByteField) : Bytes :=
  [hexDigit (byte.bits.toNat / 16), hexDigit (byte.bits.toNat % 16)]

def readDigit (digit : UInt8) : Nat := if digit ≤ 57 then digit.toNat - 48 else digit.toNat - 87

def readHex : Bytes → Option (List ByteField)
  | [] => some []
  | [_] => none
  | high :: low :: rest =>
    (readHex rest).map (⟨BitVec.ofNat 8 (16 * readDigit high + readDigit low)⟩ :: ·)

theorem readHex_hexByte (elements : List ByteField) :
    readHex (elements.flatMap hexByte) = some elements := by
  induction elements with
  | nil => rfl
  | cons element rest ih =>
    have all : ∀ bits : BitVec 8, BitVec.ofNat 8 (16 * readDigit (hexDigit (bits.toNat / 16)) +
        readDigit (hexDigit (bits.toNat % 16))) = bits := by decide +kernel
    rw [List.flatMap_cons, hexByte, List.cons_append, List.cons_append, List.nil_append, readHex,
      ih, all]
    rfl

/-- Secrets of whole bytes, the last byte first, with a mark behind them and zeros up to 16
elements; the text of a share starts with the number of bits in base 36. -/
def byteSecrets : Secrets ByteField where
  element := ByteField.ofNumber
  element_zero := rfl
  chunks bytes := bytes.reverse.map (fun byte => ⟨byte.toBitVec⟩) ++
    1 :: List.replicate ((16 - (bytes.length + 1) % 16) % 16) 0
  secret elements := (elements.reverse.dropWhile (· = 0)).tail.map fun element => ⟨element.bits⟩
  secret_chunks bytes := by
    have zeros (count : Nat) : (List.replicate count (0 : ByteField)).dropWhile (· = 0) = [] := by
      simp
    rw [List.reverse_append, List.reverse_cons, List.reverse_replicate, List.append_assoc,
      List.dropWhile_append, zeros]
    simp [Function.comp_def]
  text share := 56 :: (share.point :: share.values.reverse).flatMap hexByte
  components text :=
    match text with
    | 56 :: digits =>
      match readHex digits with
      | some (point :: values) => some { point := point, values := values.reverse }
      | _ => none
    | _ => none
  components_text share := by
    simp only [readHex_hexByte, List.reverse_reverse]

def toyService : Service ByteField where
  settings := toySettings
  secrets := byteSecrets
  curve := {
    publicKeyCreate privateKey := if privateKey = [] then none else some (4 :: privateKey)
    address publicKey := if publicKey = [4, 7, 7] then "0xC7" else "0xA5" }

/-- The backup key that client 7 has without a project. -/
def clientBackupKey : AddressedKey := { toyBackupKey with address := "0xC7" }

/-- The backup key of its project 5. -/
def projectBackupKey : AddressedKey :=
  { toyBackupKey with
    id := 2
    subject := .derivedKey 7 (some 5) .backup .evm
    plaintext := [8, 8]
    payload := (encryptWithPassword toyCrypto 600000 [8, 8] "old" toyRandom).getD
      ⟨[], [], [], [], []⟩
    address := "0xA5" }

/-- The query of the split finds the key without a project. -/
def findsClientKey : Database := .preferring fun key => key.id = 1

/-- With its own backup key alone, the client recovers it from a split with the default
arguments. -/
theorem backup_key_recovers_sample :
    ∃ done, splitBackupKey toyService findsClientKey ⟨[clientBackupKey], []⟩ (.default 7 none)
        1234567 (fun _ => toyRandom) = some done ∧
      toyService.Recovers ⟨[clientBackupKey], done.shares⟩ (.default 7 none) [7, 7] := by
  obtain ⟨done, succeeded⟩ := isSome_iff_exists.mp (show (splitBackupKey toyService
    findsClientKey ⟨[clientBackupKey], []⟩ (.default 7 none) 1234567
      (fun _ => toyRandom)).isSome = true by decide +kernel)
  have found : findsClientKey.keys.pick (Tables.backupKeys ⟨[clientBackupKey], []⟩
      (Split.default 7 none).scope) = some clientBackupKey := rfl
  have opened : clientBackupKey.decrypt toySettings toySettings.masterPassword = some [7, 7] := by
    decide +kernel
  have only : Tables.backupKeys ⟨[clientBackupKey], done.shares⟩ (Split.default 7 none).scope =
      [clientBackupKey] := rfl
  have kept : (Tables.store ⟨[clientBackupKey], done.shares⟩).sharesOf
      (Split.default 7 none).scope = done.store.sharesOf (Split.default 7 none).scope := rfl
  refine ⟨done, succeeded, (@backup_key_recovers_iff _ _ _ toyService toyCrypto_lawful _ _ _ _ _ _ _
    _ _ found opened succeeded kept).mpr ⟨{ address := "0xC7", publicKey := [4, 7, 7] }, ?_⟩⟩
  refine ⟨rfl, le_rfl, ?_, ?_, fun indices _ _ three few => absurd few (Nat.not_lt.mpr three)⟩
  · rw [only]
    exact List.cons_ne_nil _ _
  · intro key member
    rw [only, List.mem_singleton] at member
    rw [member]
    rfl

/-- The reconstruction may compare the secret with the backup key of a project of the client. -/
theorem backup_key_not_recovered :
    ¬ ∀ (service : Service ByteField) (database : Database) (tables done later : Tables)
      (split : Split) (entropy : Nat) (random : Nat → RandomBytes) (key : AddressedKey)
      (secret : Bytes), service.settings.crypto.Lawful →
        database.keys.pick (tables.backupKeys split.scope) = some key →
        key.decrypt service.settings service.settings.masterPassword = some secret →
        splitBackupKey service database tables split entropy random = some done →
        later.store.sharesOf split.scope = done.store.sharesOf split.scope →
        service.Recovers later split secret := by
  intro always
  obtain ⟨done, succeeded⟩ := isSome_iff_exists.mp (show (splitBackupKey toyService
    findsClientKey ⟨[clientBackupKey, projectBackupKey], []⟩ (.default 7 none) 1234567
      (fun _ => toyRandom)).isSome = true by decide +kernel)
  have found : findsClientKey.keys.pick (Tables.backupKeys ⟨[clientBackupKey, projectBackupKey], []⟩
      (Split.default 7 none).scope) = some clientBackupKey := rfl
  have opened : clientBackupKey.decrypt toySettings toySettings.masterPassword = some [7, 7] := by
    decide +kernel
  let later : Tables := ⟨[clientBackupKey, projectBackupKey], done.shares⟩
  have both : later.backupKeys (Split.default 7 none).scope =
      [clientBackupKey, projectBackupKey] := rfl
  have stored : Stored toyService later (.default 7 none) [7, 7] 1234567 := by
    obtain ⟨threshold, within, numbered, length, wrote⟩ := Stored.of_split found opened succeeded
    exact ⟨threshold, within, numbered, length, wrote⟩
  have recovers := always toyService findsClientKey _ done later _ _ _ _ _ toyCrypto_lawful found
    opened succeeded rfl
  have same : projectBackupKey.address.toLower = "0xC7".toLower :=
    stored.own_of_recovers toyCrypto_lawful recovers
      (show toyService.account [7, 7] = some ⟨"0xC7", [4, 7, 7]⟩ from rfl)
      (both ▸ List.mem_cons_of_mem _ List.mem_cons_self)
  exact absurd same (by decide +kernel)

end CryptoVaultHub.KeyVault.Shamir
