import CryptoVaultHub.KeyVault.Envelope
import CryptoVaultHub.KeyVault.KeyGeneration
import CryptoVaultHub.Semantics.Statement

/-!
# Encrypted records and the requests that store them

The vault has four tables of encrypted records. Key generation and the splitting of
backup keys read some of them and insert others, always under the password the
service was started with. Each request is a process whose points are its queries; what
a query decrypts stays in memory until the process inserts what it derived from it.

A record also remembers the text it was stored for, which no statement reads.
-/

namespace CryptoVaultHub.KeyVault.Vault

inductive Table where
  | masterSeeds
  | projectSeeds
  | derivedKeys
  | shamirShares
deriving DecidableEq

/-- The columns that identify a record. -/
inductive Subject where
  | masterSeed
  | projectSeed (projectId : ProjectId)
  | derivedKey (clientId : ClientId) (projectId : Option ProjectId) (keyType : KeyType)
      (chainScope : ChainScope)
  | shamirShare (clientId : ClientId) (projectId : Option ProjectId) (shareIndex : Nat)
deriving DecidableEq

def Subject.table : Subject → Table
  | .masterSeed => .masterSeeds
  | .projectSeed _ => .projectSeeds
  | .derivedKey .. => .derivedKeys
  | .shamirShare .. => .shamirShares

/-- Two records that a unique key of their table rules out; rows without a project
are never ruled out. -/
def Subject.conflicts : Subject → Subject → Bool
  | .projectSeed projectId, .projectSeed other => projectId = other
  | .derivedKey _ (some projectId) keyType chainScope, .derivedKey _ (some other) type scope =>
    projectId = other ∧ keyType = type ∧ chainScope = scope
  | .shamirShare clientId (some projectId) shareIndex, .shamirShare client (some other) index =>
    clientId = client ∧ projectId = other ∧ shareIndex = index
  | _, _ => false

/-- Only the tables of seeds have a column `kdf_iterations`. -/
structure Record where
  id : Nat
  subject : Subject
  isActive : Bool
  payload : EncryptedPayload
  kdfIterations : Option Nat
  keyVersion : Nat
  plaintext : Bytes
deriving DecidableEq

def Record.table (record : Record) : Table := record.subject.table

/-- The primary key of a record and its table. -/
def Record.key (record : Record) : Table × Nat := (record.table, record.id)

/-- The configuration of the service, the passwords a rotation is asked for, the
projects, and the private key at a path below a mnemonic. -/
structure Settings where
  crypto : Crypto
  privateKey : Bytes → DerivationPath → Option Bytes
  projectExists : ProjectId → Bool
  kdfIterations : Nat
  masterPassword : String
  oldPassword : String
  newPassword : String

/-- What a record decrypts to. -/
def Record.decrypt (settings : Settings) (record : Record) (password : String) : Option Bytes :=
  decryptWithPassword settings.crypto settings.kdfIterations record.payload password
    record.kdfIterations

/-! ## Inserting records -/

def nextId (records : List Record) (table : Table) : Nat :=
  (records.filter fun record => record.table = table).foldr (fun record next =>
    max (record.id + 1) next) 1

/-- A text to be stored, with the iterations its table wants. -/
structure Draft where
  subject : Subject
  plaintext : Bytes
  kdfIterations : Option Nat

def insertRecord (settings : Settings) (records : List Record) (draft : Draft)
    (random : RandomBytes) : Option (List Record) := do
  if records.any fun record => draft.subject.conflicts record.subject then none
  else
    let payload ← encryptWithPassword settings.crypto settings.kdfIterations draft.plaintext
      settings.masterPassword random
    return records ++
      [{ id := nextId records draft.subject.table
         subject := draft.subject
         isActive := true
         payload := payload
         kdfIterations := draft.kdfIterations
         keyVersion := 1
         plaintext := draft.plaintext }]

/-- The insertions of one transaction. -/
def insertRecords (settings : Settings) (records : List Record) (random : Nat → RandomBytes) :
    List Draft → Option (List Record)
  | [] => some records
  | draft :: rest => do
    let records ← insertRecord settings records draft (random rest.length)
    insertRecords settings records random rest

/-! ## Requests -/

/-- The arguments of `splitBackupKey`. -/
structure Split where
  clientId : ClientId
  projectId : Option ProjectId
  totalShares : Nat
  threshold : Nat

/-- The queries of the requests, with what they have read. -/
inductive Point where
  | findMasterSeed (clientId : ClientId)
  | createMasterSeed (clientId : ClientId)
  | createClientKeys (clientId : ClientId) (mnemonic : Bytes)
  | findGasTankSeed (clientId : ClientId) (chainId : ChainId)
  | createGasTankKey (clientId : ClientId) (chainId : ChainId) (mnemonic : Bytes)
  | checkProjectSeed (projectId : ProjectId)
  | createProjectSeed (projectId : ProjectId)
  | findProjectSeed (projectId : ProjectId) (clientId : ClientId)
  | createProjectKeys (projectId : ProjectId) (clientId : ClientId) (mnemonic : Bytes)
  | findProjectGasTankSeed (projectId : ProjectId) (clientId : ClientId) (chainId : ChainId)
  | checkProjectGasTankKey (projectId : ProjectId) (clientId : ClientId) (chainId : ChainId)
      (seed : Record)
  | createProjectGasTankKey (projectId : ProjectId) (clientId : ClientId) (chainId : ChainId)
      (mnemonic : Bytes)
  | checkShares (split : Split)
  | findBackupKey (split : Split)
  | createShare (split : Split) (shareIndex : Nat) (share : Bytes) (rest : List Bytes)

inductive Request where
  | generateClientKeys (clientId : ClientId)
  | deriveGasTankKey (clientId : ClientId) (chainId : ChainId)
  | generateProjectSeed (projectId : ProjectId)
  | generateProjectKeys (projectId : ProjectId) (clientId : ClientId)
  | deriveProjectGasTankKey (projectId : ProjectId) (clientId : ClientId) (chainId : ChainId)
  | splitBackupKey (split : Split)

/-- A request is refused or starts with its first query. -/
def Request.first (settings : Settings) : Request → Option Point
  | .generateClientKeys clientId => some (.findMasterSeed clientId)
  | .deriveGasTankKey clientId chainId => some (.findGasTankSeed clientId chainId)
  | .generateProjectSeed projectId =>
    if settings.projectExists projectId then some (.checkProjectSeed projectId) else none
  | .generateProjectKeys projectId clientId => some (.findProjectSeed projectId clientId)
  | .deriveProjectGasTankKey projectId clientId chainId =>
    some (.findProjectGasTankSeed projectId clientId chainId)
  | .splitBackupKey split =>
    if split.threshold ≤ split.totalShares then some (.checkShares split) else none

/-- What a query takes from outside: random values, a new mnemonic, the shares of a
secret, and which of several matching keys is found. -/
structure Answer where
  random : Nat → RandomBytes
  mnemonic : Bytes
  shares : Bytes → List Bytes
  chosen : Nat

/-- The newest master seed. -/
def masterSeed? (records : List Record) : Option Record :=
  (records.filter fun record => record.table = .masterSeeds).getLast?

def projectSeed? (records : List Record) (projectId : ProjectId) : Option Record :=
  records.find? fun record => record.subject = .projectSeed projectId

/-- The keys of one call, each at its path below the mnemonic. -/
def keyDrafts (settings : Settings) (mnemonic : Bytes) (keys : List (Subject × DerivationPath)) :
    Option (List Draft) :=
  keys.mapM fun key => (settings.privateKey mnemonic key.2).map fun privateKey =>
    { subject := key.1, plaintext := privateKey, kdfIterations := none }

def signingTypes : List KeyType := [.platform, .client, .backup]

def clientKeySubjects (clientId : ClientId) : List (Subject × DerivationPath) :=
  signingTypes.map fun keyType =>
    (.derivedKey clientId none keyType .evm, clientKeyPath clientId keyType.position)

def projectKeySubjects (projectId : ProjectId) (clientId : ClientId) :
    List (Subject × DerivationPath) :=
  signingTypes.map fun keyType =>
    (.derivedKey clientId (some projectId) keyType .evm, projectKeyPath keyType.position)

/-- A transaction that inserts keys and goes on, or throws. -/
def createKeys (settings : Settings) (records : List Record) (answer : Answer) (mnemonic : Bytes)
    (keys : List (Subject × DerivationPath)) (next : Option Point) :
    Statement (List Record) Point :=
  match (keyDrafts settings mnemonic keys).bind (insertRecords settings records answer.random) with
  | none => { after := records, next := none }
  | some inserted => { after := inserted, next := next }

/-- A query that changes nothing. -/
def query (records : List Record) (next : Option Point) : Statement (List Record) Point :=
  { after := records, next := next }

/-- Read a seed and decrypt its mnemonic with the password of the service. -/
def mnemonicOf (settings : Settings) (seed : Option Record) : Option Bytes :=
  seed.bind fun record => record.decrypt settings settings.masterPassword

/-- The backup key that `splitBackupKey` may find. -/
def Split.isBackupKey (split : Split) (record : Record) : Bool :=
  record.isActive && match record.subject, split.projectId with
    | .derivedKey _ (some projectId) .backup _, some other => projectId = other
    | .derivedKey clientId _ .backup _, none => clientId = split.clientId
    | _, _ => false

/-- `splitBackupKey` with the default shares, for a project. -/
def projectSplit (projectId : ProjectId) (clientId : ClientId) : Split :=
  { clientId := clientId, projectId := some projectId, totalShares := 5, threshold := 3 }

/-- The query at a point. Every error ends the request. -/
def Point.statement (settings : Settings) (records : List Record) (answer : Answer) :
    Point → Statement (List Record) Point
  | .findMasterSeed clientId =>
    query records <|
      match masterSeed? records with
      | none => some (.createMasterSeed clientId)
      | some seed => (mnemonicOf settings seed).map (.createClientKeys clientId)
  | .createMasterSeed clientId =>
    match insertRecord settings records
        ⟨.masterSeed, answer.mnemonic, some settings.kdfIterations⟩ (answer.random 0) with
    | none => query records none
    | some inserted =>
      { after := inserted
        next := (mnemonicOf settings inserted.getLast?).map (.createClientKeys clientId) }
  | .createClientKeys clientId mnemonic =>
    if records.any fun record =>
        match record.subject with
        | .derivedKey owner .. => owner = clientId
        | _ => false
    then query records none
    else createKeys settings records answer mnemonic (clientKeySubjects clientId) none
  | .findGasTankSeed clientId chainId =>
    query records
      ((mnemonicOf settings (masterSeed? records)).map (.createGasTankKey clientId chainId))
  | .createGasTankKey clientId chainId mnemonic =>
    createKeys settings records answer mnemonic
      [(.derivedKey clientId none .gasTank (.chain chainId), gasTankPath chainId clientId)] none
  | .checkProjectSeed projectId =>
    query records
      (if (projectSeed? records projectId).isSome then none
        else some (.createProjectSeed projectId))
  | .createProjectSeed projectId =>
    match insertRecord settings records
        ⟨.projectSeed projectId, answer.mnemonic, some settings.kdfIterations⟩
        (answer.random 0) with
    | none => query records none
    | some inserted => { after := inserted, next := none }
  | .findProjectSeed projectId clientId =>
    query records
      ((mnemonicOf settings (projectSeed? records projectId)).map
        (.createProjectKeys projectId clientId))
  | .createProjectKeys projectId clientId mnemonic =>
    if records.any fun record =>
        match record.subject with
        | .derivedKey _ (some other) .. => other = projectId
        | _ => false
    then query records none
    else createKeys settings records answer mnemonic (projectKeySubjects projectId clientId)
      (some (.checkShares (projectSplit projectId clientId)))
  | .findProjectGasTankSeed projectId clientId chainId =>
    query records
      ((projectSeed? records projectId).map (.checkProjectGasTankKey projectId clientId chainId))
  | .checkProjectGasTankKey projectId clientId chainId seed =>
    query records <|
      if records.any fun record =>
        match record.subject with
        | .derivedKey _ (some other) .gasTank scope => other = projectId ∧ scope = .chain chainId
        | _ => false
      then none
      else (mnemonicOf settings (some seed)).map
        (.createProjectGasTankKey projectId clientId chainId)
  | .createProjectGasTankKey projectId clientId chainId mnemonic =>
    createKeys settings records answer mnemonic
      [(.derivedKey clientId (some projectId) .gasTank (.chain chainId), gasTankPath chainId 0)]
      none
  | .checkShares split =>
    query records
      (if records.any fun record =>
          match record.subject with
          | .shamirShare clientId projectId _ =>
            clientId = split.clientId ∧ projectId = split.projectId
          | _ => false
        then none
        else some (.findBackupKey split))
  | .findBackupKey split =>
    query records <| do
      let key ← (records.filter split.isBackupKey)[answer.chosen]?
      let privateKey ← key.decrypt settings settings.masterPassword
      match answer.shares privateKey with
      | [] => none
      | share :: rest => some (.createShare split 1 share rest)
  | .createShare split shareIndex share rest =>
    match insertRecord settings records
        ⟨.shamirShare split.clientId split.projectId shareIndex, share, none⟩
        (answer.random 0) with
    | none => query records none
    | some inserted =>
      { after := inserted
        next :=
          match rest with
          | [] => none
          | share :: rest => some (.createShare split (shareIndex + 1) share rest) }

end CryptoVaultHub.KeyVault.Vault
