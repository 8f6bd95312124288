import CryptoVaultHub.KeyVault.EncryptedRecords

/-!
# Rotation of the master password

The rotation lists one table after the other and stores each listed record again
under the new password. Requests run between any two of its queries and go on storing
records under the password of the service. `Timely` is the condition that no record
enters a table that has been listed, unless the service has the new password already.
-/

namespace CryptoVaultHub.KeyVault.Vault

open TransitionSystem

/-! ## The rotation -/

/-- The table that is rotated after another. -/
def Table.next : Table → Option Table
  | .masterSeeds => some .projectSeeds
  | .projectSeeds => some .derivedKeys
  | .derivedKeys => some .shamirShares
  | .shamirShares => none

/-- An error names the record whose rotation failed. -/
structure RotationResult where
  rotatedSeeds : Nat
  rotatedProjectSeeds : Nat
  rotatedKeys : Nat
  rotatedShares : Nat
  errors : List (Table × Nat)
deriving DecidableEq

def RotationResult.empty : RotationResult := ⟨0, 0, 0, 0, []⟩

def RotationResult.addError (result : RotationResult) (key : Table × Nat) : RotationResult :=
  { result with errors := result.errors ++ [key] }

def RotationResult.addRotated (result : RotationResult) : Table → RotationResult
  | .masterSeeds => { result with rotatedSeeds := result.rotatedSeeds + 1 }
  | .projectSeeds => { result with rotatedProjectSeeds := result.rotatedProjectSeeds + 1 }
  | .derivedKeys => { result with rotatedKeys := result.rotatedKeys + 1 }
  | .shamirShares => { result with rotatedShares := result.rotatedShares + 1 }

/-- The queries of `rotateMasterPassword`; `pending` are the listed records whose turn
has not come. -/
inductive RotationPoint where
  | verify
  | findMany (table : Table)
  | update (table : Table) (record : Record) (pending : List Record)
  | setVersion (table : Table) (record : Record) (pending : List Record)
  | returned
  | refused
deriving DecidableEq

structure Rotation where
  point : RotationPoint
  result : RotationResult
deriving DecidableEq

/-- The loop over one table; the next table follows, and after the last the rotation
returns, since writing the audit log never throws. -/
def Rotation.continue (table : Table) (pending : List Record) (result : RotationResult) :
    Rotation :=
  match pending with
  | record :: rest => ⟨.update table record rest, result⟩
  | [] =>
    match table.next with
    | some next => ⟨.findMany next, result⟩
    | none => ⟨.returned, result⟩

/-- A record with the columns that the rotation writes. -/
def Record.reseal (settings : Settings) (payload : EncryptedPayload) (record : Record) : Record :=
  { record with
    payload := payload
    kdfIterations := record.kdfIterations.map fun _ => settings.kdfIterations }

/-- The schema has no field for the version, so that it is read as 1 each time. -/
def Record.setVersion (record : Record) : Record := { record with keyVersion := 2 }

/-- Update the record with a primary key. -/
def updateByKey (records : List Record) (key : Table × Nat) (change : Record → Record) :
    List Record :=
  records.map fun record => if record.key = key then change record else record

/-- What a query of the rotation takes from outside: random values, and the order in
which a table is listed. -/
structure RotationAnswer where
  random : RandomBytes
  listing : List Record

/-- `rotateMasterPassword`, one query at a time. -/
def rotateMasterPassword (settings : Settings) (records : List Record) (rotation : Rotation)
    (answer : RotationAnswer) : Option (Statement (List Record) Rotation) :=
  let result := rotation.result
  let refused := some (Rotation.mk .refused result)
  match rotation.point with
  | .verify =>
    let verified := match masterSeed? records with
      | none => true
      | some seed => (seed.decrypt settings settings.oldPassword).isSome
    let accepted := settings.oldPassword != "" && settings.newPassword != "" &&
      settings.oldPassword != settings.newPassword && verified
    some {
      after := records
      next := some ⟨if accepted then .findMany .masterSeeds else .refused, result⟩
      thrown := refused }
  | .findMany table =>
    if answer.listing.isPerm (records.filter fun record => record.table = table) then
      some {
        after := records
        next := some (.continue table answer.listing result)
        thrown := refused }
    else none
  | .update table record pending =>
    let failed := some (Rotation.continue table pending (result.addError record.key))
    match rotateEncryption settings.crypto settings.kdfIterations record.payload
        settings.oldPassword settings.newPassword record.kdfIterations answer.random with
    | none => some { after := records, next := failed, thrown := failed }
    | some payload => some {
        after := updateByKey records record.key (Record.reseal settings payload)
        next := some ⟨.setVersion table record pending, result⟩
        thrown := failed }
  | .setVersion table record pending =>
    some {
      after := updateByKey records record.key Record.setVersion
      next := some (.continue table pending (result.addRotated table))
      thrown := some (.continue table pending (result.addError record.key)) }
  | .returned | .refused => none

/-! ## Interleaving with requests -/

structure State where
  records : List Record
  rotation : Rotation
  requests : List (Option Point)

inductive Action where
  | rotate (ending : Ending) (answer : RotationAnswer)
  | begin (request : Request)
  | advance (index : Nat) (ending : Ending) (answer : Answer)

def step (settings : Settings) (state : State) : Action → Option State
  | .rotate ending answer =>
    (rotateMasterPassword settings state.records state.rotation answer).map fun statement =>
      let (records, rotation) := statement.perform state.records ending
      { state with records := records, rotation := rotation.getD state.rotation }
  | .begin request =>
    some { state with requests := state.requests ++ [request.first settings] }
  | .advance index ending answer =>
    (state.requests[index]?).join.map fun point =>
      let (records, point) :=
        (point.statement settings state.records answer).perform state.records ending
      { state with records := records, requests := state.requests.set index point }

/-- A stored text is what its record decrypts to under the old password, if it does. -/
def Faithful (settings : Settings) (record : Record) : Prop :=
  ∀ text, record.decrypt settings settings.oldPassword = some text → text = record.plaintext

/-- The vault before the rotation and before any request. -/
structure State.Initial (settings : Settings) (state : State) : Prop where
  keys : (state.records.map Record.key).Nodup
  faithful : ∀ record ∈ state.records, Faithful settings record
  rotation : state.rotation = ⟨.verify, .empty⟩
  requests : state.requests = []

def system (settings : Settings) : TransitionSystem State Action where
  Initial := State.Initial settings
  step := step settings

/-! ## The condition -/

/-- The tables that come before one in the rotation. -/
def Table.before : Table → List Table
  | .masterSeeds => []
  | .projectSeeds => [.masterSeeds]
  | .derivedKeys => [.masterSeeds, .projectSeeds]
  | .shamirShares => [.masterSeeds, .projectSeeds, .derivedKeys]

/-- The tables that the rotation has listed. -/
def RotationPoint.listed : RotationPoint → List Table
  | .verify | .refused => []
  | .findMany table => table.before
  | .update table _ _ | .setVersion table _ _ => table :: table.before
  | .returned => [.masterSeeds, .projectSeeds, .derivedKeys, .shamirShares]

/-- The records that an action inserts. -/
def inserted (settings : Settings) (state : State) (action : Action) : List Record :=
  ((step settings state action).map fun next =>
    next.records.drop state.records.length).getD []

/-- A record is inserted before its table is listed, or under the new password. -/
@[reducible] def Timely (settings : Settings) (state : State) (action : Action) : Prop :=
  settings.masterPassword = settings.newPassword ∨
    ∀ record ∈ inserted settings state action, record.table ∉ state.rotation.point.listed

end CryptoVaultHub.KeyVault.Vault
