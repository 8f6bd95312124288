import CryptoVaultHub.CoreWallet.Provisioning

/-!
# Deposit addresses, address groups and their salts

`generateAddress`, `createGroup` and `provisionOnChains` over `wallets`, `address_groups` and
`deposit_addresses`. No row of these tables is changed and every insertion is checked against a
key, so a call is one step of its own; a turn of the loop over the chains is one too. Which
forwarder factory answers for a chain is an input of each call.

Both services hash two numbers and a text to the salt. `rows_separate_iff` says when the salts and
addresses of two requests differ: unless a client has made a deposit address and a group whose
chain and project have one number and whose external id is the uid of the group.
-/

namespace CryptoVaultHub.CoreWallet

open Contracts List Option

/-! ## Requests -/

/-- A string in UTF-8; a string has less than `2 ^ 53` units of at most three bytes. -/
abbrev SaltText := {bytes : List UInt8 // bytes.length < 2 ^ 55}

/-- What a salt is made for: a deposit address, or a group. -/
inductive SaltRequest where
  | deposit (clientId chainId : Nat) (externalId : SaltText)
  | group (clientId projectId : Nat) (groupUid : SaltText)
deriving DecidableEq

def hexDigit (nibble : BitVec 4) : UInt8 :=
  UInt8.ofNat (if nibble.toNat < 10 then 48 + nibble.toNat else 87 + nibble.toNat)

/-- The uid of a group: `ag_` and the digits of a random UUID. -/
def groupUid (uuid : BitVec 128) : SaltText :=
  ⟨asciiBytes "ag_".toList ++ List.ofFn fun index : Fin 32 =>
      hexDigit (uuid.extractLsb' (4 * (31 - index.val)) 4),
    by simp [asciiBytes]⟩

/-- The largest integer that is encoded; the encoder refuses a larger number. -/
def maxSafeInteger : Nat := 2 ^ 53 - 1

namespace SaltRequest

/-- The two numbers that are encoded. -/
def numbers : SaltRequest → Nat × Nat
  | .deposit clientId chainId _ => (clientId, chainId)
  | .group clientId projectId _ => (clientId, projectId)

/-- The text that is encoded. -/
def text : SaltRequest → SaltText
  | .deposit _ _ externalId => externalId
  | .group _ _ uid => uid

/-- The numbers that the encoder takes. -/
@[reducible] def Encodable (request : SaltRequest) : Prop :=
  request.numbers.1 ≤ maxSafeInteger ∧ request.numbers.2 ≤ maxSafeInteger

/-- The preimage of the salt, encoded as `uint256`, `uint256` and `string`. -/
def preimage (request : SaltRequest) : List UInt8 :=
  Abi.encode [.static (BitVec.ofNat 256 request.numbers.1),
    .static (BitVec.ofNat 256 request.numbers.2), .bytes request.text.val]

/-- The salt of a request. -/
def salt (evm : Evm) (request : SaltRequest) : Uint256 :=
  computeSalt evm request.numbers.1 request.numbers.2 request.text.val

/-- A deposit address and a group whose salts have one preimage. -/
def Twins : SaltRequest → SaltRequest → Prop
  | .deposit clientId chainId externalId, .group groupClient projectId uid =>
    clientId = groupClient ∧ chainId = projectId ∧ externalId = uid
  | .group groupClient projectId uid, .deposit clientId chainId externalId =>
    clientId = groupClient ∧ chainId = projectId ∧ externalId = uid
  | .deposit _ _ _, .deposit _ _ _ => False
  | .group _ _ _, .group _ _ _ => False

instance (first second : SaltRequest) : Decidable (first.Twins second) := by
  cases first <;> cases second <;> simp only [Twins] <;> infer_instance

end SaltRequest

/-! ## Tables -/

/-- What a forwarder address is computed from beside the salt; the parent takes the fees. -/
structure Derivation where
  factory : CloneFactory
  deployer : Address
  parent : Address
deriving DecidableEq

/-- A row of `address_groups`; `reference` is what its address was computed from, if it was not
the fallback. -/
structure AddressGroup where
  groupUid : SaltText
  clientId : Nat
  projectId : Nat
  externalId : Option SaltText
  derivationSalt : Uint256
  computedAddress : Address
  reference : Option Derivation
deriving DecidableEq

/-- A row of `deposit_addresses`, with its request and what its address was computed from. -/
structure ForwarderRow where
  clientId : Nat
  projectId : Nat
  chainId : Nat
  address : Address
  externalId : SaltText
  salt : Uint256
  addressGroup : Option SaltText
  request : SaltRequest
  derivation : Derivation
deriving DecidableEq

structure AddressTables where
  wallets : List WalletRow
  addressGroups : List AddressGroup
  depositAddresses : List ForwarderRow
deriving DecidableEq

/-- The hashes, and the key by which the database compares external ids. -/
structure AddressSettings where
  evm : Evm
  collate : SaltText → SaltText

variable (settings : AddressSettings)

/-- `computeForwarderAddress` of the contract service. -/
def Derivation.address (derivation : Derivation) (evm : Evm) (salt : Uint256) : Address :=
  computeForwarderAddress evm derivation.factory derivation.deployer derivation.parent
    derivation.parent salt

/-- The address of a group without wallets or without an answer of the factory. -/
def fallbackAddress (evm : Evm) (salt : Uint256) : Address :=
  create2Address evm zeroAddress (Abi.slot salt.toNat) []

namespace AddressTables

def wallet? (tables : AddressTables) (clientId chainId : Nat) (walletType : WalletType) :
    Option WalletRow :=
  tables.wallets.find? fun row =>
    row.clientId = clientId ∧ row.chainId = chainId ∧ row.walletType = walletType

def insertWallet (tables : AddressTables) (row : WalletRow) : AddressTables :=
  match tables.wallet? row.clientId row.chainId row.walletType with
  | some _ => tables
  | none => { tables with wallets := tables.wallets ++ [row] }

/-- The insertion of a deposit address, refused when its key is taken. -/
def insertAddress (tables : AddressTables) (row : ForwarderRow) : AddressTables :=
  if tables.depositAddresses.any fun other => other.clientId = row.clientId ∧
      other.chainId = row.chainId ∧
      settings.collate other.externalId = settings.collate row.externalId then tables
  else { tables with depositAddresses := tables.depositAddresses ++ [row] }

/-- The insertion of a group, refused when its uid or its salt is taken. -/
def insertGroup (tables : AddressTables) (row : AddressGroup) : AddressTables :=
  if tables.addressGroups.any fun other =>
      settings.collate other.groupUid = settings.collate row.groupUid ∨
        other.clientId = row.clientId ∧ other.derivationSalt = row.derivationSalt then tables
  else { tables with addressGroups := tables.addressGroups ++ [row] }

/-- What `findFirst` may answer for a wallet of a client: any that there is. -/
def Finds (tables : AddressTables) (clientId : Nat) (walletType : WalletType) :
    Option WalletRow → Prop
  | some row => row ∈ tables.wallets ∧ row.clientId = clientId ∧ row.walletType = walletType
  | none => ∀ row ∈ tables.wallets, ¬ (row.clientId = clientId ∧ row.walletType = walletType)

instance (tables : AddressTables) (clientId : Nat) (walletType : WalletType)
    (found : Option WalletRow) : Decidable (tables.Finds clientId walletType found) := by
  cases found <;> simp only [Finds] <;> infer_instance

/-- The wallets of a chain and the factory that answers, if all three are there. -/
def derivation? (hot gasTank : Option WalletRow) (factory : Option CloneFactory) :
    Option Derivation := do
  let hot ← hot
  let gasTank ← gasTank
  let factory ← factory
  return ⟨factory, gasTank.address, hot.address⟩

/-- `generateAddress`; a request that is there already or that throws changes nothing. -/
def generateAddress (tables : AddressTables) (clientId chainId : Nat) (externalId : SaltText)
    (factory : Option CloneFactory) : AddressTables :=
  let request := SaltRequest.deposit clientId chainId externalId
  let hot := tables.wallet? clientId chainId .hot
  match hot, derivation? hot (tables.wallet? clientId chainId .gasTank) factory with
  | some hot, some derivation =>
    if request.Encodable then
      let salt := request.salt settings.evm
      tables.insertAddress settings
        { clientId := clientId
          projectId := hot.projectId
          chainId := chainId
          address := derivation.address settings.evm salt
          externalId := externalId
          salt := salt
          addressGroup := none
          request := request
          derivation := derivation }
    else tables
  | _, _ => tables

/-- `createGroup`, with the wallets that its two queries found. -/
def createGroup (tables : AddressTables) (clientId projectId : Nat) (uid : SaltText)
    (externalId : Option SaltText) (hot gasTank : Option WalletRow) (factory : Option CloneFactory) :
    AddressTables :=
  let request := SaltRequest.group clientId projectId uid
  if request.Encodable then
    let salt := request.salt settings.evm
    let reference := derivation? hot gasTank factory
    tables.insertGroup settings
      { groupUid := uid
        clientId := clientId
        projectId := projectId
        externalId := externalId
        derivationSalt := salt
        computedAddress :=
          match reference with
          | some derivation => derivation.address settings.evm salt
          | none => fallbackAddress settings.evm salt
        reference := reference }
  else tables

/-- A turn of the loop of `provisionOnChains`; an error is caught and changes nothing. -/
def provisionOnChain (tables : AddressTables) (group : AddressGroup) (chainId : Nat)
    (factory : Option CloneFactory) : AddressTables :=
  if tables.depositAddresses.any fun other => other.clientId = group.clientId ∧
      other.chainId = chainId ∧ other.addressGroup = some group.groupUid then tables
  else
    let hot := tables.wallet? group.clientId chainId .hot
    match hot, derivation? hot (tables.wallet? group.clientId chainId .gasTank) factory with
    | some hot, some derivation =>
      tables.insertAddress settings
        { clientId := group.clientId
          projectId := hot.projectId
          chainId := chainId
          address := derivation.address settings.evm group.derivationSalt
          externalId := group.externalId.getD group.groupUid
          salt := group.derivationSalt
          addressGroup := some group.groupUid
          request := .group group.clientId group.projectId group.groupUid
          derivation := derivation }
    | _, _ => tables

end AddressTables

/-! ## Runs -/

inductive AddressAction where
  | insertWallet (row : WalletRow)
  | generateAddress (clientId chainId : Nat) (externalId : SaltText) (factory : Option CloneFactory)
  | createGroup (clientId projectId : Nat) (uuid : BitVec 128) (externalId : Option SaltText)
      (hot gasTank : Option WalletRow) (factory : Option CloneFactory)
  | provisionOnChain (group : AddressGroup) (chainId : Nat) (factory : Option CloneFactory)
deriving DecidableEq

/-- One call; the answers of its queries are rows of the tables. -/
def AddressTables.step (tables : AddressTables) : AddressAction → Option AddressTables
  | .insertWallet row => some (tables.insertWallet row)
  | .generateAddress clientId chainId externalId factory =>
    some (tables.generateAddress settings clientId chainId externalId factory)
  | .createGroup clientId projectId uuid externalId hot gasTank factory =>
    if tables.Finds clientId .hot hot ∧ tables.Finds clientId .gasTank gasTank then
      some (tables.createGroup settings clientId projectId (groupUid uuid) externalId hot
        gasTank factory)
    else none
  | .provisionOnChain group chainId factory =>
    if group ∈ tables.addressGroups then
      some (tables.provisionOnChain settings group chainId factory)
    else none

def addressSystem : TransitionSystem AddressTables AddressAction where
  Initial tables := tables = ⟨[], [], []⟩
  step := AddressTables.step settings

/-! ## Salts and addresses of the rows -/

/-- A row of either table, as far as its salt and its address go. -/
structure Issued where
  request : SaltRequest
  salt : Uint256
  derivation : Option Derivation
  address : Address
deriving DecidableEq

def ForwarderRow.issued (row : ForwarderRow) : Issued :=
  ⟨row.request, row.salt, some row.derivation, row.address⟩

def AddressGroup.issued (group : AddressGroup) : Issued :=
  ⟨.group group.clientId group.projectId group.groupUid, group.derivationSalt, group.reference,
    group.computedAddress⟩

def AddressTables.issued (tables : AddressTables) : List Issued :=
  tables.depositAddresses.map ForwarderRow.issued ++ tables.addressGroups.map AddressGroup.issued

/-- The salt of a row is that of its request, and its address is computed from it. -/
structure Issued.Computed (evm : Evm) (issued : Issued) : Prop where
  encodable : issued.request.Encodable
  salt : issued.salt = issued.request.salt evm
  address : ∀ derivation ∈ issued.derivation, issued.address = derivation.address evm issued.salt

/-- Every row is computed from its request. -/
def AddressTables.Computed (tables : AddressTables) (evm : Evm) : Prop :=
  ∀ issued ∈ tables.issued, issued.Computed evm

variable {settings} {tables : AddressTables}

theorem AddressTables.issued_insertWallet (row : WalletRow) :
    (tables.insertWallet row).issued = tables.issued := by
  unfold AddressTables.insertWallet
  split <;> rfl

theorem AddressTables.mem_issued_insertAddress {row : ForwarderRow} {issued : Issued}
    (member : issued ∈ (tables.insertAddress settings row).issued) :
    issued = row.issued ∨ issued ∈ tables.issued := by
  unfold AddressTables.insertAddress at member
  split at member
  · exact .inr member
  · simp only [AddressTables.issued, map_append, mem_append, map_cons,
      map_nil, mem_singleton] at member ⊢
    tauto

theorem AddressTables.mem_issued_insertGroup {row : AddressGroup} {issued : Issued}
    (member : issued ∈ (tables.insertGroup settings row).issued) :
    issued = row.issued ∨ issued ∈ tables.issued := by
  unfold AddressTables.insertGroup at member
  split at member
  · exact .inr member
  · simp only [AddressTables.issued, map_append, mem_append, map_cons,
      map_nil, mem_singleton] at member ⊢
    tauto

theorem AddressTables.Computed.insertAddress (computed : tables.Computed settings.evm)
    {row : ForwarderRow} (rowComputed : row.issued.Computed settings.evm) :
    (tables.insertAddress settings row).Computed settings.evm := by
  intro issued member
  obtain rfl | before := AddressTables.mem_issued_insertAddress member
  · exact rowComputed
  · exact computed issued before

theorem AddressTables.Computed.insertGroup (computed : tables.Computed settings.evm)
    {row : AddressGroup} (rowComputed : row.issued.Computed settings.evm) :
    (tables.insertGroup settings row).Computed settings.evm := by
  intro issued member
  obtain rfl | before := AddressTables.mem_issued_insertGroup member
  · exact rowComputed
  · exact computed issued before

/-- Each call inserts only rows that are computed from their requests. -/
theorem AddressTables.Computed.step {action : AddressAction} {after : AddressTables}
    (computed : tables.Computed settings.evm)
    (transition : tables.step settings action = some after) : after.Computed settings.evm := by
  cases action with
  | insertWallet row =>
    obtain rfl := Option.some.inj transition
    unfold AddressTables.Computed
    rwa [AddressTables.issued_insertWallet]
  | generateAddress clientId chainId externalId factory =>
    obtain rfl := Option.some.inj transition
    dsimp only [AddressTables.generateAddress]
    split
    · split
      · rename_i encodable
        apply computed.insertAddress
        refine ⟨encodable, rfl, ?_⟩
        rintro derivation ⟨⟩
        rfl
      · exact computed
    · exact computed
  | createGroup clientId projectId uuid externalId hot gasTank factory =>
    simp only [AddressTables.step] at transition
    split at transition
    · obtain rfl := Option.some.inj transition
      dsimp only [AddressTables.createGroup]
      split
      · rename_i encodable
        apply computed.insertGroup
        refine ⟨encodable, rfl, ?_⟩
        intro derivation isReference
        simp only [AddressGroup.issued, mem_def] at isReference ⊢
        rw [isReference]
      · exact computed
    · cases transition
  | provisionOnChain group chainId factory =>
    simp only [AddressTables.step] at transition
    split at transition
    · rename_i member
      obtain rfl := Option.some.inj transition
      have groupComputed : group.issued.Computed settings.evm :=
        computed _ (mem_append_right _ (mem_map_of_mem member))
      dsimp only [AddressTables.provisionOnChain]
      split
      · exact computed
      · split
        · apply computed.insertAddress
          refine ⟨groupComputed.encodable, groupComputed.salt, ?_⟩
          rintro derivation ⟨⟩
          rfl
        · exact computed
    · cases transition

theorem computed_of_reachable {Allowed : AddressTables → AddressAction → Prop}
    (reachable : (addressSystem settings).Reachable Allowed tables) :
    tables.Computed settings.evm := by
  apply reachable.invariant
  · rintro start rfl issued member
    cases member
  · intro before action after computed _ transition
    exact computed.step transition

/-! ## One salt for two requests -/

theorem SaltRequest.length_preimage_lt (request : SaltRequest) :
    request.preimage.length < 2 ^ 256 := by
  have short := request.text.property
  have tail := Abi.length_tail_bytes_le request.text.val
  simp only [SaltRequest.preimage, Abi.length_encode, Abi.tails, flatMap_cons,
    flatMap_nil, length_append, length_cons, length_nil, Abi.Value.tail]
    at tail ⊢
  omega

theorem SaltRequest.Encodable.fits {request : SaltRequest} (encodable : request.Encodable) :
    request.numbers.1 < 2 ^ 256 ∧ request.numbers.2 < 2 ^ 256 := by
  obtain ⟨first, second⟩ := encodable
  simp only [maxSafeInteger] at first second
  omega

/-- What a preimage tells of its request. -/
theorem SaltRequest.eq_of_preimage {first second : SaltRequest} (left : first.Encodable)
    (right : second.Encodable) (equal : first.preimage = second.preimage) :
    first.numbers = second.numbers ∧ first.text = second.text := by
  have values := Abi.encode_injective equal first.length_preimage_lt rfl
  simp only [List.cons.injEq, Abi.Value.static.injEq, Abi.Value.bytes.injEq, and_true] at values
  obtain ⟨clients, numbers, texts⟩ := values
  have clientsEqual := congrArg BitVec.toNat clients
  have numbersEqual := congrArg BitVec.toNat numbers
  simp only [BitVec.toNat_ofNat, Nat.mod_eq_of_lt left.fits.1, Nat.mod_eq_of_lt left.fits.2,
    Nat.mod_eq_of_lt right.fits.1, Nat.mod_eq_of_lt right.fits.2] at clientsEqual numbersEqual
  exact ⟨Prod.ext clientsEqual numbersEqual, Subtype.ext texts⟩

/-- Two encodable requests have one preimage when they are one request or twins. -/
theorem SaltRequest.preimage_eq_iff {first second : SaltRequest} (left : first.Encodable)
    (right : second.Encodable) :
    first.preimage = second.preimage ↔ first = second ∨ first.Twins second := by
  constructor
  · intro equal
    obtain ⟨numbers, texts⟩ := SaltRequest.eq_of_preimage left right equal
    cases first <;> cases second <;>
      simp_all [SaltRequest.numbers, SaltRequest.text, SaltRequest.Twins]
  · rintro (rfl | twins)
    · rfl
    · cases first <;> cases second <;>
        simp_all [SaltRequest.numbers, SaltRequest.text, SaltRequest.Twins, SaltRequest.preimage]

/-- The digest of a preimage, as a word. -/
def saltDigest (evm : Evm) (data : List UInt8) : Uint256 :=
  BitVec.ofNat 256 (Abi.readBigEndian (evm.keccak256 data))

theorem SaltRequest.salt_eq (evm : Evm) (request : SaltRequest) :
    request.salt evm = saltDigest evm request.preimage := rfl

/-- What the factory hashes for a forwarder. -/
def Derivation.arguments (derivation : Derivation) (salt : Uint256) : ForwarderArguments :=
  ⟨derivation.deployer, derivation.parent, derivation.parent, salt⟩

/-- The hash tells two rows apart wherever it is taken of something different for them. -/
def Issued.ToldApart (evm : Evm) (first second : Issued) : Prop :=
  ¬ Collides (saltDigest evm) first.request.preimage second.request.preimage ∧
    ∀ left ∈ first.derivation, ∀ right ∈ second.derivation, left.factory = right.factory →
      ¬ Collides evm.keccak256 (left.arguments first.salt).encode
          (right.arguments second.salt).encode ∧
        ¬ Collides (digestAddress ∘ evm.keccak256)
          (clonePreimage evm left.factory (left.arguments first.salt).encode)
          (clonePreimage evm right.factory (right.arguments second.salt).encode)

/-- Two rows have different salts, and different addresses under one factory and parent. -/
def Issued.Separate (first second : Issued) : Prop :=
  first.salt ≠ second.salt ∧
    ∀ left ∈ first.derivation, ∀ right ∈ second.derivation,
      left.factory = right.factory → left.parent = right.parent → first.address ≠ second.address

/-- The address that a factory computes from some arguments is that of its clone. -/
theorem Derivation.address_eq (evm : Evm) (derivation : Derivation) (salt : Uint256) :
    derivation.address evm salt =
      computeCloneAddress evm derivation.factory derivation.factory.implementationAddress
        (evm.keccak256 (derivation.arguments salt).encode) := rfl

/-- Rows with one address of one factory have one salt. -/
theorem Issued.Computed.salt_eq {evm : Evm} {first second : Issued}
    (firstComputed : first.Computed evm) (secondComputed : second.Computed evm)
    (apart : first.ToldApart evm second) {left right : Derivation}
    (isLeft : left ∈ first.derivation) (isRight : right ∈ second.derivation)
    (factories : left.factory = right.factory) (equal : first.address = second.address) :
    first.salt = second.salt := by
  obtain ⟨arguments, preimages⟩ := apart.2 left isLeft right isRight factories
  rw [firstComputed.address left isLeft, secondComputed.address right isRight,
    Derivation.address_eq, Derivation.address_eq, ← factories] at equal
  rw [← factories] at preimages
  have encodings : (left.arguments first.salt).encode = (right.arguments second.salt).encode :=
    (clonePreimage_address equal).resolve_right (not_or.mpr ⟨arguments, preimages⟩)
  exact congrArg ForwarderArguments.salt (ForwarderArguments.encode_injective encodings)

/-- Rows of two requests are separate unless the requests are twins. -/
theorem Issued.Computed.separate_iff {evm : Evm} {first second : Issued}
    (firstComputed : first.Computed evm) (secondComputed : second.Computed evm)
    (apart : first.ToldApart evm second) (different : first.request ≠ second.request) :
    first.Separate second ↔ ¬ first.request.Twins second.request := by
  have preimages := SaltRequest.preimage_eq_iff firstComputed.encodable secondComputed.encodable
  constructor
  · intro separate twins
    apply separate.1
    rw [firstComputed.salt, secondComputed.salt, SaltRequest.salt_eq, SaltRequest.salt_eq,
      preimages.mpr (.inr twins)]
  · intro apartRequests
    have salts : first.salt ≠ second.salt := by
      intro equal
      rw [firstComputed.salt, secondComputed.salt] at equal
      have samePreimage : first.request.preimage = second.request.preimage := by
        by_contra differs
        exact apart.1 ⟨differs, equal⟩
      exact (preimages.mp samePreimage).elim different apartRequests
    refine ⟨salts, ?_⟩
    intro left isLeft right isRight factories _ equal
    exact salts (firstComputed.salt_eq secondComputed apart isLeft isRight factories equal)

/-! ## All rows -/

/-- The rows of any two requests are separate. -/
def AddressTables.Separate (tables : AddressTables) : Prop :=
  ∀ first ∈ tables.issued, ∀ second ∈ tables.issued,
    first.request ≠ second.request → first.Separate second

/-- No two rows have twins for requests. -/
@[reducible] def AddressTables.Twinless (tables : AddressTables) : Prop :=
  ∀ first ∈ tables.issued, ∀ second ∈ tables.issued, ¬ first.request.Twins second.request

/-- The hash does not collide on what was hashed for the rows. -/
def AddressTables.ToldApart (evm : Evm) (tables : AddressTables) : Prop :=
  ∀ first ∈ tables.issued, ∀ second ∈ tables.issued, first.ToldApart evm second

/-- The request of a call, if it makes one. -/
def AddressAction.request? : AddressAction → Option SaltRequest
  | .insertWallet _ => none
  | .generateAddress clientId chainId externalId _ => some (.deposit clientId chainId externalId)
  | .createGroup clientId projectId uuid _ _ _ _ =>
    some (.group clientId projectId (groupUid uuid))
  | .provisionOnChain _ _ _ => none

/-- The call makes no twin of a request that has a row. -/
@[reducible] def AddressTables.MakesNoTwin (tables : AddressTables) (action : AddressAction) : Prop :=
  ∀ request ∈ action.request?, ∀ issued ∈ tables.issued, ¬ issued.request.Twins request

theorem SaltRequest.not_twins_self (request : SaltRequest) : ¬ request.Twins request := by
  cases request <;> exact not_false

theorem SaltRequest.Twins.symm {first second : SaltRequest} (twins : first.Twins second) :
    second.Twins first := by
  cases first <;> cases second <;> exact twins

/-- A row after a call has a request that had a row, or the request of the call. -/
theorem AddressTables.request_of_step {action : AddressAction} {after : AddressTables}
    (transition : tables.step settings action = some after) {issued : Issued}
    (member : issued ∈ after.issued) :
    issued.request ∈ action.request? ∨
      ∃ before ∈ tables.issued, before.request = issued.request := by
  cases action with
  | insertWallet row =>
    obtain rfl := Option.some.inj transition
    rw [AddressTables.issued_insertWallet] at member
    exact .inr ⟨issued, member, rfl⟩
  | generateAddress clientId chainId externalId factory =>
    obtain rfl := Option.some.inj transition
    dsimp only [AddressTables.generateAddress] at member
    split at member
    · split at member
      · obtain rfl | before := AddressTables.mem_issued_insertAddress member
        · exact .inl rfl
        · exact .inr ⟨issued, before, rfl⟩
      · exact .inr ⟨issued, member, rfl⟩
    · exact .inr ⟨issued, member, rfl⟩
  | createGroup clientId projectId uuid externalId hot gasTank factory =>
    simp only [AddressTables.step] at transition
    split at transition
    · obtain rfl := Option.some.inj transition
      dsimp only [AddressTables.createGroup] at member
      split at member
      · obtain rfl | before := AddressTables.mem_issued_insertGroup member
        · exact .inl rfl
        · exact .inr ⟨issued, before, rfl⟩
      · exact .inr ⟨issued, member, rfl⟩
    · cases transition
  | provisionOnChain group chainId factory =>
    simp only [AddressTables.step] at transition
    split at transition
    · rename_i isGroup
      obtain rfl := Option.some.inj transition
      dsimp only [AddressTables.provisionOnChain] at member
      split at member
      · exact .inr ⟨issued, member, rfl⟩
      · split at member
        · obtain rfl | before := AddressTables.mem_issued_insertAddress member
          · exact .inr ⟨group.issued,
              mem_append_right _ (mem_map_of_mem isGroup), rfl⟩
          · exact .inr ⟨issued, before, rfl⟩
        · exact .inr ⟨issued, member, rfl⟩
    · cases transition

/-- Calls that make no twins leave none. -/
theorem AddressTables.Twinless.step {action : AddressAction} {after : AddressTables}
    (twinless : tables.Twinless) (allowed : tables.MakesNoTwin action)
    (transition : tables.step settings action = some after) : after.Twinless := by
  intro first isFirst second isSecond twins
  obtain firstNew | ⟨firstRow, firstMember, firstSame⟩ :=
    AddressTables.request_of_step transition isFirst
  · obtain secondNew | ⟨secondRow, secondMember, secondSame⟩ :=
      AddressTables.request_of_step transition isSecond
    · have same : first.request = second.request := mem_unique firstNew secondNew
      exact SaltRequest.not_twins_self _ (same ▸ twins)
    · exact allowed _ firstNew secondRow secondMember (secondSame ▸ twins.symm)
  · obtain secondNew | ⟨secondRow, secondMember, secondSame⟩ :=
      AddressTables.request_of_step transition isSecond
    · exact allowed _ secondNew firstRow firstMember (firstSame ▸ twins)
    · exact twinless firstRow firstMember secondRow secondMember
        (firstSame ▸ secondSame ▸ twins)

theorem AddressTables.Computed.separate_iff {evm : Evm} (computed : tables.Computed evm)
    (apart : tables.ToldApart evm) : tables.Separate ↔ tables.Twinless := by
  constructor
  · intro separate first isFirst second isSecond twins
    have different : first.request ≠ second.request := by
      intro same
      exact SaltRequest.not_twins_self _ (same ▸ twins)
    have rows := (computed first isFirst).separate_iff (computed second isSecond)
      (apart first isFirst second isSecond) different
    exact rows.mp (separate first isFirst second isSecond different) twins
  · intro twinless first isFirst second isSecond different
    have rows := (computed first isFirst).separate_iff (computed second isSecond)
      (apart first isFirst second isSecond) different
    exact rows.mpr (twinless first isFirst second isSecond)

/-- As long as the hash does not collide, different requests have different salts, and different
addresses under one factory and parent, exactly if no two of them are twins; and so they do after
calls none of which made a twin. -/
theorem rows_separate_iff (settings : AddressSettings) :
    (∀ tables : AddressTables,
      (addressSystem settings).Reachable TransitionSystem.Unrestricted tables →
      tables.ToldApart settings.evm → (tables.Separate ↔ tables.Twinless)) ∧
    (∀ tables : AddressTables,
      (addressSystem settings).Reachable AddressTables.MakesNoTwin tables →
      tables.ToldApart settings.evm → tables.Separate) := by
  refine ⟨?_, ?_⟩
  · intro tables reachable apart
    exact (computed_of_reachable reachable).separate_iff apart
  · intro tables reachable apart
    apply ((computed_of_reachable reachable).separate_iff apart).mpr
    apply reachable.invariant
    · rintro start rfl first member
      cases member
    · intro before action after twinless allowed transition
      exact twinless.step allowed transition

/-! ## A deposit address named like a group -/

def sampleAddressSettings : AddressSettings := ⟨digitEvm, id⟩

/-- The two wallets of a client on the first chain. -/
def insertsWallets : List AddressAction :=
  [.insertWallet ⟨1, 1, 1, .hot, 0xa⟩, .insertWallet ⟨1, 1, 1, .gasTank, 0xd⟩]

/-- A group of the first project, with an external id of its own. -/
def createsGroup : AddressAction :=
  .createGroup 1 1 0x2a (some ⟨[0x78], by decide⟩) (some ⟨1, 1, 1, .hot, 0xa⟩)
    (some ⟨1, 1, 1, .gasTank, 0xd⟩) (some sampleFactory)

def sampleGroupRow : AddressGroup :=
  { groupUid := groupUid 0x2a
    clientId := 1
    projectId := 1
    externalId := some ⟨[0x78], by decide⟩
    derivationSalt := (SaltRequest.group 1 1 (groupUid 0x2a)).salt sampleAddressSettings.evm
    computedAddress := (Derivation.mk sampleFactory 0xd 0xa).address sampleAddressSettings.evm
      ((SaltRequest.group 1 1 (groupUid 0x2a)).salt sampleAddressSettings.evm)
    reference := some ⟨sampleFactory, 0xd, 0xa⟩ }

instance (evm : Evm) (first second : Issued) : Decidable (first.ToldApart evm second) := by
  unfold Issued.ToldApart Collides
  infer_instance

instance (first second : Issued) : Decidable (first.Separate second) := by
  unfold Issued.Separate
  infer_instance

instance (evm : Evm) (tables : AddressTables) : Decidable (tables.ToldApart evm) := by
  unfold AddressTables.ToldApart
  infer_instance

instance (tables : AddressTables) : Decidable tables.Separate := by
  unfold AddressTables.Separate
  infer_instance

theorem sampleAddresses_initial :
    (addressSystem sampleAddressSettings).Initial ⟨[], [], []⟩ := rfl

theorem rows_separate_sample :
    ∃ tables, (addressSystem sampleAddressSettings).Reachable AddressTables.MakesNoTwin tables ∧
      tables.issued.length = 3 ∧ tables.Separate := by
  obtain ⟨tables, reachable, rows, apart⟩ : ∃ tables,
      (addressSystem sampleAddressSettings).Reachable AddressTables.MakesNoTwin tables ∧
        tables.issued.length = 3 ∧ tables.ToldApart sampleAddressSettings.evm :=
    TransitionSystem.exists_reachable sampleAddresses_initial
      (insertsWallets ++ [.generateAddress 1 1 ⟨[0x78, 0x79], by decide⟩ (some sampleFactory),
        createsGroup, .provisionOnChain sampleGroupRow 1 (some sampleFactory)]) (by decide +kernel)
  exact ⟨tables, reachable, rows,
    (rows_separate_iff sampleAddressSettings).2 tables reachable apart⟩

/-- The external id of a deposit address is the uid of a group, and its chain has the number of
the project; the group then has a row with the same address on that chain. -/
theorem rows_share_address :
    ∃ tables,
      (addressSystem sampleAddressSettings).Reachable TransitionSystem.Unrestricted tables ∧
        tables.ToldApart sampleAddressSettings.evm ∧ ¬ tables.Separate ∧
        ∃ first ∈ tables.depositAddresses, ∃ second ∈ tables.depositAddresses,
          first.request ≠ second.request ∧ first.chainId = second.chainId ∧
            first.request.preimage = second.request.preimage ∧ first.address = second.address := by
  obtain ⟨tables, reachable, passed⟩ : ∃ tables,
      (addressSystem sampleAddressSettings).Reachable TransitionSystem.Unrestricted tables ∧
        tables.ToldApart sampleAddressSettings.evm ∧ ¬ tables.Separate ∧
          ∃ first ∈ tables.depositAddresses, ∃ second ∈ tables.depositAddresses,
            first.request ≠ second.request ∧ first.chainId = second.chainId ∧
              first.request.preimage = second.request.preimage ∧
                first.address = second.address :=
    TransitionSystem.exists_reachable sampleAddresses_initial
      (insertsWallets ++ [createsGroup, .provisionOnChain sampleGroupRow 1 (some sampleFactory),
        .generateAddress 1 1 (groupUid 0x2a) (some sampleFactory)]) (by decide +kernel)
  exact ⟨tables, reachable, passed⟩

end CryptoVaultHub.CoreWallet
