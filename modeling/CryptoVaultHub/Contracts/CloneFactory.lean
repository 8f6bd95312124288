import CryptoVaultHub.Contracts.Forwarder
import CryptoVaultHub.Encoding.Memory

/-!
# The clone factories

`CvhForwarderFactory` and `CvhWalletFactory` deploy clones of their implementation with
CREATE2 and predict their addresses. `createClone` assembles the init code in memory by three
stores of words that overlap; `computeCloneAddress` packs the same bytes. An address is the
low 160 bits of a hash, so that different arguments give different addresses unless
the hash collides.
-/

namespace CryptoVaultHub.Contracts

inductive CloneRevert where
  | cloneCreationFailed
  | forwarder (error : ForwarderRevert)
  | wallet (error : Revert)
  | nonPayable
deriving DecidableEq

/-- A factory, with the implementation that its clones delegate to. -/
structure CloneFactory where
  address : Address
  implementationAddress : Address
deriving DecidableEq

/-! ## CREATE2 -/

/-- `address(uint160(uint256(digest)))`. -/
def digestAddress (digest : List UInt8) : Address :=
  BitVec.ofNat 160 (Abi.readBigEndian digest)

/-- `bytes20`. -/
def bytes20 (address : Address) : List UInt8 := Abi.bigEndian 20 address.toNat

/-- What the address of a contract is hashed from. -/
def create2Preimage (evm : Evm) (creator : Address) (salt initCode : List UInt8) : List UInt8 :=
  [0xff] ++ bytes20 creator ++ salt ++ evm.keccak256 initCode

/-- The address at which `CREATE2` places a contract. -/
def create2Address (evm : Evm) (creator : Address) (salt initCode : List UInt8) : Address :=
  digestAddress (evm.keccak256 (create2Preimage evm creator salt initCode))

/-- `CREATE2` with the init code at a position of the memory. It returns zero if the address is
taken, or for want of gas or stack. -/
def create2 (evm : Evm) (occupied : Address → Bool) (enough : Bool) (creator : Address)
    (memory : Memory) (offset length : Nat) (salt : List UInt8) : Address :=
  let result := create2Address evm creator salt (memory.slice offset length)
  if enough && !occupied result then result else zeroAddress

/-! ## Clones -/

/-- `0x3d602d80600a3d3981f3363d3d373d3d3d363d73` and `0x5af43d82803e903d91602b57fd5bf3`. -/
def clonePrefix : List UInt8 :=
  [0x3d, 0x60, 0x2d, 0x80, 0x60, 0x0a, 0x3d, 0x39, 0x81, 0xf3,
    0x36, 0x3d, 0x3d, 0x37, 0x3d, 0x3d, 0x3d, 0x36, 0x3d, 0x73]

def cloneSuffix : List UInt8 :=
  [0x5a, 0xf4, 0x3d, 0x82, 0x80, 0x3e, 0x90, 0x3d, 0x91, 0x60, 0x2b, 0x57, 0xfd, 0x5b, 0xf3]

/-- The three stores of `createClone`; a `bytes20` on the stack has its bytes on the left. -/
def assembleClone (memory : Memory) (clone : Nat) (target : Address) : Memory :=
  let first := memory.mstore clone
    0x3d602d80600a3d3981f3363d3d373d3d3d363d73000000000000000000000000
  let second := first.mstore (clone + 0x14) (BitVec.ofNat 256 (target.toNat * 256 ^ 12))
  second.mstore (clone + 0x28)
    0x5af43d82803e903d91602b57fd5bf30000000000000000000000000000000000

def createClone (evm : Evm) (factory : CloneFactory) (occupied : Address → Bool) (enough : Bool)
    (memory : Memory) (target : Address) (salt : List UInt8) : Except CloneRevert Address :=
  let clone := (memory.mload 0x40).toNat
  let result := create2 evm occupied enough factory.address
    (assembleClone memory clone target) clone 0x37 salt
  if result = zeroAddress then .error .cloneCreationFailed else .ok result

def computeCloneAddress (evm : Evm) (factory : CloneFactory) (target : Address)
    (salt : List UInt8) : Address :=
  let bytecode := clonePrefix ++ bytes20 target ++ cloneSuffix
  digestAddress (evm.keccak256
    ([0xff] ++ bytes20 factory.address ++ salt ++ evm.keccak256 bytecode))

/-! ## The factories -/

/-- The arguments that the salt of a forwarder is hashed from. -/
structure ForwarderArguments where
  deployer : Address
  parent : Address
  feeAddress : Address
  salt : Uint256
deriving DecidableEq

def ForwarderArguments.encode (arguments : ForwarderArguments) : List UInt8 :=
  Abi.encode [.static arguments.deployer.word, .static arguments.parent.word,
    .static arguments.feeAddress.word, .static arguments.salt]

/-- The arguments that the salt of a wallet is hashed from. -/
structure WalletArguments where
  deployer : Address
  allowedSigners : Calldata Address
  salt : Uint256
deriving DecidableEq

def WalletArguments.encode (arguments : WalletArguments) : List UInt8 :=
  Abi.encode [.static arguments.deployer.word,
    .words (arguments.allowedSigners.val.map Address.word), .static arguments.salt]

/-- Where a clone can be placed, what is in the memory, and whether the parent takes the balance
that the address has already. -/
structure Deployment where
  occupied : Address → Bool
  enough : Bool
  memory : Memory
  balance : Nat
  flushed : Bool

def createForwarder (evm : Evm) (factory : CloneFactory) (deployment : Deployment)
    (message : Message) (parent feeAddress : Address) (salt : Uint256)
    (autoFlush721 autoFlush1155 : Bool) : Except CloneRevert Forwarder :=
  if message.value ≠ 0 then .error .nonPayable
  else do
    let finalSalt := evm.keccak256
      (ForwarderArguments.mk message.sender parent feeAddress salt).encode
    let forwarder ← createClone evm factory deployment.occupied deployment.enough
      deployment.memory factory.implementationAddress finalSalt
    let initialized ← ((Forwarder.clone forwarder).init
      { message with sender := factory.address } parent feeAddress autoFlush721
      autoFlush1155).mapError .forwarder
    if deployment.balance ≠ 0 ∧ deployment.flushed = false then .error (.forwarder .flushFailed)
    else .ok initialized

def computeForwarderAddress (evm : Evm) (factory : CloneFactory) (deployer parent
    feeAddress : Address) (salt : Uint256) : Address :=
  let finalSalt := evm.keccak256 (ForwarderArguments.mk deployer parent feeAddress salt).encode
  computeCloneAddress evm factory factory.implementationAddress finalSalt

def createWallet (evm : Evm) (factory : CloneFactory) (deployment : Deployment)
    (message : Message) (allowedSigners : Calldata Address) (salt : Uint256) :
    Except CloneRevert Wallet :=
  if message.value ≠ 0 then .error .nonPayable
  else do
    let finalSalt := evm.keccak256 (WalletArguments.mk message.sender allowedSigners salt).encode
    let wallet ← createClone evm factory deployment.occupied deployment.enough
      deployment.memory factory.implementationAddress finalSalt
    ((Wallet.clone wallet).init { message with sender := factory.address }
      allowedSigners).mapError .wallet

def computeWalletAddress (evm : Evm) (factory : CloneFactory) (deployer : Address)
    (allowedSigners : Calldata Address) (salt : Uint256) : Address :=
  let finalSalt := evm.keccak256 (WalletArguments.mk deployer allowedSigners salt).encode
  computeCloneAddress evm factory factory.implementationAddress finalSalt

/-! ## The init code -/

@[simp] theorem length_bytes20 (address : Address) : (bytes20 address).length = 0x14 :=
  Abi.length_bigEndian 20 address.toNat

theorem bytes20_injective : Function.Injective bytes20 := by
  intro left right equal
  have leftFits : left.toNat < 256 ^ 20 := left.isLt
  have rightFits : right.toNat < 256 ^ 20 := right.isLt
  exact BitVec.eq_of_toNat_eq (Abi.bigEndian_injective leftFits rightFits equal)

/-- The word of a `bytes20` begins with the address. -/
theorem slot_bytes20 (target : Address) :
    (Abi.slot (BitVec.ofNat 256 (target.toNat * 256 ^ 12)).toNat).take 0x14 = bytes20 target := by
  have bound := target.isLt
  have fits : target.toNat * 256 ^ 12 < 2 ^ 256 := by omega
  rw [BitVec.toNat_ofNat, Nat.mod_eq_of_lt fits, Abi.slot, Abi.bigEndian_add 20 12]
  rw [Nat.mul_div_cancel _ (by decide)]
  exact List.take_left' (Abi.length_bigEndian 20 _)

/-- The memory of `createClone` holds the init code that `computeCloneAddress` packs. -/
theorem slice_assembleClone (memory : Memory) (clone : Nat) (target : Address) :
    (assembleClone memory clone target).slice clone 0x37 =
      clonePrefix ++ bytes20 target ++ cloneSuffix := by
  have parts : (0x37 : Nat) = 0x14 + (0x14 + 0xf) := rfl
  rw [parts, Memory.slice_add, Memory.slice_add, ← List.append_assoc]
  simp only [assembleClone, Memory.mstore]
  rw [Memory.slice_store_of_le (by omega), Memory.slice_store_of_le (by omega),
    Memory.slice_store _ _ (by simp)]
  rw [Memory.slice_store_of_le (by omega), Memory.slice_store _ _ (by simp), slot_bytes20]
  rw [Nat.add_assoc, Memory.slice_store _ _ (by simp)]
  rfl

/-! ## Placing and predicting -/

@[simp] theorem mapError_eq_ok {ε ζ α : Type} {outcome : Except ε α} {convert : ε → ζ}
    {result : α} : outcome.mapError convert = .ok result ↔ outcome = .ok result := by
  cases outcome <;> simp [Except.mapError]

theorem create2Address_assembleClone (evm : Evm) (factory : CloneFactory) (memory : Memory)
    (clone : Nat) (target : Address) (salt : List UInt8) :
    create2Address evm factory.address salt ((assembleClone memory clone target).slice clone 0x37) =
      computeCloneAddress evm factory target salt := by
  rw [slice_assembleClone]
  rfl

variable {evm : Evm} {factory : CloneFactory}

theorem createClone_ok {occupied : Address → Bool} {enough : Bool} {memory : Memory}
    {target result : Address} {salt : List UInt8}
    (created : createClone evm factory occupied enough memory target salt = .ok result) :
    result = computeCloneAddress evm factory target salt ∧ occupied result = false := by
  rw [createClone, create2, create2Address_assembleClone] at created
  by_cases placed : (enough && !occupied (computeCloneAddress evm factory target salt)) = true
  · rw [if_pos placed] at created
    simp only [Bool.and_eq_true, Bool.not_eq_true'] at placed
    split at created
    · exact absurd created (by simp)
    · obtain rfl : computeCloneAddress evm factory target salt = result := by simpa using created
      exact ⟨rfl, placed.2⟩
  · rw [if_neg placed, if_pos rfl] at created
    exact absurd created (by simp)

variable {message : Message} {autoFlush721 autoFlush1155 : Bool}

theorem Forwarder.init_address {forwarder initialized : Forwarder}
    {parentAddress feeAddress : Address}
    (ran : forwarder.init message parentAddress feeAddress autoFlush721 autoFlush1155 =
      .ok initialized) : initialized.address = forwarder.address := by
  simp only [Forwarder.init, bind_eq_ok, pure_eq_ok] at ran
  obtain ⟨_, _, _, _, _, _, _, _, rfl⟩ := ran
  rfl

theorem Wallet.addSigners_address {wallet filled : Wallet} {allowed : List Address}
    (added : wallet.addSigners allowed = .ok filled) : filled.address = wallet.address := by
  induction allowed generalizing wallet with
  | nil =>
    cases added
    rfl
  | cons signer rest ih =>
    simp only [Wallet.addSigners] at added
    split at added
    · cases added
    · split at added
      · cases added
      · rw [ih added]

theorem Wallet.init_address {wallet initialized : Wallet} {allowedSigners : Calldata Address}
    (ran : wallet.init message allowedSigners = .ok initialized) :
    initialized.address = wallet.address := by
  simp only [Wallet.init, bind_eq_ok, pure_eq_ok] at ran
  obtain ⟨_, _, _, _, _, _, filled, added, rfl⟩ := ran
  have kept := addSigners_address added
  exact kept

variable {deployment : Deployment}

/-- A forwarder is created where it was predicted for the caller. -/
theorem createForwarder_ok {parent feeAddress : Address} {salt : Uint256} {forwarder : Forwarder}
    (created : createForwarder evm factory deployment message parent feeAddress salt
      autoFlush721 autoFlush1155 = .ok forwarder) :
    forwarder.address =
      computeForwarderAddress evm factory message.sender parent feeAddress salt := by
  rw [createForwarder] at created
  split at created
  · exact absurd created (by simp)
  · simp only [bind_eq_ok, mapError_eq_ok] at created
    obtain ⟨clone, placed, initialized, ran, flushed⟩ := created
    split at flushed
    · exact absurd flushed (by simp)
    · obtain rfl : initialized = forwarder := by simpa using flushed
      rw [Forwarder.init_address ran]
      exact (createClone_ok placed).1

theorem createForwarder_parent {parent feeAddress : Address} {salt : Uint256}
    {forwarder : Forwarder}
    (created : createForwarder evm factory deployment message parent feeAddress salt
      autoFlush721 autoFlush1155 = .ok forwarder) : forwarder.parentAddress = parent := by
  rw [createForwarder] at created
  split at created
  · exact absurd created (by simp)
  · simp only [bind_eq_ok, mapError_eq_ok] at created
    obtain ⟨clone, _, initialized, ran, flushed⟩ := created
    split at flushed
    · exact absurd flushed (by simp)
    · obtain rfl : initialized = forwarder := by simpa using flushed
      simp only [Forwarder.init, bind_eq_ok, pure_eq_ok] at ran
      obtain ⟨_, _, _, _, _, _, _, _, rfl⟩ := ran
      rfl

/-- A wallet is created where it was predicted for the caller. -/
theorem createWallet_ok {allowedSigners : Calldata Address} {salt : Uint256} {wallet : Wallet}
    (created : createWallet evm factory deployment message allowedSigners salt = .ok wallet) :
    wallet.address = computeWalletAddress evm factory message.sender allowedSigners salt := by
  rw [createWallet] at created
  split at created
  · exact absurd created (by simp)
  · simp only [bind_eq_ok, mapError_eq_ok] at created
    obtain ⟨clone, placed, ran⟩ := created
    rw [Wallet.init_address ran]
    exact (createClone_ok placed).1

/-! ## Different arguments -/

/-- Two inputs that a function does not tell apart. -/
def Collides {α β : Type} (function : α → β) (left right : α) : Prop :=
  left ≠ right ∧ function left = function right

theorem ForwarderArguments.encode_injective : Function.Injective ForwarderArguments.encode := by
  intro left right equal
  have values := Abi.encode_injective equal (by simp [Abi.length_encode, Abi.tails, Abi.Value.tail])
    rfl
  simp only [List.cons.injEq, Abi.Value.static.injEq, Address.word_injective.eq_iff] at values
  obtain ⟨deployer, parent, feeAddress, salt, -⟩ := values
  cases left
  cases right
  simp_all

theorem WalletArguments.encode_injective : Function.Injective WalletArguments.encode := by
  intro left right equal
  have bounded : left.encode.length < 2 ^ 256 := by
    have few := left.allowedSigners.property
    simp only [WalletArguments.encode, Abi.length_encode, Abi.tails, Abi.Value.tail,
      List.flatMap_cons, List.flatMap_nil, List.length_append, Abi.length_slot,
      Abi.length_encodeWords, List.length_map, List.length_cons, List.length_nil]
    omega
  have values := Abi.encode_injective equal bounded rfl
  simp only [List.cons.injEq, Abi.Value.static.injEq, Abi.Value.words.injEq,
    Address.word_injective.eq_iff, (List.map_injective_iff.mpr Address.word_injective).eq_iff]
    at values
  obtain ⟨deployer, allowedSigners, salt, -⟩ := values
  cases left
  cases right
  simp_all [Subtype.ext_iff]

/-- What the address of a clone is hashed from. -/
def clonePreimage (evm : Evm) (factory : CloneFactory) (arguments : List UInt8) : List UInt8 :=
  create2Preimage evm factory.address (evm.keccak256 arguments)
    (clonePrefix ++ bytes20 factory.implementationAddress ++ cloneSuffix)

/-- Clones at one address come from the same arguments, unless the hash collides on the
arguments or its last 160 bits do on what the address is made of. -/
theorem clonePreimage_address {left right : List UInt8}
    (equal : computeCloneAddress evm factory factory.implementationAddress (evm.keccak256 left) =
      computeCloneAddress evm factory factory.implementationAddress (evm.keccak256 right)) :
    left = right ∨ Collides evm.keccak256 left right ∨
      Collides (digestAddress ∘ evm.keccak256) (clonePreimage evm factory left)
        (clonePreimage evm factory right) := by
  by_cases same : left = right
  · exact .inl same
  by_cases salts : evm.keccak256 left = evm.keccak256 right
  · exact .inr (.inl ⟨same, salts⟩)
  refine .inr (.inr ⟨?_, equal⟩)
  intro preimages
  simp only [clonePreimage, create2Preimage, List.append_assoc, List.append_cancel_left_eq,
    List.append_cancel_right_eq] at preimages
  exact salts preimages

/-- A clone is placed where the factory predicts it for the caller, over the init code that is
hashed for the prediction, and other arguments have another address, unless the hash
collides. -/
theorem clone_addresses (evm : Evm) (factory : CloneFactory) :
    (∀ (memory : Memory) (clone : Nat) (target : Address),
      (assembleClone memory clone target).slice clone 0x37 =
        clonePrefix ++ bytes20 target ++ cloneSuffix) ∧
    (∀ (deployment : Deployment) (message : Message) (parent feeAddress : Address)
        (salt : Uint256) (autoFlush721 autoFlush1155 : Bool) (forwarder : Forwarder),
      createForwarder evm factory deployment message parent feeAddress salt autoFlush721
          autoFlush1155 = .ok forwarder →
        forwarder.address =
          computeForwarderAddress evm factory message.sender parent feeAddress salt) ∧
    (∀ (deployment : Deployment) (message : Message) (allowedSigners : Calldata Address)
        (salt : Uint256) (wallet : Wallet),
      createWallet evm factory deployment message allowedSigners salt = .ok wallet →
        wallet.address = computeWalletAddress evm factory message.sender allowedSigners salt) ∧
    (∀ left right : ForwarderArguments, left ≠ right →
      computeForwarderAddress evm factory left.deployer left.parent left.feeAddress left.salt ≠
          computeForwarderAddress evm factory right.deployer right.parent right.feeAddress
            right.salt ∨
        Collides evm.keccak256 left.encode right.encode ∨
        Collides (digestAddress ∘ evm.keccak256) (clonePreimage evm factory left.encode)
          (clonePreimage evm factory right.encode)) ∧
    (∀ left right : WalletArguments, left ≠ right →
      computeWalletAddress evm factory left.deployer left.allowedSigners left.salt ≠
          computeWalletAddress evm factory right.deployer right.allowedSigners right.salt ∨
        Collides evm.keccak256 left.encode right.encode ∨
        Collides (digestAddress ∘ evm.keccak256) (clonePreimage evm factory left.encode)
          (clonePreimage evm factory right.encode)) := by
  refine ⟨slice_assembleClone, ?_, ?_, ?_, ?_⟩
  · intro deployment message parent feeAddress salt autoFlush721 autoFlush1155 forwarder created
    exact createForwarder_ok created
  · intro deployment message allowedSigners salt wallet created
    exact createWallet_ok created
  · intro left right different
    refine Decidable.or_iff_not_imp_left.mpr ?_
    intro equal
    have encodings := mt (fun same => ForwarderArguments.encode_injective same) different
    exact (clonePreimage_address (not_not.mp equal)).resolve_left encodings
  · intro left right different
    refine Decidable.or_iff_not_imp_left.mpr ?_
    intro equal
    have encodings := mt (fun same => WalletArguments.encode_injective same) different
    exact (clonePreimage_address (not_not.mp equal)).resolve_left encodings

/-- A hash for the sample, which reads the bytes as digits. -/
def digitEvm : Evm :=
  ⟨fun data => Abi.slot (data.foldl (fun value byte => value * 257 + byte.toNat + 1) 0),
    fun _ _ _ _ => 3⟩

def sampleFactory : CloneFactory := ⟨0xfac, 0x1e⟩

def sampleDeployment : Deployment := ⟨fun _ => false, true, fun _ => 0, 0, true⟩

def sampleMessage : Message := ⟨0xd, 0, 1, 100⟩

def sampleClone : Forwarder :=
  ⟨computeForwarderAddress digitEvm sampleFactory 0xd 0xa 0xf 7, true, 0xa, 0xf, true, true, false⟩

def sampleSigners : Calldata Address := ⟨[1, 2, 3], by decide⟩

theorem clone_addresses_sample :
    sampleClone.address =
      computeForwarderAddress digitEvm sampleFactory sampleMessage.sender 0xa 0xf 7 ∧
    (∃ wallet, createWallet digitEvm sampleFactory sampleDeployment sampleMessage sampleSigners 7 =
        .ok wallet ∧
      wallet.address =
        computeWalletAddress digitEvm sampleFactory sampleMessage.sender sampleSigners 7) ∧
    (computeForwarderAddress digitEvm sampleFactory 0xd 0xa 0xf 7 ≠
        computeForwarderAddress digitEvm sampleFactory 0xd 0xa 0xf 8 ∨
      Collides digitEvm.keccak256 (ForwarderArguments.mk 0xd 0xa 0xf 7).encode
        (ForwarderArguments.mk 0xd 0xa 0xf 8).encode ∨
      Collides (digestAddress ∘ digitEvm.keccak256)
        (clonePreimage digitEvm sampleFactory (ForwarderArguments.mk 0xd 0xa 0xf 7).encode)
        (clonePreimage digitEvm sampleFactory (ForwarderArguments.mk 0xd 0xa 0xf 8).encode)) := by
  obtain ⟨-, forwarders, wallets, different, -⟩ := clone_addresses digitEvm sampleFactory
  refine ⟨?_, ?_, ?_⟩
  · exact forwarders sampleDeployment sampleMessage 0xa 0xf 7 true true sampleClone
      (by decide +kernel)
  · have created : (createWallet digitEvm sampleFactory sampleDeployment sampleMessage
        sampleSigners 7).toOption.isSome = true := by decide +kernel
    obtain ⟨wallet, made⟩ := Option.isSome_iff_exists.mp created
    have ran := toOption_eq_some.mp made
    exact ⟨wallet, ran, wallets sampleDeployment sampleMessage sampleSigners 7 wallet ran⟩
  · exact different ⟨0xd, 0xa, 0xf, 7⟩ ⟨0xd, 0xa, 0xf, 8⟩ (by decide)

end CryptoVaultHub.Contracts
