import CryptoVaultHub.Contracts.CloneFactory
import CryptoVaultHub.Encoding.Decoding
import CryptoVaultHub.Encoding.Keccak

/-!
# Calls of the wallet factory

A call names a function by its selector, the first four bytes of the hash of its signature, and
the factory reverts on a selector that it does not have. The signatures that the services write
by hand and those of the contract are fragments of one kind, so that whether they agree is a
matter of the hash.
-/

namespace CryptoVaultHub.Contracts

/-- The machine with its hash. -/
def keccakEvm (ecrecover : List UInt8 → UInt8 → Uint256 → Uint256 → Address) : Evm :=
  ⟨Keccak.keccak256, ecrecover⟩

/-! ## Fragments -/

inductive AbiType where
  | address
  | addresses
  | bytes32
deriving DecidableEq

def AbiType.name : AbiType → List Char
  | .address => "address".toList
  | .addresses => "address[]".toList
  | .bytes32 => "bytes32".toList

/-- A function or an event. -/
structure Fragment where
  name : List Char
  inputs : List AbiType
deriving DecidableEq

namespace Fragment

def signature (fragment : Fragment) : List UInt8 :=
  asciiBytes (fragment.name ++ '(' :: [','].intercalate (fragment.inputs.map AbiType.name) ++
    [')'])

def topicHash (evm : Evm) (fragment : Fragment) : List UInt8 := evm.keccak256 fragment.signature

def selector (evm : Evm) (fragment : Fragment) : List UInt8 := (fragment.topicHash evm).take 4

/-- `encodeFunctionData`. -/
def calldata (evm : Evm) (fragment : Fragment) (arguments : List Abi.Value) : List UInt8 :=
  fragment.selector evm ++ Abi.encode arguments

end Fragment

namespace WalletFactory

def createWallet : Fragment := ⟨"createWallet".toList, [.addresses, .bytes32]⟩

def computeWalletAddress : Fragment :=
  ⟨"computeWalletAddress".toList, [.address, .addresses, .bytes32]⟩

def implementationAddress : Fragment := ⟨"implementationAddress".toList, []⟩

def walletCreated : Fragment := ⟨"WalletCreated".toList, [.address, .addresses]⟩

end WalletFactory

/-! ## Arguments -/

/-- An address in a word, whose other bits are clear. -/
def Address.ofWord (word : Abi.Word) : Option Address :=
  if word.toNat < 2 ^ 160 then some (word.setWidth 160) else none

def decodeAddress (index : Nat) (data : List UInt8) : Option Address :=
  (Abi.decodeWord index data).bind Address.ofWord

def decodeAddresses (index : Nat) (data : List UInt8) : Option (Calldata Address) := do
  let words ← Abi.decodeWords index data
  let addresses ← words.mapM Address.ofWord
  if few : addresses.length < 2 ^ 64 then some ⟨addresses, few⟩ else none

/-- The arguments of `createWallet`. -/
def createWalletArguments (allowedSigners : Calldata Address) (salt : Uint256) :
    List Abi.Value :=
  [.words (allowedSigners.val.map Address.word), .static salt]

/-! ## Dispatch -/

/-- A log, without the contract that it is from, which no service reads. -/
structure Log where
  topics : List (List UInt8)
  data : List UInt8
deriving DecidableEq

inductive CallRevert where
  | unknownSelector
  | malformed
  | clone (error : CloneRevert)
deriving DecidableEq

/-- What a call returns, with the logs that it emits and the wallet that it creates. -/
structure CallResult where
  returnData : List UInt8
  logs : List Log
  wallet : Option Wallet

/-- `emit WalletCreated(wallet, allowedSigners)`. -/
def walletCreatedLog (evm : Evm) (wallet : Address) (allowedSigners : Calldata Address) : Log :=
  ⟨[WalletFactory.walletCreated.topicHash evm],
    Abi.encode [.static wallet.word, .words (allowedSigners.val.map Address.word)]⟩

/-- A call of `CvhWalletFactory`. It has no fallback, and no function of it is payable. -/
def CloneFactory.callWalletFactory (evm : Evm) (factory : CloneFactory) (deployment : Deployment)
    (message : Message) (calldata : List UInt8) : Except CallRevert CallResult :=
  let selector := calldata.take 4
  let arguments := calldata.drop 4
  if message.value ≠ 0 then .error (.clone .nonPayable)
  else if selector = WalletFactory.createWallet.selector evm then
    match decodeAddresses 0 arguments, Abi.decodeWord 1 arguments with
    | some allowedSigners, some salt => do
      let wallet ← (Contracts.createWallet evm factory deployment message allowedSigners
        salt).mapError .clone
      .ok ⟨Abi.encode [.static wallet.address.word],
        [walletCreatedLog evm wallet.address allowedSigners], some wallet⟩
    | _, _ => .error .malformed
  else if selector = WalletFactory.computeWalletAddress.selector evm then
    match decodeAddress 0 arguments, decodeAddresses 1 arguments, Abi.decodeWord 2 arguments with
    | some deployer, some allowedSigners, some salt =>
      .ok ⟨Abi.encode [.static (Contracts.computeWalletAddress evm factory deployer
        allowedSigners salt).word], [], none⟩
    | _, _, _ => .error .malformed
  else if selector = WalletFactory.implementationAddress.selector evm then
    .ok ⟨Abi.encode [.static factory.implementationAddress.word], [], none⟩
  else .error .unknownSelector

/-- A view call through a fragment, with the address that it returns. -/
def CloneFactory.viewAddress (evm : Evm) (factory : CloneFactory) (deployment : Deployment)
    (message : Message) (fragment : Fragment) (arguments : List Abi.Value) : Option Address :=
  match factory.callWalletFactory evm deployment { message with value := 0 }
      (fragment.calldata evm arguments) with
  | .ok result => decodeAddress 0 result.returnData
  | .error _ => none

/-! ## Decoding what the services encode -/

@[simp] theorem Address.ofWord_word (address : Address) :
    Address.ofWord address.word = some address := by
  have bound := address.isLt
  have value : address.word.toNat = address.toNat := by
    rw [Address.word, BitVec.toNat_setWidth, Nat.mod_eq_of_lt (by omega)]
  rw [Address.ofWord, if_pos (by omega)]
  congr 1
  apply BitVec.eq_of_toNat_eq
  rw [BitVec.toNat_setWidth, value, Nat.mod_eq_of_lt bound]

theorem mapM_ofWord (addresses : List Address) :
    (addresses.map Address.word).mapM Address.ofWord = some addresses := by
  induction addresses with
  | nil => rfl
  | cons address rest ih => simp [ih]

theorem decodeAddress_encode (before after : List Abi.Value) (address : Address) :
    decodeAddress before.length (Abi.encode (before ++ .static address.word :: after)) =
      some address := by
  rw [decodeAddress, Abi.decodeWord_encode, Option.bind_some, Address.ofWord_word]

theorem decodeAddresses_encode {before after : List Abi.Value} {addresses : Calldata Address}
    (near : 32 * (before ++ .words (addresses.val.map Address.word) :: after).length +
      (Abi.tails before).length < 2 ^ 64) :
    decodeAddresses before.length
        (Abi.encode (before ++ .words (addresses.val.map Address.word) :: after)) =
      some addresses := by
  have few : (addresses.val.map Address.word).length < 2 ^ 256 := by
    have bound := addresses.property
    rw [List.length_map]
    omega
  have words := Abi.decodeWords_encode near few
  simp only [decodeAddresses, words, Option.bind_eq_bind, Option.bind_some, mapM_ofWord]
  rw [dif_pos addresses.property]

/-! ## The selectors -/

section Selectors

variable (ecrecover : List UInt8 → UInt8 → Uint256 → Uint256 → Address)

theorem topicHash_keccakEvm (fragment : Fragment) :
    fragment.topicHash (keccakEvm ecrecover) = Keccak.keccak256 fragment.signature := rfl

theorem selector_keccakEvm (fragment : Fragment) :
    fragment.selector (keccakEvm ecrecover) = (Keccak.keccak256 fragment.signature).take 4 := rfl

theorem selector_createWallet :
    WalletFactory.createWallet.selector (keccakEvm ecrecover) = [0x71, 0x17, 0xf3, 0xfa] := by
  rw [selector_keccakEvm]
  decide +kernel

theorem selector_computeWalletAddress :
    WalletFactory.computeWalletAddress.selector (keccakEvm ecrecover) =
      [0x09, 0x2f, 0x0a, 0xef] := by
  rw [selector_keccakEvm]
  decide +kernel

theorem selector_implementationAddress :
    WalletFactory.implementationAddress.selector (keccakEvm ecrecover) =
      [0xb9, 0x7a, 0x23, 0x19] := by
  rw [selector_keccakEvm]
  decide +kernel

/-- A selector that is none of the factory's. -/
theorem callWalletFactory_unknown {factory : CloneFactory} {deployment : Deployment}
    {message : Message} {selector : List UInt8} (four : selector.length = 4)
    (unknown : selector ∉ [[0x71, 0x17, 0xf3, 0xfa], [0x09, 0x2f, 0x0a, 0xef],
      [0xb9, 0x7a, 0x23, 0x19]]) (arguments : List UInt8) (free : message.value = 0) :
    factory.callWalletFactory (keccakEvm ecrecover) deployment message (selector ++ arguments) =
      .error .unknownSelector := by
  simp only [List.mem_cons, List.not_mem_nil, or_false, not_or] at unknown
  obtain ⟨notCreate, notCompute, notImplementation⟩ := unknown
  simp only [CloneFactory.callWalletFactory, List.take_left' four, selector_createWallet,
    selector_computeWalletAddress, selector_implementationAddress]
  rw [if_neg (not_not.mpr free), if_neg notCreate, if_neg notCompute, if_neg notImplementation]

/-- A call of `createWallet`. -/
theorem callWalletFactory_createWallet {factory : CloneFactory} {deployment : Deployment}
    {message : Message} {allowedSigners : Calldata Address} {salt : Uint256} {result : CallResult}
    (free : message.value = 0) :
    factory.callWalletFactory (keccakEvm ecrecover) deployment message
        (WalletFactory.createWallet.calldata (keccakEvm ecrecover)
          (createWalletArguments allowedSigners salt)) = .ok result ↔
      ∃ wallet, createWallet (keccakEvm ecrecover) factory deployment message allowedSigners salt =
          .ok wallet ∧
        result = ⟨Abi.encode [.static wallet.address.word],
          [walletCreatedLog (keccakEvm ecrecover) wallet.address allowedSigners], some wallet⟩ := by
  have signers : decodeAddresses 0 (Abi.encode (createWalletArguments allowedSigners salt)) =
      some allowedSigners :=
    @decodeAddresses_encode [] [.static salt] allowedSigners (by simp [Abi.tails])
  have salted : Abi.decodeWord 1 (Abi.encode (createWalletArguments allowedSigners salt)) =
      some salt :=
    Abi.decodeWord_encode [.words (allowedSigners.val.map Address.word)] [] salt
  simp only [CloneFactory.callWalletFactory, Fragment.calldata, selector_createWallet]
  rw [if_neg (not_not.mpr free), List.take_left' (by rfl), if_pos rfl, List.drop_left' (by rfl),
    signers, salted]
  simp only [bind_eq_ok, mapError_eq_ok, Except.ok.injEq, @eq_comm _ result]

/-- A call of `computeWalletAddress`. -/
theorem callWalletFactory_computeWalletAddress (factory : CloneFactory) (deployment : Deployment)
    {message : Message} (deployer : Address) (allowedSigners : Calldata Address) (salt : Uint256)
    (free : message.value = 0) :
    factory.callWalletFactory (keccakEvm ecrecover) deployment message
        (WalletFactory.computeWalletAddress.calldata (keccakEvm ecrecover)
          (.static deployer.word :: createWalletArguments allowedSigners salt)) =
      .ok ⟨Abi.encode [.static (computeWalletAddress (keccakEvm ecrecover) factory deployer
        allowedSigners salt).word], [], none⟩ := by
  have deployed : decodeAddress 0
      (Abi.encode (.static deployer.word :: createWalletArguments allowedSigners salt)) =
      some deployer :=
    decodeAddress_encode [] (createWalletArguments allowedSigners salt) deployer
  have signers : decodeAddresses 1
      (Abi.encode (.static deployer.word :: createWalletArguments allowedSigners salt)) =
      some allowedSigners :=
    @decodeAddresses_encode [.static deployer.word] [.static salt] allowedSigners
      (by simp [Abi.tails, Abi.Value.tail])
  have salted : Abi.decodeWord 2
      (Abi.encode (.static deployer.word :: createWalletArguments allowedSigners salt)) =
      some salt :=
    Abi.decodeWord_encode
      [.static deployer.word, .words (allowedSigners.val.map Address.word)] [] salt
  simp only [CloneFactory.callWalletFactory, Fragment.calldata, selector_createWallet,
    selector_computeWalletAddress]
  rw [if_neg (not_not.mpr free), List.take_left' (by rfl), if_neg (by decide), if_pos rfl,
    List.drop_left' (by rfl), deployed, signers, salted]

end Selectors

end CryptoVaultHub.Contracts
