import CryptoVaultHub.Encoding.Abi

/-!
# The operations a multisig wallet signs

`CvhWalletSimple` executes three kinds of operations. Each hashes the
`abi.encode` of a network identifier and the parameters of its kind; the
identifier is the decimal chain id followed by a suffix for the kind. The
preimages determine the operation (`Operation.preimage_injective`), so a hash
that is taken to be injective commits to one operation only.
-/

namespace CryptoVaultHub.Contracts

abbrev Address := BitVec 160
abbrev Uint256 := Abi.Word

/-- A `calldata` array. Decoding calldata rejects a length of `2 ^ 64` or more. -/
abbrev Calldata (α : Type) := {items : List α // items.length < 2 ^ 64}

/-- The empty `bytes`. -/
def noData : Calldata UInt8 := ⟨[], Nat.two_pow_pos 64⟩

@[simp] theorem noData_val : noData.val = [] := rfl

/-- The zero address. -/
def zeroAddress : Address := 0

/-- An address occupies a word of its own, padded on the left. -/
def Address.word (address : Address) : Abi.Word := address.setWidth 256

theorem Address.word_injective : Function.Injective Address.word := by
  intro left right equal
  have values := congrArg BitVec.toNat equal
  apply BitVec.eq_of_toNat_eq
  have leftBound := left.isLt
  have rightBound := right.isLt
  simp only [Address.word, BitVec.toNat_setWidth] at values
  omega

/-! ## Network identifiers -/

/-- The bytes of a text of ASCII characters. -/
def asciiBytes (text : List Char) : List UInt8 := text.map fun char => UInt8.ofNat char.toNat

/-- `Strings.toString`: the decimal digits of a number. -/
def decimal (value : Nat) : List UInt8 := asciiBytes (Nat.toDigits 10 value)

def getNetworkId (chainid : Uint256) : List UInt8 := decimal chainid.toNat

def getTokenNetworkId (chainid : Uint256) : List UInt8 :=
  getNetworkId chainid ++ asciiBytes "-ERC20".toList

def getBatchNetworkId (chainid : Uint256) : List UInt8 :=
  getNetworkId chainid ++ asciiBytes "-Batch".toList

/-- The bytes of the characters `0` to `9`. -/
def isDigitByte (byte : UInt8) : Bool := 48 ≤ byte && byte ≤ 57

private theorem digit_char {value : Nat} {char : Char} (member : char ∈ Nat.toDigits 10 value) :
    48 ≤ char.toNat ∧ char.toNat ≤ 57 := by
  have digit := Nat.isDigit_of_mem_toDigits (by omega) (by omega) member
  simp only [Char.isDigit, Bool.and_eq_true, decide_eq_true_eq, UInt32.le_iff_toNat_le] at digit
  exact digit

theorem decimal_digits {value : Nat} {byte : UInt8} (member : byte ∈ decimal value) :
    isDigitByte byte = true := by
  obtain ⟨char, inDigits, rfl⟩ := List.mem_map.mp member
  obtain ⟨low, high⟩ := digit_char inDigits
  have small : char.toNat % 256 = char.toNat := by omega
  simp [isDigitByte, UInt8.le_iff_toNat_le, small, low, high]

/-- The decimal digits determine the number. -/
theorem decimal_injective : Function.Injective decimal := by
  have readBack : ∀ value, (decimal value).map (fun byte => Char.ofNat byte.toNat) =
      Nat.toDigits 10 value := by
    intro value
    rw [decimal, asciiBytes, List.map_map]
    conv => rhs; rw [← List.map_id (Nat.toDigits 10 value)]
    apply List.map_congr_left
    intro char member
    obtain ⟨low, high⟩ := digit_char member
    have small : char.toNat % 256 = char.toNat := by omega
    simp [small]
  intro left right equal
  have digits : Nat.toDigits 10 left = Nat.toDigits 10 right := by
    rw [← readBack, ← readBack, equal]
  have values := congrArg (fun digits => Nat.ofDigitChars 10 digits 0) digits
  simpa only [Nat.ofDigitChars_ten_toDigits] using values

theorem length_decimal_le (chainid : Uint256) : (decimal chainid.toNat).length ≤ 78 := by
  have bound := chainid.isLt
  rw [decimal, asciiBytes, List.length_map, Nat.length_toDigits_le_iff (by omega) (by omega)]
  omega

/-! ## Operations -/

/-- An operation of a wallet, with the chain it is on and the wallet it is of. -/
inductive Operation where
  | native (chainid : Uint256) (wallet toAddress : Address) (value : Uint256)
      (data : Calldata UInt8) (expireTime sequenceId : Uint256)
  | token (chainid : Uint256) (wallet toAddress : Address) (value : Uint256)
      (tokenContractAddress : Address) (expireTime sequenceId : Uint256)
  | batch (chainid : Uint256) (wallet : Address) (recipients : Calldata Address)
      (values : Calldata Uint256) (expireTime sequenceId : Uint256)
deriving DecidableEq

namespace Operation

def chainid : Operation → Uint256
  | .native chainid .. | .token chainid .. | .batch chainid .. => chainid

def expireTime : Operation → Uint256
  | .native _ _ _ _ _ expireTime _ | .token _ _ _ _ _ expireTime _
  | .batch _ _ _ _ expireTime _ => expireTime

def sequenceId : Operation → Uint256
  | .native _ _ _ _ _ _ sequenceId | .token _ _ _ _ _ _ sequenceId
  | .batch _ _ _ _ _ sequenceId => sequenceId

/-- The network identifier of the kind of an operation. -/
def networkId : Operation → List UInt8
  | .native chainid .. => getNetworkId chainid
  | .token chainid .. => getTokenNetworkId chainid
  | .batch chainid .. => getBatchNetworkId chainid

/-- The arguments of the `abi.encode` call of each kind. -/
def arguments : Operation → List Abi.Value
  | .native chainid wallet toAddress value data expireTime sequenceId =>
    [.bytes (getNetworkId chainid), .static wallet.word, .static toAddress.word, .static value,
      .bytes data.val, .static expireTime, .static sequenceId]
  | .token chainid wallet toAddress value tokenContractAddress expireTime sequenceId =>
    [.bytes (getTokenNetworkId chainid), .static wallet.word, .static toAddress.word,
      .static value, .static tokenContractAddress.word, .static expireTime, .static sequenceId]
  | .batch chainid wallet recipients values expireTime sequenceId =>
    [.bytes (getBatchNetworkId chainid), .static wallet.word,
      .words (recipients.val.map Address.word), .words values.val, .static expireTime,
      .static sequenceId]

/-- The bytes whose hash the second signer signs. -/
def preimage (operation : Operation) : List UInt8 := Abi.encode operation.arguments

/-- `operationHash`, for a hash function on byte strings. -/
def hash (keccak256 : List UInt8 → List UInt8) (operation : Operation) : List UInt8 :=
  keccak256 operation.preimage

/-! ## Injectivity of the preimages -/

/-- What the network identifier of a kind adds to the chain id. -/
def suffix : Operation → List UInt8
  | .native .. => []
  | .token .. => asciiBytes "-ERC20".toList
  | .batch .. => asciiBytes "-Batch".toList

theorem networkId_eq (operation : Operation) :
    operation.networkId = getNetworkId operation.chainid ++ operation.suffix := by
  cases operation <;> simp [networkId, chainid, suffix, getTokenNetworkId, getBatchNetworkId]

theorem length_networkId_le (operation : Operation) : operation.networkId.length ≤ 84 := by
  have digits := length_decimal_le operation.chainid
  have suffixLength : operation.suffix.length ≤ 6 := by
    cases operation <;> simp only [suffix] <;> decide
  rw [networkId_eq, List.length_append, getNetworkId]
  omega

/-- Calldata bounds keep every offset and length of an encoding within a word. -/
theorem length_preimage_lt (operation : Operation) : operation.preimage.length < 2 ^ 256 := by
  have network := length_networkId_le operation
  have networkTail := Abi.length_tail_bytes_le operation.networkId
  rw [preimage, Abi.length_encode]
  cases operation with
  | native _ _ _ _ data _ _ =>
    have dataTail := Abi.length_tail_bytes_le data.val
    have bounded := data.property
    simp [arguments, Abi.tails, networkId, Abi.Value.tail] at networkTail dataTail network ⊢
    omega
  | token =>
    simp [arguments, Abi.tails, networkId, Abi.Value.tail] at networkTail network ⊢
    omega
  | batch _ _ recipients values _ _ =>
    have recipientsBounded := recipients.property
    have valuesBounded := values.property
    simp [arguments, Abi.tails, networkId, Abi.Value.tail] at networkTail network ⊢
    omega

/-- The digits of the chain id end where the suffix begins. -/
private theorem networkId_digits (operation : Operation) :
    operation.networkId.takeWhile isDigitByte = getNetworkId operation.chainid := by
  have stops : operation.suffix.takeWhile isDigitByte = [] := by
    cases operation <;> simp only [suffix] <;> decide
  rw [networkId_eq, getNetworkId,
    List.takeWhile_append_of_pos fun _ member => decimal_digits member, stops, List.append_nil]

/-- The layout of the arguments of an operation. -/
def layout (operation : Operation) : List Abi.Kind := operation.arguments.map Abi.Value.kind

/-- The network identifier determines the chain and, by its suffix, the kind. -/
theorem networkId_determines {left right : Operation} (equal : left.networkId = right.networkId) :
    left.chainid = right.chainid ∧ left.suffix = right.suffix := by
  have digits := congrArg (List.takeWhile isDigitByte) equal
  rw [networkId_digits, networkId_digits] at digits
  have sameChain : left.chainid = right.chainid :=
    BitVec.eq_of_toNat_eq (decimal_injective digits)
  refine ⟨sameChain, ?_⟩
  rw [networkId_eq, networkId_eq, sameChain] at equal
  exact List.append_cancel_left equal

/-- The suffix distinguishes the three kinds, whose layouts also differ. -/
theorem layout_eq_of_suffix {left right : Operation} (equal : left.suffix = right.suffix) :
    left.layout = right.layout := by
  cases left <;> cases right <;>
    first
    | rfl
    | exact absurd equal (by simp only [suffix]; decide)

/-- The first slot of every preimage holds the network identifier. -/
theorem preimage_networkId {left right : Operation} (equal : left.preimage = right.preimage) :
    left.networkId = right.networkId := by
  have first : ∀ operation : Operation,
      operation.arguments[0]? = some (.bytes operation.networkId) := by
    intro operation
    cases operation <;> rfl
  have same := Abi.encode_slot equal (length_preimage_lt left) (first left) (first right) rfl
  simpa using same

/-- Equal argument lists of one kind come from one operation. -/
theorem eq_of_arguments {left right : Operation} (arguments : left.arguments = right.arguments)
    (chain : left.chainid = right.chainid) (suffix : left.suffix = right.suffix) :
    left = right := by
  cases left <;> cases right
  case native.native =>
    simp only [Operation.arguments, List.cons.injEq, Abi.Value.static.injEq,
      Abi.Value.bytes.injEq, Address.word_injective.eq_iff] at arguments
    obtain ⟨-, rfl, rfl, rfl, sameData, rfl, rfl, -⟩ := arguments
    obtain rfl := Subtype.ext sameData
    exact congrArg (fun chainid => native chainid _ _ _ _ _ _) chain
  case token.token =>
    simp only [Operation.arguments, List.cons.injEq, Abi.Value.static.injEq,
      Address.word_injective.eq_iff] at arguments
    obtain ⟨-, rfl, rfl, rfl, rfl, rfl, rfl, -⟩ := arguments
    exact congrArg (fun chainid => token chainid _ _ _ _ _ _) chain
  case batch.batch =>
    simp only [Operation.arguments, List.cons.injEq, Abi.Value.static.injEq,
      Abi.Value.words.injEq, Address.word_injective.eq_iff,
      List.map_inj_right fun _ _ same => Address.word_injective same] at arguments
    obtain ⟨-, rfl, sameRecipients, sameValues, rfl, rfl, -⟩ := arguments
    obtain rfl := Subtype.ext sameRecipients
    obtain rfl := Subtype.ext sameValues
    exact congrArg (fun chainid => batch chainid _ _ _ _ _) chain
  all_goals exact absurd suffix (by simp only [Operation.suffix]; decide)

/-- Equal preimages come from one operation: the identifier in the first slot
fixes the kind and with it the layout, and every other slot is read back. -/
theorem preimage_determines {left right : Operation} (equal : left.preimage = right.preimage) :
    left = right := by
  obtain ⟨chain, suffix⟩ := networkId_determines (preimage_networkId equal)
  have arguments := Abi.encode_injective equal (length_preimage_lt left)
    (layout_eq_of_suffix suffix)
  exact eq_of_arguments arguments chain suffix

/-- The three preimage formats together are injective over all kinds, chains,
wallets and parameters. -/
theorem preimage_injective : Function.Injective preimage :=
  fun _ _ equal => preimage_determines equal

/-- A hash function without collisions commits to the operation. -/
theorem hash_injective {keccak256 : List UInt8 → List UInt8}
    (injective : Function.Injective keccak256) : Function.Injective (hash keccak256) :=
  fun _ _ equal => preimage_determines (injective equal)

end Operation

end CryptoVaultHub.Contracts
