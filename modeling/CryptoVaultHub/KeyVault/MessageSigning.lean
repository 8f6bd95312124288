import CryptoVaultHub.Contracts.WalletSafety
import CryptoVaultHub.Encoding.Hex
import CryptoVaultHub.Encoding.Keccak

/-!
# Signatures of the vault on chain

`SigningService.signMessageHash` signs a digest with ECDSA over secp256k1, moves `s` to the
lower half of its range and prints `r`, `s` and `v` one after the other.
`CvhWalletSimple._recoverSigner` takes the same 65 bytes apart again. The digest is the one
that `applyEthSignedMessagePrefix` computes, and that the wallet computes itself.

The signing function and the precompile are parameters; `EcdsaCorrect` is what their
documentations say of one key and one digest.
-/

namespace CryptoVaultHub.KeyVault.MessageSigning

open Contracts Hex Abi List Option

abbrev Text := List Char

/-! ## Signing -/

/-- The result of `secp256k1.ecdsaSign`. -/
structure EcdsaSignature where
  signature : List UInt8
  recid : Nat

structure MessageSignature where
  r : Text
  s : Text
  v : Nat
  serialized : Text
deriving DecidableEq

def secp256k1N : Nat := 0xFFFFFFFFFFFFFFFFFFFFFFFFFFFFFFFEBAAEDCE6AF48A03BBFD25E8CD0364141

def secp256k1NHalf : Nat := secp256k1N / 2

/-- The low-S normalization; an `s` of the signing function is less than `secp256k1N`. -/
def normalize (s : List UInt8) (v : Nat) : Option (List UInt8 × Nat) := do
  let sBigInt ← readNumber (toHex s)
  if secp256k1NHalf < sBigInt then
    let sNormalized := secp256k1N - sBigInt
    let normalizedHex := padStart 64 '0' (toString16 sNormalized)
    return (fromHex normalizedHex, if v = 27 then 28 else 27)
  return (s, v)

def signMessageHash (ecdsaSign : List UInt8 → List UInt8 → EcdsaSignature)
    (msgHash privateKey : List UInt8) : Option MessageSignature := do
  let ⟨signature, recid⟩ := ecdsaSign msgHash privateKey
  let r := signature.take 32
  let (s, v) ← normalize ((signature.drop 32).take 32) (recid + 27)
  let rHex := padStart 64 '0' (toHex r)
  let sHex := padStart 64 '0' (toHex s)
  let vHex := padStart 2 '0' (toString16 v)
  return {
    r := "0x".toList ++ rHex
    s := "0x".toList ++ sHex
    v
    serialized := "0x".toList ++ rHex ++ sHex ++ vHex }

/-- The buffer `signHash` makes of a text that may begin with `0x`. -/
def hashBytes (hash : Text) : List UInt8 :=
  fromHex (if "0x".toList.isPrefixOf hash then hash.drop 2 else hash)

/-! ## The prefix -/

/-- `solidityPackedKeccak256` of a `string` and a `bytes32`. -/
def solidityPackedKeccak256 (keccak256 : List UInt8 → List UInt8) (text : Text)
    (value : List UInt8) : Option Text :=
  if value.length = 32 then some ("0x".toList ++ toHex (keccak256 (asciiBytes text ++ value)))
  else none

def applyEthSignedMessagePrefix (keccak256 : List UInt8 → List UInt8) (operationHash : Text) :
    Option Text :=
  solidityPackedKeccak256 keccak256
    (Char.ofNat 0x19 :: "Ethereum Signed Message:\n32".toList) (hashBytes operationHash)

/-! ## ECDSA -/

/-- The word that a byte sequence begins with. -/
def word (bytes : List UInt8) : Uint256 := BitVec.ofNat 256 (readSlot bytes)

/-- The `s` of a signature as the signing function returns it. -/
def EcdsaSignature.sValue (made : EcdsaSignature) : Nat :=
  readBigEndian ((made.signature.drop 32).take 32)

/-- ECDSA for one key and one digest: a signature has 64 bytes, its `s` is less than the group
order and its recovery id leads back to the address of the key; so does the other recovery id
with the other `s`. The precompile knows two recovery ids. -/
structure EcdsaCorrect (evm : Evm) (ecdsaSign : List UInt8 → List UInt8 → EcdsaSignature)
    (addressOf : List UInt8 → Address) (digest privateKey : List UInt8) : Prop where
  length : (ecdsaSign digest privateKey).signature.length = 64
  recid : (ecdsaSign digest privateKey).recid < 4
  order : (ecdsaSign digest privateKey).sValue < secp256k1N
  proper : addressOf privateKey ≠ zeroAddress
  recovers : evm.ecrecover digest (UInt8.ofNat ((ecdsaSign digest privateKey).recid + 27))
    (word (ecdsaSign digest privateKey).signature)
    (BitVec.ofNat 256 (ecdsaSign digest privateKey).sValue) = addressOf privateKey
  opposite : ∀ v, (v = 27 ∨ v = 28) →
    evm.ecrecover digest (55 - v) (word (ecdsaSign digest privateKey).signature)
      (BitVec.ofNat 256 (secp256k1N - (ecdsaSign digest privateKey).sValue)) =
    evm.ecrecover digest v (word (ecdsaSign digest privateKey).signature)
      (BitVec.ofNat 256 (ecdsaSign digest privateKey).sValue)
  known : ∀ v r s, v ≠ 27 → v ≠ 28 → evm.ecrecover digest v r s = zeroAddress

/-! ## Texts -/

theorem padStart_of_le {length : Nat} {fill : Char} {text : Text} (long : length ≤ text.length) :
    padStart length fill text = text := by
  rw [padStart, Nat.sub_eq_zero_of_le long, replicate_zero, nil_append]

/-- A buffer of 32 bytes needs no leading zeros. -/
theorem padStart_toHex {bytes : List UInt8} (sized : bytes.length = 32) :
    padStart 64 '0' (toHex bytes) = toHex bytes :=
  padStart_of_le (by rw [length_toHex, sized])

/-- A number below 256 is printed as one byte. -/
theorem padStart_byte {value : Nat} (small : value < 256) :
    padStart 2 '0' (toString16 value) = toHex [UInt8.ofNat value] := by
  have printed := padStart_toString16 1 (by decide) (by simpa using small)
  rw [Nat.mul_one] at printed
  rw [printed, bigEndian, bigEndian, Nat.mod_eq_of_lt small, nil_append]

/-- A text of bytes is read back, with its prefix. -/
@[simp] theorem hashBytes_toHex (bytes : List UInt8) :
    hashBytes ("0x".toList ++ toHex bytes) = bytes := by
  have marked : "0x".toList.isPrefixOf ("0x".toList ++ toHex bytes) = true := by
    rw [List.isPrefixOf_iff_prefix]
    exact prefix_append ..
  rw [hashBytes, if_pos marked]
  exact fromHex_toHex bytes

/-! ## What is signed -/

/-- The vault signs the digest that the wallet recovers the signer from. -/
theorem applyEthSignedMessagePrefix_eq (evm : Evm) {operationHash : List UInt8}
    (sized : operationHash.length = 32) :
    applyEthSignedMessagePrefix evm.keccak256 ("0x".toList ++ toHex operationHash) =
      some ("0x".toList ++ toHex (prefixedHash evm operationHash)) := by
  rw [applyEthSignedMessagePrefix, solidityPackedKeccak256, hashBytes_toHex, if_pos sized]
  rfl

/-! ## Normalization -/

/-- The normalized `s` is in the lower half, and is the old one or its opposite. -/
theorem normalize_ok {s : List UInt8} (sized : s.length = 32)
    (order : readBigEndian s < secp256k1N) (v : Nat) :
    ∃ low recovery, normalize s v = some (low, recovery) ∧ low.length = 32 ∧
      readBigEndian low ≤ secp256k1NHalf ∧
      ((readBigEndian low = readBigEndian s ∧ recovery = v) ∨
        (readBigEndian low = secp256k1N - readBigEndian s ∧
          recovery = if v = 27 then 28 else 27)) := by
  have nonempty : s ≠ [] := by
    rintro rfl
    cases sized
  by_cases high : secp256k1NHalf < readBigEndian s
  · have fits : secp256k1N - readBigEndian s < 256 ^ 32 := by
      have bound : secp256k1N < 256 ^ 32 := by decide
      omega
    have text := padStart_toString16 32 (by decide) fits
    refine ⟨bigEndian 32 (secp256k1N - readBigEndian s), if v = 27 then 28 else 27, ?_,
      length_bigEndian .., ?_, .inr ⟨readBigEndian_bigEndian fits, rfl⟩⟩
    · simp only [normalize, readNumber_toHex nonempty, bind_eq_bind, bind_some,
        if_pos high]
      rw [show (64 : Nat) = 2 * 32 from rfl, text, fromHex_toHex]
      rfl
    · rw [readBigEndian_bigEndian fits]
      have half : secp256k1N = 2 * secp256k1NHalf + 1 := by decide
      omega
  · refine ⟨s, v, ?_, sized, Nat.not_lt.mp high, .inl ⟨rfl, rfl⟩⟩
    simp only [normalize, readNumber_toHex nonempty, bind_eq_bind, bind_some,
      if_neg high]
    rfl

/-! ## The signature on chain -/

/-- What the vault returns for a key is the signature of the account on chain. -/
structure Accepted (evm : Evm) (account : Address) (operationHash : List UInt8)
    (signed : MessageSignature) : Prop where
  length : (hashBytes signed.serialized).length = 65
  layout : hashBytes signed.serialized =
    hashBytes signed.r ++ hashBytes signed.s ++ [UInt8.ofNat signed.v]
  low : readBigEndian (hashBytes signed.s) ≤ secp256k1NHalf
  recovery : signed.v = 27 ∨ signed.v = 28
  recovered : recoverSigner evm operationHash (hashBytes signed.serialized) = .ok account

/-- The fields of 65 bytes. -/
theorem parseSignature_layout {r s : List UInt8} {v : UInt8} (rSized : r.length = 32)
    (sSized : s.length = 32) (proper : v = 27 ∨ v = 28) :
    parseSignature (r ++ s ++ [v]) =
      ⟨v, BitVec.ofNat 256 (readBigEndian r), BitVec.ofNat 256 (readBigEndian s)⟩ := by
  have rRead : readSlot (r ++ s ++ [v]) = readBigEndian r := by
    rw [readSlot, append_assoc, take_left' rSized]
  have sRead : readSlot ((r ++ s ++ [v]).drop 32) = readBigEndian s := by
    rw [readSlot, append_assoc, drop_left' rSized, take_left' sSized]
  have vRead : (r ++ s ++ [v]).drop 64 = [v] :=
    drop_left' (by rw [length_append, rSized, sSized])
  have corrected : ¬ v < 27 := by
    obtain rfl | rfl := proper <;> decide
  simp only [parseSignature, rRead, sRead, vRead, headD_cons, if_neg corrected]

/-- The wallet takes a low signature apart and asks the precompile. -/
theorem recoverSigner_layout {evm : Evm} {operationHash r s : List UInt8} {v : UInt8}
    {account : Address} (rSized : r.length = 32) (sSized : s.length = 32)
    (proper : v = 27 ∨ v = 28) (low : readBigEndian s ≤ secp256k1NHalf)
    (recovers : evm.ecrecover (prefixedHash evm operationHash) v
      (BitVec.ofNat 256 (readBigEndian r)) (BitVec.ofNat 256 (readBigEndian s)) = account)
    (known : account ≠ zeroAddress) :
    recoverSigner evm operationHash (r ++ s ++ [v]) = .ok account := by
  have length : (r ++ s ++ [v]).length = 65 := by
    simp [rSized, sSized]
  have half : maxSValue.toNat = secp256k1NHalf := by decide
  have bound : BitVec.ofNat 256 (readBigEndian s) ≤ maxSValue := by
    rw [BitVec.le_def, half]
    exact (Nat.mod_le ..).trans low
  simp only [recoverSigner, parseSignature_layout rSized sSized proper, recovers, require, length,
    if_pos proper, if_pos bound, if_pos known, if_true]
  rfl

variable {evm : Evm} {ecdsaSign : List UInt8 → List UInt8 → EcdsaSignature}
  {addressOf : List UInt8 → Address} {digest privateKey : List UInt8}

/-- A recovery id that leads back to an account is one of two. -/
theorem EcdsaCorrect.recid_eq (correct : EcdsaCorrect evm ecdsaSign addressOf digest privateKey) :
    (ecdsaSign digest privateKey).recid = 0 ∨ (ecdsaSign digest privateKey).recid = 1 := by
  have bound := correct.recid
  have recovers := correct.recovers
  by_contra other
  obtain high | high : (ecdsaSign digest privateKey).recid = 2 ∨
      (ecdsaSign digest privateKey).recid = 3 := by omega
  all_goals
    rw [high, correct.known _ _ _ (by decide) (by decide)] at recovers
    exact correct.proper recovers.symm

/-- The normalized signature leads back to the account as well. -/
theorem EcdsaCorrect.normalized
    (correct : EcdsaCorrect evm ecdsaSign addressOf digest privateKey) {value recovery : Nat}
    (normal : (value = (ecdsaSign digest privateKey).sValue ∧
        recovery = (ecdsaSign digest privateKey).recid + 27) ∨
      (value = secp256k1N - (ecdsaSign digest privateKey).sValue ∧
        recovery = if (ecdsaSign digest privateKey).recid + 27 = 27 then 28 else 27)) :
    (recovery = 27 ∨ recovery = 28) ∧
      evm.ecrecover digest (UInt8.ofNat recovery)
        (word (ecdsaSign digest privateKey).signature) (BitVec.ofNat 256 value) =
        addressOf privateKey := by
  have recovers := correct.recovers
  obtain ⟨rfl, rfl⟩ | ⟨rfl, rfl⟩ := normal
  · refine ⟨?_, recovers⟩
    obtain zero | one := correct.recid_eq <;> omega
  · obtain zero | one := correct.recid_eq
    · rw [zero] at recovers ⊢
      exact ⟨.inr rfl, (correct.opposite 27 (.inl rfl)).trans recovers⟩
    · rw [one] at recovers ⊢
      exact ⟨.inl rfl, (correct.opposite 28 (.inr rfl)).trans recovers⟩

/-- What the vault prints: `r`, the normalized `s` and `v`. -/
theorem signMessageHash_eq (correct : EcdsaCorrect evm ecdsaSign addressOf digest privateKey) :
    ∃ low recovery, signMessageHash ecdsaSign digest privateKey = some
        { r := "0x".toList ++ toHex ((ecdsaSign digest privateKey).signature.take 32)
          s := "0x".toList ++ toHex low
          v := recovery
          serialized := "0x".toList ++ toHex ((ecdsaSign digest privateKey).signature.take 32 ++
            low ++ [UInt8.ofNat recovery]) } ∧
      low.length = 32 ∧ readBigEndian low ≤ secp256k1NHalf ∧
      (recovery = 27 ∨ recovery = 28) ∧
      evm.ecrecover digest (UInt8.ofNat recovery)
        (word (ecdsaSign digest privateKey).signature) (BitVec.ofNat 256 (readBigEndian low)) =
        addressOf privateKey := by
  have length := correct.length
  have rSized : ((ecdsaSign digest privateKey).signature.take 32).length = 32 := by
    rw [length_take, length]
    rfl
  have sSized : (((ecdsaSign digest privateKey).signature.drop 32).take 32).length = 32 := by
    rw [length_take, length_drop, length]
    rfl
  obtain ⟨low, recovery, normal, lowSized, half, value⟩ :=
    normalize_ok sSized correct.order ((ecdsaSign digest privateKey).recid + 27)
  obtain ⟨proper, recovers⟩ := correct.normalized value
  have byte : recovery < 256 := by omega
  refine ⟨low, recovery, ?_, lowSized, half, proper, recovers⟩
  simp only [signMessageHash, normal, bind_eq_bind, bind_some,
    padStart_toHex rSized, padStart_toHex lowSized, padStart_byte byte, toHex_append,
    append_assoc]
  rfl

/-- Where ECDSA is correct, the vault's signature of a prefixed operation hash is accepted by
the wallet as a signature of the key's account. -/
theorem signature_accepted {operationHash : List UInt8} (sized : operationHash.length = 32)
    (correct : EcdsaCorrect evm ecdsaSign addressOf (prefixedHash evm operationHash) privateKey) :
    ∃ prefixed signed,
      applyEthSignedMessagePrefix evm.keccak256 ("0x".toList ++ toHex operationHash) =
        some prefixed ∧
      signMessageHash ecdsaSign (hashBytes prefixed) privateKey = some signed ∧
      Accepted evm (addressOf privateKey) operationHash signed := by
  obtain ⟨low, recovery, signs, lowSized, half, proper, recovers⟩ := signMessageHash_eq correct
  have read := hashBytes_toHex (prefixedHash evm operationHash)
  rw [← congrArg (fun digest => signMessageHash ecdsaSign digest privateKey) read] at signs
  refine ⟨_, _, applyEthSignedMessagePrefix_eq evm sized, signs, ?_⟩
  have rSized : ((ecdsaSign (prefixedHash evm operationHash) privateKey).signature.take
      32).length = 32 := by
    rw [length_take, correct.length]
    rfl
  have byte : UInt8.ofNat recovery = 27 ∨ UInt8.ofNat recovery = 28 := by
    obtain rfl | rfl := proper
    · exact .inl rfl
    · exact .inr rfl
  constructor
  · simp only [hashBytes_toHex, length_append, rSized, lowSized, length_singleton]
  · simp only [hashBytes_toHex]
  · rwa [hashBytes_toHex]
  · exact proper
  · rw [hashBytes_toHex]
    exact recoverSigner_layout rSized lowSized byte half recovers correct.proper

/-! ## The account of the private key 1 -/

/-- The digest of 32 zero bytes. -/
def zeroDigest : List UInt8 :=
  prefixedHash ⟨Keccak.keccak256, fun _ _ _ _ => zeroAddress⟩ (List.replicate 32 0)

def sampleR : Nat := 0x23a42ca5616ee730ff3735890c32fc7b9491a9f633faca9434797f2c845f5abf

def sampleS : Nat := 0x4d9ba23bd7edb8577acebaa3644dc5a4995296db420522bb40060f1693c33c9b

def sampleAccount : Address := 0x7e5f4552091a69125d5dfcb7b8c2659029395bdf

/-- The account that the other recovery id leads to. -/
def otherAccount : Address := 0xf154572251ced41818e2ae29cdb73699a1df71bd

/-- Whom the recovery ids and the two values of `s` lead to. -/
def recovered (v : UInt8) (s : Uint256) : Address :=
  if v = 28 ∧ s = BitVec.ofNat 256 sampleS ∨
      v = 27 ∧ s = BitVec.ofNat 256 (secp256k1N - sampleS) then sampleAccount
  else if v = 27 ∧ s = BitVec.ofNat 256 sampleS ∨
      v = 28 ∧ s = BitVec.ofNat 256 (secp256k1N - sampleS) then otherAccount
  else zeroAddress

/-- The chain, as far as signatures of that digest with `sampleR` are concerned. -/
def sampleEvm : Evm where
  keccak256 := Keccak.keccak256
  ecrecover digest v r s :=
    if digest = zeroDigest ∧ r = BitVec.ofNat 256 sampleR then recovered v s else zeroAddress

/-- The signature of that digest with the private key 1. -/
def sampleSign (_ _ : List UInt8) : EcdsaSignature := ⟨slot sampleR ++ slot sampleS, 1⟩

/-- The chain recovers the signers of `sampleR`. -/
theorem sampleEvm_ecrecover (v : UInt8) (s : Uint256) :
    sampleEvm.ecrecover (prefixedHash sampleEvm (List.replicate 32 0)) v
      (word (sampleSign (prefixedHash sampleEvm (List.replicate 32 0)) (slot 1)).signature) s =
      recovered v s :=
  if_pos ⟨rfl, by decide⟩

theorem sampleSign_correct : EcdsaCorrect sampleEvm sampleSign (fun _ => sampleAccount)
    (prefixedHash sampleEvm (List.replicate 32 0)) (slot 1) where
  length := by decide
  recid := by decide
  order := by decide
  proper := by decide
  recovers := by
    rw [sampleEvm_ecrecover]
    decide
  opposite := by
    rintro v (rfl | rfl)
    · rw [sampleEvm_ecrecover, sampleEvm_ecrecover]
      decide
    · rw [sampleEvm_ecrecover, sampleEvm_ecrecover]
      decide
  known := by
    intro v r s notFirst notSecond
    simp [sampleEvm, recovered, notFirst, notSecond]

/-- The zero bytes as an operation hash, and the private key 1. -/
theorem signature_accepted_sample :
    ∃ prefixed signed,
      applyEthSignedMessagePrefix Keccak.keccak256
        ("0x".toList ++ toHex (List.replicate 32 0)) = some prefixed ∧
      signMessageHash sampleSign (hashBytes prefixed) (slot 1) = some signed ∧
      Accepted sampleEvm sampleAccount (List.replicate 32 0) signed :=
  signature_accepted length_replicate sampleSign_correct

end CryptoVaultHub.KeyVault.MessageSigning
