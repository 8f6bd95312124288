import CryptoVaultHub.KeyVault.MessageSigning

/-!
# The two verifications of a co-signature

`CoSignOrchestratorService.verifySignature` accepts a co-signature with ethers, and the wallet
recovers its signer again when the withdrawal is executed. ethers takes compact signatures and
values of `s` that the wallet refuses.

The recovery of a public key, and what ethers makes of a recovery byte with a chain id, are
parameters.
-/

namespace CryptoVaultHub.Withdrawal.CoSignVerification

open Contracts Hex Abi
open KeyVault.MessageSigning (Text)

/-! ## ethers -/

/-- `none` is an error. -/
structure Ethers where
  recoverAddress : List UInt8 → Signature → Option Address
  chainV : UInt8 → Option UInt8

/-- ECDSA is correct: ethers and the precompile find the same signers. -/
def Ethers.Agrees (ethers : Ethers) (evm : Evm) : Prop :=
  ∀ digest v r s, (v = 27 ∨ v = 28) → ∀ account, ethers.recoverAddress digest ⟨v, r, s⟩ =
    some account ↔ evm.ecrecover digest v r s = account ∧ account ≠ zeroAddress

def isHex (char : Char) : Bool := (digitValue char).isSome

def getBytes : Text → Option (List UInt8)
  | '0' :: 'x' :: digits | '0' :: 'X' :: digits =>
    if digits.length % 2 = 0 ∧ digits.all isHex = true then some (fromHex digits) else none
  | _ => none

def getNormalizedV (ethers : Ethers) (v : UInt8) : Option UInt8 :=
  if v = 0 ∨ v = 27 then some 27
  else if v = 1 ∨ v = 28 then some 28
  else ethers.chainV v

/-- `Signature.from`; the highest bit of a compact signature's `s` is its recovery id. -/
def signatureFrom (ethers : Ethers) (bytes : List UInt8) : Option Signature :=
  let r := readSlot bytes
  let s := readSlot (bytes.drop 32)
  if bytes.length = 64 then
    some ⟨if s < 2 ^ 255 then 27 else 28, BitVec.ofNat 256 r, BitVec.ofNat 256 (s % 2 ^ 255)⟩
  else if bytes.length = 65 ∧ s < 2 ^ 255 then
    (getNormalizedV ethers ((bytes.drop 64).headD 0)).map fun v =>
      ⟨v, BitVec.ofNat 256 r, BitVec.ofNat 256 s⟩
  else none

def hashMessage (keccak256 : List UInt8 → List UInt8) (message : List UInt8) : List UInt8 :=
  keccak256 (25 :: asciiBytes ("Ethereum Signed Message:\n".toList ++
    (toString message.length).toList) ++ message)

/-- An address as a text, in lower case. -/
def addressText (account : Address) : Text := "0x".toList ++ toHex (bigEndian 20 account.toNat)

def verifyMessage (ethers : Ethers) (keccak256 : List UInt8 → List UInt8) (message : List UInt8)
    (signature : Text) : Option Address := do
  let bytes ← getBytes signature
  let parsed ← signatureFrom ethers bytes
  ethers.recoverAddress (hashMessage keccak256 message) parsed

/-! ## The service -/

def verifySignature (ethers : Ethers) (keccak256 : List UInt8 → List UInt8)
    (operationHash signature expectedAddress : Text) : Option Bool := do
  let message ← getBytes operationHash
  let recovered ← verifyMessage ethers keccak256 message signature
  return addressText recovered = expectedAddress.map Char.toLower

/-! ## The wallet -/

theorem hashMessage_eq (evm : Evm) {operationHash : List UInt8}
    (sized : operationHash.length = 32) :
    hashMessage evm.keccak256 operationHash = prefixedHash evm operationHash := by
  rw [hashMessage, sized]
  rfl

theorem addressText_injective {first second : Address}
    (same : addressText first = addressText second) : first = second := by
  have bytes := congrArg fromHex (List.append_cancel_left same)
  rw [fromHex_toHex, fromHex_toHex] at bytes
  have numbers := congrArg readBigEndian bytes
  rw [readBigEndian_bigEndian (by simpa using first.isLt),
    readBigEndian_bigEndian (by simpa using second.isLt)] at numbers
  exact BitVec.eq_of_toNat_eq numbers

/-- What the wallet takes apart: 65 bytes, a recovery byte without a chain id, and an `s` in the
lower half. -/
structure Canonical (bytes : List UInt8) : Prop where
  length : bytes.length = 65
  recovery : (bytes.drop 64).headD 0 ∈ [0, 1, 27, 28]
  low : readSlot (bytes.drop 32) ≤ maxSValue.toNat

instance (bytes : List UInt8) : Decidable (Canonical bytes) :=
  decidable_of_iff (bytes.length = 65 ∧ (bytes.drop 64).headD 0 ∈ [0, 1, 27, 28] ∧
      readSlot (bytes.drop 32) ≤ maxSValue.toNat)
    ⟨fun ⟨length, recovery, low⟩ => ⟨length, recovery, low⟩,
      fun ⟨length, recovery, low⟩ => ⟨length, recovery, low⟩⟩

/-- The recovery bytes that the wallet corrects to 27 or 28. -/
theorem corrected_iff (v : UInt8) :
    ((if v < 27 then v + 27 else v) = 27 ∨ (if v < 27 then v + 27 else v) = 28) ↔
      v ∈ [0, 1, 27, 28] := by
  obtain ⟨⟨v⟩⟩ := v
  revert v
  decide +kernel

theorem readBigEndian_lt (bytes : List UInt8) : readBigEndian bytes < 256 ^ bytes.length := by
  induction bytes using List.reverseRecOn with
  | nil => decide
  | append_singleton bytes byte ih =>
    rw [readBigEndian_append_singleton, List.length_append, List.length_singleton, Nat.pow_succ]
    have small := byte.toNat_lt
    omega

theorem readSlot_lt (bytes : List UInt8) : readSlot bytes < 2 ^ 256 :=
  calc readSlot bytes < 256 ^ (bytes.take 32).length := readBigEndian_lt _
    _ ≤ 256 ^ 32 := Nat.pow_le_pow_right (by decide) (List.length_take_le ..)
    _ = 2 ^ 256 := by decide

/-- The wallet recovers the signers of canonical signatures. -/
theorem recoverSigner_eq_ok_iff {evm : Evm} {operationHash bytes : List UInt8} {account : Address} :
    recoverSigner evm operationHash bytes = .ok account ↔
      Canonical bytes ∧ evm.ecrecover (prefixedHash evm operationHash) (parseSignature bytes).v
        (parseSignature bytes).r (parseSignature bytes).s = account ∧ account ≠ zeroAddress := by
  have recovery := corrected_iff ((bytes.drop 64).headD 0)
  have low : (parseSignature bytes).s ≤ maxSValue ↔
      readSlot (bytes.drop 32) ≤ maxSValue.toNat := by
    rw [BitVec.le_def, parseSignature, BitVec.toNat_ofNat, Nat.mod_eq_of_lt (readSlot_lt _)]
  simp only [recoverSigner, bind_eq_ok, require_eq_ok, pure_eq_ok, exists_const]
  constructor
  · rintro ⟨length, proper, half, known, recovers⟩
    exact ⟨⟨length, recovery.mp proper, low.mp half⟩, recovers, recovers ▸ known⟩
  · rintro ⟨canonical, recovers, known⟩
    exact ⟨canonical.length, recovery.mpr canonical.recovery, low.mpr canonical.low,
      recovers.symm ▸ known, recovers⟩

/-- ethers reads a canonical signature as the wallet does. -/
theorem signatureFrom_canonical (ethers : Ethers) {bytes : List UInt8}
    (canonical : Canonical bytes) : signatureFrom ethers bytes = some (parseSignature bytes) := by
  obtain ⟨length, recovery, low⟩ := canonical
  have half : maxSValue.toNat < 2 ^ 255 := by decide
  have normalized : getNormalizedV ethers ((bytes.drop 64).headD 0) =
      some (parseSignature bytes).v := by
    simp only [List.mem_cons, List.not_mem_nil, or_false] at recovery
    unfold parseSignature
    rcases recovery with v | v | v | v <;> rw [v] <;> rfl
  rw [signatureFrom, if_neg (by rw [length]; decide), if_pos ⟨length, low.trans_lt half⟩,
    normalized]
  rfl

/-! ## Agreement -/

/-- A co-signature that the service accepts for an account is one of that account for the wallet
if and only if its bytes are canonical. -/
theorem cosignature_accepted_iff {ethers : Ethers} {evm : Evm} (agrees : ethers.Agrees evm)
    {operationHash signature expectedAddress : Text} {hash bytes : List UInt8} {account : Address}
    (hashed : getBytes operationHash = some hash) (sized : hash.length = 32)
    (decoded : getBytes signature = some bytes)
    (expected : expectedAddress.map Char.toLower = addressText account)
    (accepted : verifySignature ethers evm.keccak256 operationHash signature expectedAddress =
      some true) :
    recoverSigner evm hash bytes = .ok account ↔ Canonical bytes := by
  rw [recoverSigner_eq_ok_iff]
  refine ⟨And.left, fun canonical => ⟨canonical, ?_⟩⟩
  simp only [verifySignature, verifyMessage, hashed, decoded,
    signatureFrom_canonical ethers canonical, hashMessage_eq evm sized, Option.bind_eq_bind,
    Option.bind_some, Option.pure_def, Option.bind_eq_some_iff, Option.some.injEq,
    decide_eq_true_eq] at accepted
  obtain ⟨recovered, found, same⟩ := accepted
  obtain rfl := addressText_injective (same.trans expected)
  exact (agrees _ _ _ _ ((corrected_iff _).mpr canonical.recovery) recovered).mp found

/-! ## Samples -/

open KeyVault.MessageSigning (sampleR sampleS sampleAccount sampleEvm)

/-- ethers, as far as the sample chain knows the signers. -/
def sampleEthers : Ethers where
  recoverAddress digest signature :=
    some (sampleEvm.ecrecover digest signature.v signature.r signature.s) |>.filter
      fun account => account ≠ zeroAddress
  chainV _ := none

theorem sampleEthers_agrees : sampleEthers.Agrees sampleEvm := by
  intro digest v r s _ account
  simp only [sampleEthers, Option.filter_eq_some_iff, Option.some.injEq, decide_eq_true_eq]

def zeroHash : List UInt8 := List.replicate 32 0

def sampleSignature : List UInt8 := slot sampleR ++ slot sampleS ++ [28]

/-- The same signature in 64 bytes. -/
def compactSignature : List UInt8 := slot sampleR ++ slot (sampleS + 2 ^ 255)

def hexText (bytes : List UInt8) : Text := "0x".toList ++ toHex bytes

theorem cosignature_accepted_sample :
    recoverSigner sampleEvm zeroHash sampleSignature = .ok sampleAccount :=
  (@cosignature_accepted_iff sampleEthers sampleEvm sampleEthers_agrees (hexText zeroHash)
    (hexText sampleSignature) (addressText sampleAccount) zeroHash sampleSignature sampleAccount
    (by decide +kernel) rfl (by decide +kernel) (by decide +kernel) (by decide +kernel)).mpr
    (by decide +kernel)

/-- The service accepts the compact signature, and the wallet does not. -/
theorem compact_refused :
    ∃ ethers : Ethers, ethers.Agrees sampleEvm ∧
      verifySignature ethers sampleEvm.keccak256 (hexText zeroHash) (hexText compactSignature)
        (addressText sampleAccount) = some true ∧
      getBytes (hexText compactSignature) = some compactSignature ∧
      recoverSigner sampleEvm zeroHash compactSignature = .error .invalidSignatureLength :=
  ⟨sampleEthers, sampleEthers_agrees, by decide +kernel, by decide +kernel, rfl⟩

end CryptoVaultHub.Withdrawal.CoSignVerification
