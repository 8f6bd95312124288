import CryptoVaultHub.Contracts.WalletReplay

/-!
# Safety of the wallet

What the wallet does with its ether, its calls and its tokens over every
execution, re-entrant calls included. Signatures are ideal here: `signed` gives
the signer and the digest a signature was made with, and the precompile recovers
a signer of the wallet from no other digest. The hash has no collisions.
-/

namespace CryptoVaultHub.Contracts

open TransitionSystem

/-- The precompile recovers a signer of the wallet only from a signature that this
signer made, and only for the digest it was made over. -/
def IdealSignature (evm : Evm) (signed : Signature → Option (Address × List UInt8))
    (wallet : Wallet) : Prop :=
  ∀ digest v r s, wallet.isSigner (evm.ecrecover digest v r s) = true →
    signed ⟨v, r, s⟩ = some (evm.ecrecover digest v r s, digest)

/-- A signature was made by a signer over the digest of an operation. -/
def SignedOver (evm : Evm) (signed : Signature → Option (Address × List UInt8))
    (signature : List UInt8) (signer : Address) (operation : Operation) : Prop :=
  signed (parseSignature signature) =
    some (signer, prefixedHash evm (operation.hash evm.keccak256))

/-- A message of a signer that carries an unexpired signature of another signer
over exactly the operation of its chain and wallet. -/
structure Signed (evm : Evm) (signed : Signature → Option (Address × List UInt8)) (start : Wallet)
    (message : Message) (authorization : Authorization) : Prop where
  sender : start.isSigner message.sender = true
  otherSigner : start.isSigner authorization.otherSigner = true
  different : authorization.otherSigner ≠ message.sender
  unexpired : message.timestamp ≤ authorization.operation.expireTime
  chain : authorization.operation.chainid = message.chainid
  wallet : authorization.operation.wallet = start.address
  signature : SignedOver evm signed authorization.signature authorization.otherSigner
    authorization.operation
  exactly : ∀ operation, SignedOver evm signed authorization.signature
    authorization.otherSigner operation → operation = authorization.operation

/-- The safety of a wallet that `init` left as `start`: on whose authority it
calls out, to whom it pays in safe mode, and what never changes. -/
structure Secure (evm : Evm) (signed : Signature → Option (Address × List UInt8))
    (start : Wallet) (point : Point) : Prop where
  calls : ∀ record ∈ point.called,
    (∃ authorization, record.authority = .multisig authorization ∧
      Signed evm signed start record.message authorization ∧
      record.call ∈ authorization.operation.calls) ∨
    (∃ forwarderAddress tokenContractAddress, record.authority = .flush ∧
      start.isSigner record.message.sender = true ∧
      record.call = flushCall forwarderAddress tokenContractAddress ∧ record.call.value = 0)
  inOrder : ∀ authorization, (callsUnder authorization point.called).reverse <+:
    authorization.operation.calls
  once : (point.verified.map fun entry => parseSignature entry.2.signature).Nodup
  recorded : ∀ record ∈ point.called, ∀ authorization,
    record.authority = .multisig authorization → (record.message, authorization) ∈ point.verified
  restricted : ∀ record ∈ point.called, record.startedInSafeMode = true → ∀ authorization,
    record.authority = .multisig authorization →
      ∀ recipient ∈ authorization.operation.recipients, start.isSigner recipient = true
  signers : point.wallet.signers = start.signers ∧ point.wallet.isSigner = start.isSigner
  safeMode : point.wallet.safeMode = true ↔
    ∃ sender, Event.safeModeActivated sender ∈ point.events

/-- A successful recovery found a signature whose digest gives the signer. -/
theorem recoverSigner_ok {evm : Evm} {operationHash signature : List UInt8} {recovered : Address}
    (found : recoverSigner evm operationHash signature = .ok recovered) :
    evm.ecrecover (prefixedHash evm operationHash) (parseSignature signature).v
      (parseSignature signature).r (parseSignature signature).s = recovered := by
  simp only [recoverSigner, bind_eq_ok, require_eq_ok, pure_eq_ok, exists_const] at found
  exact found.2.2.2.2

/-- The signed digest commits to the operation. -/
theorem prefixedHash_determines {evm : Evm} (injective : Function.Injective evm.keccak256)
    {left right : Operation}
    (equal : prefixedHash evm (left.hash evm.keccak256) =
      prefixedHash evm (right.hash evm.keccak256)) : left = right := by
  have hashes := List.append_cancel_left (injective equal)
  exact Operation.hash_injective injective hashes

section Ideal

variable {evm : Evm} {signed : Signature → Option (Address × List UInt8)} {start : Wallet}

/-- The wallet accepts only signed messages. -/
theorem Verified.commits (injective : Function.Injective evm.keccak256)
    (ideal : IdealSignature evm signed start)
    {message : Message} {authorization : Authorization}
    (verified : Verified evm start message authorization) :
    Signed evm signed start message authorization := by
  have found := recoverSigner_ok verified.recovered
  have signature : SignedOver evm signed authorization.signature authorization.otherSigner
      authorization.operation := by
    have made := ideal (prefixedHash evm (authorization.operation.hash evm.keccak256))
      (parseSignature authorization.signature).v (parseSignature authorization.signature).r
      (parseSignature authorization.signature).s
    rw [found] at made
    exact made verified.otherSigner
  refine ⟨verified.sender, verified.otherSigner, verified.different, verified.unexpired,
    verified.chain, verified.wallet, signature, ?_⟩
  intro operation same
  have digests := Option.some.inj (same.symm.trans signature)
  exact prefixedHash_determines injective (congrArg Prod.snd digests)

/-- The invariant of the wallet makes it secure. -/
theorem Sound.secure (injective : Function.Injective evm.keccak256)
    (ideal : IdealSignature evm signed start)
    {point : Point} (sound : Sound evm start point) : Secure evm signed start point where
  calls := by
    intro record member
    have permitted := sound.called record member
    unfold Permitted at permitted
    split at permitted
    · rename_i flush
      obtain ⟨sender, forwarderAddress, tokenContractAddress, call⟩ := permitted
      right
      exact ⟨forwarderAddress, tokenContractAddress, flush, sender, call, by rw [call]; rfl⟩
    · rename_i authorization authority
      left
      have verified := sound.verified _ permitted.1
      refine ⟨authorization, authority, verified.commits injective ideal, ?_⟩
      refine (sound.inOrder authorization).mem (List.mem_reverse.mpr ?_)
      refine List.mem_map.mpr ⟨record, List.mem_filter.mpr ⟨member, ?_⟩, rfl⟩
      simpa using authority
  inOrder := sound.inOrder
  once := by
    -- A signature fixes its digest, hence its operation, hence its sequence id.
    have ids : (point.verified.map fun entry => entry.2.operation.sequenceId).Nodup := by
      rw [← sound.accepted]
      exact sound.guards.once.of_map _
    rw [List.nodup_iff_pairwise_ne, List.pairwise_map] at ids ⊢
    refine ids.imp_of_mem ?_
    intro first second firstIn secondIn different same
    have firstSigned := ((sound.verified _ firstIn).commits injective ideal).signature
    have secondSigned := ((sound.verified _ secondIn).commits injective ideal).signature
    rw [SignedOver, same] at firstSigned
    have digests := Option.some.inj (firstSigned.symm.trans secondSigned)
    have operations := prefixedHash_determines injective (congrArg Prod.snd digests)
    exact different (congrArg Operation.sequenceId operations)
  recorded := by
    intro record member authorization authority
    have permitted := sound.called record member
    rw [Permitted, authority] at permitted
    exact permitted.1
  restricted := by
    intro record member started authorization authority
    have permitted := sound.called record member
    rw [Permitted, authority] at permitted
    exact permitted.2 started
  signers := ⟨sound.signers, sound.isSigner⟩
  safeMode := sound.safeMode

end Ideal

/-- Every execution of the wallet is secure, and safe mode stays on between calls. -/
theorem wallet_secure {evm : Evm} (injective : Function.Injective evm.keccak256)
    (signed : Signature → Option (Address × List UInt8)) {start journal : Journal Point Pending}
    (valid : (walletMachine evm).system.Initial start)
    (ideal : IdealSignature evm signed start.current.wallet)
    (steps : (walletMachine evm).system.Steps Unrestricted start journal) :
    Secure evm signed start.current.wallet journal.current ∧
      (journal.frames = [] → journal.current.wallet.safeMode = true →
        ∀ later, (walletMachine evm).system.Steps Unrestricted journal later →
          later.current.wallet.safeMode = true) := by
  obtain ⟨initial, idle⟩ := valid
  have sound := ((walletRules evm start.current.wallet).steps (Sound.initial initial) idle steps).1
  refine ⟨sound.secure injective ideal, ?_⟩
  intro between active later suffix
  have linked := ((walletRules evm start.current.wallet).steps sound between suffix).2
  exact linked.extends.safeMode active

/-! ## A signed transfer -/

/-- The operation of `sampleTransfer 7`. -/
def sampleOperation : Operation := .native 1 1 9 1 noData 100 7

/-- The digest signer 3 signs for it, on a chain whose hash is the identity. -/
def sampleDigest : List UInt8 := prefixedHash permissiveEvm (sampleOperation.hash id)

/-- A chain on which signer 3 has signed that digest and nothing else. -/
def signedEvm : Evm :=
  ⟨id, fun digest v r s => if digest = sampleDigest ∧ v = 27 ∧ r = 0 ∧ s = 0 then 3 else 0⟩

/-- The only signature there is. -/
def sampleSigned (signature : Signature) : Option (Address × List UInt8) :=
  if signature = ⟨27, 0, 0⟩ then some (3, sampleDigest) else none

theorem signedEvm_ideal : IdealSignature signedEvm sampleSigned sampleWallet := by
  intro digest v r s signer
  by_cases made : digest = sampleDigest ∧ v = 27 ∧ r = 0 ∧ s = 0
  · obtain ⟨rfl, rfl, rfl, rfl⟩ := made
    simp [sampleSigned, signedEvm]
  · have zero : signedEvm.ecrecover digest v r s = 0 := if_neg made
    rw [zero] at signer
    exact absurd signer (by decide)

theorem wallet_secure_after_transfer :
    ∃ journal : Journal Point Pending, journal.current.accepted = [7] ∧
      Secure signedEvm sampleSigned sampleWallet journal.current := by
  have replayed : ∃ journal : Journal Point Pending,
      (walletMachine signedEvm).system.Steps Unrestricted sampleJournal journal ∧
        decide (journal.current.accepted = [7]) = true :=
    exists_steps_of_run [sampleTransfer 7]
      (fun journal : Journal Point Pending => journal.current.accepted = [7]) (by decide +kernel)
  obtain ⟨journal, steps, passed⟩ := replayed
  refine ⟨journal, of_decide_eq_true passed, ?_⟩
  exact (wallet_secure Function.injective_id sampleSigned (sampleJournal_initial signedEvm)
    signedEvm_ideal steps).1

end CryptoVaultHub.Contracts
