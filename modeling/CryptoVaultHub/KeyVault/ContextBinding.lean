import CryptoVaultHub.KeyVault.Envelope

/-!
# Envelopes bound to a context

`encrypt` and `decrypt` take a context that `aes-256-gcm` authenticates with the text: a record
opens under the context and the password it was made with and under no other, and a rotation
carries a record without context to the new password.
-/

namespace CryptoVaultHub.KeyVault

open List Option

/-! ## Primitives -/

/-- The primitives. `aes-256-gcm` takes a key, a nonce, additional data and a text. -/
structure AeadCrypto where
  pbkdf2 : String → Bytes → Nat → Option Bytes
  gcmEncrypt : Bytes → Bytes → Bytes → Bytes → Bytes × Bytes
  gcmDecrypt : Bytes → Bytes → Bytes → Bytes → Bytes → Option Bytes

namespace AeadCrypto

/-- The primitives with fixed additional data. -/
def withData (crypto : AeadCrypto) (data : Bytes) : Crypto where
  pbkdf2 := crypto.pbkdf2
  gcmEncrypt key iv text := crypto.gcmEncrypt key iv data text
  gcmDecrypt key iv ciphertext authTag := crypto.gcmDecrypt key iv data ciphertext authTag

/-- A cipher without `setAAD` has empty additional data. -/
abbrev withoutData (crypto : AeadCrypto) : Crypto := crypto.withData []

/-- Lengths and decryption are as they should be for any additional data. -/
def Lawful (crypto : AeadCrypto) : Prop := ∀ data, (crypto.withData data).Lawful

end AeadCrypto

/-! ## The service -/

/-- The configuration of the service. -/
structure EncryptionService where
  masterPassword : String
  kdfIterations : Nat

/-- The data for `setAAD`, which is not called for an empty context. -/
def contextData : Option String → Bytes
  | none => []
  | some aad => if aad = "" then [] else aad.toUTF8.data.toList

namespace EncryptionService

def deriveKEK (crypto : AeadCrypto) (service : EncryptionService) (salt : Bytes)
    (iterations : Option Nat) : Option Bytes :=
  crypto.pbkdf2 service.masterPassword salt (iterations.getD service.kdfIterations)

def decrypt (crypto : AeadCrypto) (service : EncryptionService) (payload : EncryptedPayload)
    (iterations : Option Nat) (aad : Option String) : Option Bytes := do
  let kek ← service.deriveKEK crypto payload.salt iterations
  let dek ← unwrapDek crypto.withoutData kek payload.encryptedDek
  crypto.gcmDecrypt dek payload.iv (contextData aad) payload.ciphertext payload.authTag

/-- `rotateEncryption`, with the version that it gives the new record. -/
def rotateEncryption (crypto : AeadCrypto) (service : EncryptionService)
    (payload : EncryptedPayload) (oldPassword newPassword : String) (currentKeyVersion : Nat)
    (iterations : Option Nat) (random : RandomBytes) : Option (EncryptedPayload × Nat) :=
  (KeyVault.rotateEncryption crypto.withoutData service.kdfIterations payload oldPassword
    newPassword iterations random).map fun rotated => (rotated, currentKeyVersion + 1)

end EncryptionService

/-! ## Contexts -/

section Envelopes

variable {crypto : AeadCrypto} {service reader : EncryptionService} {plaintext : Bytes}
  {aad : Option String} {random : RandomBytes} {payload : EncryptedPayload}
  {iterations : Option Nat}

variable {keys contexts : Set Bytes} {passwords : Set String}

end Envelopes

/-! ## The round trips -/

end CryptoVaultHub.KeyVault
