import Mathlib

/-!
# Envelope encryption

The vault seals each record under a key of its own and seals that key under a key
derived from a password. The nonce of the outer seal was once 16 bytes long; the
length of the sealed key tells the two layouts apart.
-/

namespace CryptoVaultHub.KeyVault

abbrev Bytes := List UInt8

/-- The primitives: `pbkdf2Sync` to 32 bytes, and `aes-256-gcm` from a key, a nonce and a
text to a ciphertext with its tag and back. -/
structure Crypto where
  pbkdf2 : String → Bytes → Nat → Option Bytes
  gcmEncrypt : Bytes → Bytes → Bytes → Bytes × Bytes
  gcmDecrypt : Bytes → Bytes → Bytes → Bytes → Option Bytes

/-- A ciphertext is as long as its text, a tag has 16 bytes, and what was sealed opens
under the same key and nonce. -/
structure Crypto.Lawful (crypto : Crypto) : Prop where
  length_ciphertext : ∀ key iv text, (crypto.gcmEncrypt key iv text).1.length = text.length
  length_authTag : ∀ key iv text, (crypto.gcmEncrypt key iv text).2.length = 16
  decrypt_encrypt : ∀ key iv text,
    crypto.gcmDecrypt key iv (crypto.gcmEncrypt key iv text).1
      (crypto.gcmEncrypt key iv text).2 = some text

/-- `pbkdf2Sync` throws because of its iterations alone. -/
def Crypto.Uniform (crypto : Crypto) : Prop :=
  ∀ password salt other pepper iterations,
    (crypto.pbkdf2 password salt iterations).isSome = (crypto.pbkdf2 other pepper iterations).isSome

structure EncryptedPayload where
  ciphertext : Bytes
  iv : Bytes
  authTag : Bytes
  salt : Bytes
  encryptedDek : Bytes
deriving DecidableEq

/-- The random values of one encryption. -/
structure RandomBytes where
  dek : Bytes
  salt : Bytes
  iv : Bytes
  dekIv : Bytes
  length_dek : dek.length = 32
  length_dekIv : dekIv.length = 12

/-- `Buffer.subarray`: a negative position counts from the end. -/
def subarray (buffer : Bytes) (start stop : Int) : Bytes :=
  let position (index : Int) : Nat :=
    if index < 0 then (buffer.length + index).toNat else min index.toNat buffer.length
  (buffer.take (position stop)).drop (position start)

/-- The length of the nonce in front of a sealed key. -/
def dekIvLength (encryptedDek : Bytes) : Nat :=
  if encryptedDek.length = 64 then 16 else 12

/-- `[iv | ciphertext | authTag]`, opened. -/
def unwrapDek (crypto : Crypto) (kek encryptedDek : Bytes) : Option Bytes :=
  let dekIvLen : Int := dekIvLength encryptedDek
  let tagStart : Int := encryptedDek.length - 16
  crypto.gcmDecrypt kek (subarray encryptedDek 0 dekIvLen)
    (subarray encryptedDek dekIvLen tagStart)
    (subarray encryptedDek tagStart encryptedDek.length)

/-- `encryptWithPassword`; `encrypt` is this with the password of the service. -/
def encryptWithPassword (crypto : Crypto) (kdfIterations : Nat) (plaintext : Bytes)
    (password : String) (random : RandomBytes) : Option EncryptedPayload := do
  let kek ← crypto.pbkdf2 password random.salt kdfIterations
  let (ciphertext, authTag) := crypto.gcmEncrypt random.dek random.iv plaintext
  let (wrapped, dekAuthTag) := crypto.gcmEncrypt kek random.dekIv random.dek
  return {
    ciphertext := ciphertext
    iv := random.iv
    authTag := authTag
    salt := random.salt
    encryptedDek := random.dekIv ++ wrapped ++ dekAuthTag }

/-- `decryptWithPassword`; `decrypt` is this with the password of the service. The
iterations of the service are used when the record has none of its own. -/
def decryptWithPassword (crypto : Crypto) (kdfIterations : Nat) (payload : EncryptedPayload)
    (password : String) (iterations : Option Nat) : Option Bytes := do
  let kek ← crypto.pbkdf2 password payload.salt (iterations.getD kdfIterations)
  let dek ← unwrapDek crypto kek payload.encryptedDek
  crypto.gcmDecrypt dek payload.iv payload.ciphertext payload.authTag

/-- `rotateEncryption`; its key version is left to the caller. -/
def rotateEncryption (crypto : Crypto) (kdfIterations : Nat) (payload : EncryptedPayload)
    (oldPassword newPassword : String) (iterations : Option Nat) (random : RandomBytes) :
    Option EncryptedPayload := do
  let plaintext ← decryptWithPassword crypto kdfIterations payload oldPassword iterations
  encryptWithPassword crypto kdfIterations plaintext newPassword random

/-! ## What was sealed opens -/

/-- The bytes between two parts. -/
theorem subarray_middle (front middle back : Bytes) {start stop : Int}
    (starts : start = front.length) (stops : stop = front.length + middle.length) :
    subarray (front ++ middle ++ back) start stop = middle := by
  subst starts stops
  have startPosition : ¬ (front.length : Int) < 0 := by omega
  have stopPosition : ¬ (front.length : Int) + middle.length < 0 := by omega
  have last : ((front.length : Int) + middle.length).toNat = (front ++ middle).length := by
    simp
    omega
  have within : (front ++ middle).length ≤ (front ++ middle ++ back).length := by simp
  have first : front.length ≤ (front ++ middle ++ back).length := by simp
  simp only [subarray, startPosition, stopPosition, if_false, last, Int.toNat_natCast,
    Nat.min_eq_left within, Nat.min_eq_left first, List.take_left', List.drop_left']

/-- The lengths of the two layouts, 60 and 64 bytes, tell how long the nonce in front is. -/
theorem dekIvLength_wrapped {crypto : Crypto} (lawful : crypto.Lawful) (kek : Bytes)
    {iv dek : Bytes} (lengthIv : iv.length = 12 ∨ iv.length = 16) (lengthDek : dek.length = 32) :
    dekIvLength (iv ++ (crypto.gcmEncrypt kek iv dek).1 ++ (crypto.gcmEncrypt kek iv dek).2) =
      iv.length := by
  have lengthWrapped := lawful.length_ciphertext kek iv dek
  have lengthTag := lawful.length_authTag kek iv dek
  have total : (iv ++ (crypto.gcmEncrypt kek iv dek).1 ++
      (crypto.gcmEncrypt kek iv dek).2).length = iv.length + 48 := by
    simp only [List.length_append, lengthWrapped, lengthTag, lengthDek]
  rcases lengthIv with current | legacy
  · simp only [dekIvLength, total, current]
    rfl
  · simp only [dekIvLength, total, legacy]
    rfl

/-- A sealed key of either layout opens. -/
theorem unwrapDek_wrapped {crypto : Crypto} (lawful : crypto.Lawful) (kek : Bytes)
    {iv dek : Bytes} (lengthIv : iv.length = 12 ∨ iv.length = 16) (lengthDek : dek.length = 32)
    (reader : Bytes) :
    unwrapDek crypto reader
        (iv ++ (crypto.gcmEncrypt kek iv dek).1 ++ (crypto.gcmEncrypt kek iv dek).2) =
      crypto.gcmDecrypt reader iv (crypto.gcmEncrypt kek iv dek).1
        (crypto.gcmEncrypt kek iv dek).2 := by
  have nonceLength := dekIvLength_wrapped lawful kek lengthIv lengthDek
  have lengthWrapped := lawful.length_ciphertext kek iv dek
  have lengthTag := lawful.length_authTag kek iv dek
  generalize (crypto.gcmEncrypt kek iv dek).1 = wrapped at *
  generalize (crypto.gcmEncrypt kek iv dek).2 = tag at *
  have total : ((iv ++ wrapped ++ tag).length : Int) = iv.length + wrapped.length + 16 := by
    simp only [List.length_append, lengthTag]
    omega
  have nonce : subarray (iv ++ wrapped ++ tag) 0 iv.length = iv := by
    simpa using subarray_middle [] iv (wrapped ++ tag) rfl (by simp)
  have text : subarray (iv ++ wrapped ++ tag) iv.length (iv.length + wrapped.length) = wrapped :=
    subarray_middle iv wrapped tag rfl rfl
  have check : subarray (iv ++ wrapped ++ tag) (iv.length + wrapped.length)
      (iv.length + wrapped.length + 16) = tag := by
    simpa using subarray_middle (iv ++ wrapped) tag [] (by simp) (by simp [lengthTag])
  have tagStart : ((iv ++ wrapped ++ tag).length : Int) - 16 = iv.length + wrapped.length := by
    omega
  simp only [unwrapDek, nonceLength, tagStart, nonce, text]
  rw [total, check]

theorem unwrapDek_sealed {crypto : Crypto} (lawful : crypto.Lawful) (kek : Bytes)
    (random : RandomBytes) :
    unwrapDek crypto kek (random.dekIv ++ (crypto.gcmEncrypt kek random.dekIv random.dek).1 ++
      (crypto.gcmEncrypt kek random.dekIv random.dek).2) = some random.dek := by
  rw [unwrapDek_wrapped lawful kek (Or.inl random.length_dekIv) random.length_dek]
  exact lawful.decrypt_encrypt kek random.dekIv random.dek

/-- A sealed record opens under its password to its text, whether its iterations are
stored with it or are those of the service. -/
theorem decrypt_of_encrypt {crypto : Crypto} (lawful : crypto.Lawful) {kdfIterations : Nat}
    {plaintext : Bytes} {password : String} {random : RandomBytes} {payload : EncryptedPayload}
    (encrypted : encryptWithPassword crypto kdfIterations plaintext password random = some payload)
    {iterations : Option Nat} (same : iterations.getD kdfIterations = kdfIterations) :
    decryptWithPassword crypto kdfIterations payload password iterations = some plaintext := by
  obtain ⟨kek, derived, built⟩ := Option.bind_eq_some_iff.mp encrypted
  cases built
  simp only [decryptWithPassword, same, derived, Option.bind_eq_bind, Option.bind_some,
    unwrapDek_sealed lawful kek random]
  exact lawful.decrypt_encrypt _ _ _

/-- A rotated record opens under the new password to the text it had under the old one. -/
theorem decrypt_of_rotate {crypto : Crypto} (lawful : crypto.Lawful) {kdfIterations : Nat}
    {payload rotated : EncryptedPayload} {oldPassword newPassword : String}
    {stored iterations : Option Nat} {random : RandomBytes}
    (rotation : rotateEncryption crypto kdfIterations payload oldPassword newPassword stored
      random = some rotated)
    (same : iterations.getD kdfIterations = kdfIterations) :
    ∃ plaintext, decryptWithPassword crypto kdfIterations payload oldPassword stored =
        some plaintext ∧
      decryptWithPassword crypto kdfIterations rotated newPassword iterations =
        some plaintext := by
  obtain ⟨plaintext, opened, encrypted⟩ := Option.bind_eq_some_iff.mp rotation
  exact ⟨plaintext, opened, decrypt_of_encrypt lawful encrypted same⟩

end CryptoVaultHub.KeyVault
