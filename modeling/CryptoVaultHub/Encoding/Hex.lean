import CryptoVaultHub.Encoding.Abi

/-!
# Hexadecimal texts

Texts of two digits a byte, as a buffer is printed and read, and of the digits of a number, as
a big integer is. `padStart_toString16` says that a number printed with leading zeros is the
text of its bytes, most significant first.
-/

namespace CryptoVaultHub.Hex

open Abi List Option

/-! ## Digits -/

/-- The value of a digit, in either case. -/
def digitValue (digit : Char) : Option Nat :=
  if '0' ≤ digit ∧ digit ≤ '9' then some (digit.toNat - 48)
  else if 'a' ≤ digit ∧ digit ≤ 'f' then some (digit.toNat - 87)
  else if 'A' ≤ digit ∧ digit ≤ 'F' then some (digit.toNat - 55)
  else none

@[simp] theorem digitValue_digitChar {value : Nat} (small : value < 16) :
    digitValue (Nat.digitChar value) = some value := by
  interval_cases value <;> rfl

/-! ## Bytes -/

/-- The two digits of a byte. -/
def byteDigits (byte : UInt8) : List Char :=
  [Nat.digitChar (byte.toNat / 16), Nat.digitChar (byte.toNat % 16)]

/-- `buffer.toString('hex')`. -/
def toHex (bytes : List UInt8) : List Char := bytes.flatMap byteDigits

/-- `Buffer.from(text, 'hex')`, which stops at the first pair that is no byte. -/
def fromHex : List Char → List UInt8
  | high :: low :: rest =>
    match digitValue high, digitValue low with
    | some highValue, some lowValue => UInt8.ofNat (16 * highValue + lowValue) :: fromHex rest
    | _, _ => []
  | _ => []

@[simp] theorem toHex_append (first second : List UInt8) :
    toHex (first ++ second) = toHex first ++ toHex second :=
  flatMap_append

@[simp] theorem length_toHex (bytes : List UInt8) : (toHex bytes).length = 2 * bytes.length := by
  induction bytes with
  | nil => rfl
  | cons byte bytes ih =>
    simp only [toHex, flatMap_cons, length_append] at ih ⊢
    simp only [byteDigits, length_cons, length_nil]
    omega

/-- A buffer is read back from its text. -/
@[simp] theorem fromHex_toHex (bytes : List UInt8) : fromHex (toHex bytes) = bytes := by
  induction bytes with
  | nil => rfl
  | cons byte bytes ih =>
    have bound := byte.toNat_lt
    have high : byte.toNat / 16 < 16 := by omega
    have low : byte.toNat % 16 < 16 := by omega
    have halves : 16 * (byte.toNat / 16) + byte.toNat % 16 = byte.toNat := by omega
    simp only [toHex, flatMap_cons, byteDigits, cons_append, nil_append]
      at ih ⊢
    rw [fromHex, digitValue_digitChar high, digitValue_digitChar low]
    simp only [halves, UInt8.ofNat_toNat, ih]

/-! ## Numbers -/

/-- The number of a nonempty text of digits: `BigInt('0x' + text)`, which throws otherwise. -/
def readNumber (text : List Char) : Option Nat :=
  if text = [] then none
  else text.foldlM (fun value digit => (digitValue digit).map (16 * value + ·)) 0

/-- `value.toString(16)`. -/
def toString16 (value : Nat) : List Char := Nat.toDigits 16 value

/-- `text.padStart(length, fill)`. -/
def padStart (length : Nat) (fill : Char) (text : List Char) : List Char :=
  List.replicate (length - text.length) fill ++ text

/-- The digits of a byte sequence, read on from a value. -/
theorem foldlM_toHex (bytes : List UInt8) (start : Nat) :
    (toHex bytes).foldlM (fun value digit => (digitValue digit).map (16 * value + ·)) start =
      some (bytes.foldl (fun value byte => value * 256 + byte.toNat) start) := by
  induction bytes generalizing start with
  | nil => rfl
  | cons byte bytes ih =>
    have bound := byte.toNat_lt
    have high : byte.toNat / 16 < 16 := by omega
    have low : byte.toNat % 16 < 16 := by omega
    have value : 16 * (16 * start + byte.toNat / 16) + byte.toNat % 16 =
        start * 256 + byte.toNat := by omega
    simp only [toHex, flatMap_cons, byteDigits, cons_append, nil_append]
      at ih ⊢
    simp only [foldlM_cons, digitValue_digitChar high, digitValue_digitChar low,
      map_some, bind_eq_bind, bind_some, value, ih,
      foldl_cons]

/-- A buffer read as a number. -/
theorem readNumber_toHex {bytes : List UInt8} (nonempty : bytes ≠ []) :
    readNumber (toHex bytes) = some (readBigEndian bytes) := by
  have printed : toHex bytes ≠ [] := by
    intro empty
    have length := congrArg List.length empty
    simp only [length_toHex, length_nil] at length
    exact nonempty (length_eq_zero_iff.mp (by omega))
  rw [readNumber, if_neg printed, foldlM_toHex, readBigEndian]

/-- The last digits of a number, most significant first. -/
def digits : Nat → Nat → List Char
  | 0, _ => []
  | width + 1, value => digits width (value / 16) ++ [Nat.digitChar (value % 16)]

theorem digits_zero (width : Nat) : digits width 0 = List.replicate width '0' := by
  induction width with
  | zero => rfl
  | succ width ih =>
    rw [digits, Nat.zero_div, ih, replicate_succ']
    rfl

/-- A number that is printed with leading zeros. -/
theorem padStart_eq_digits {width value : Nat} (fits : value < 16 ^ (width + 1)) :
    padStart (width + 1) '0' (toString16 value) = digits (width + 1) value := by
  induction width generalizing value with
  | zero =>
    have small : value < 16 := by simpa using fits
    rw [padStart, toString16, Nat.toDigits_of_lt_base small, digits, digits,
      Nat.mod_eq_of_lt small]
    rfl
  | succ width ih =>
    by_cases small : value < 16
    · have zero : value / 16 = 0 := by omega
      rw [digits, zero, digits_zero, Nat.mod_eq_of_lt small, padStart, toString16,
        Nat.toDigits_of_lt_base small]
      rfl
    · have quotient : value / 16 < 16 ^ (width + 1) := by
        rw [Nat.pow_succ] at fits
        exact Nat.div_lt_of_lt_mul (by omega)
      rw [digits, ← ih quotient, padStart, padStart, toString16, toString16,
        Nat.toDigits_of_base_le (by decide) (by omega), length_append,
        length_singleton, Nat.add_sub_add_right, append_assoc]

/-- Two digits are a byte. -/
theorem digits_eq_toHex (width value : Nat) :
    digits (2 * width) value = toHex (bigEndian width value) := by
  induction width generalizing value with
  | zero => rfl
  | succ width ih =>
    have byte : (UInt8.ofNat (value % 256)).toNat = value % 256 := by
      simp
    have high : value % 256 / 16 = value / 16 % 16 := by omega
    have low : value % 256 % 16 = value % 16 := by omega
    have halves : value / 16 / 16 = value / 256 := by omega
    rw [show 2 * (width + 1) = 2 * width + 1 + 1 from rfl, digits, digits, halves,
      ih, bigEndian, toHex_append, append_assoc]
    simp only [toHex, flatMap_cons, flatMap_nil, byteDigits, byte, high, low,
      cons_append, nil_append]

/-- The text of a number with leading zeros is the text of its bytes. -/
theorem padStart_toString16 (width : Nat) {value : Nat} (positive : 0 < width)
    (fits : value < 256 ^ width) :
    padStart (2 * width) '0' (toString16 value) = toHex (bigEndian width value) := by
  obtain ⟨half, rfl⟩ : ∃ half, width = half + 1 := ⟨width - 1, by omega⟩
  have same : (256 : Nat) ^ (half + 1) = 16 ^ (2 * half + 1 + 1) := by
    rw [show 2 * half + 1 + 1 = 2 * (half + 1) from rfl, Nat.pow_mul]
  rw [show 2 * (half + 1) = 2 * half + 1 + 1 from rfl, padStart_eq_digits (same ▸ fits)]
  exact digits_eq_toHex (half + 1) value

end CryptoVaultHub.Hex
