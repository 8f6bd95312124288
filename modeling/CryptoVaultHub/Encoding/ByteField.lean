import Mathlib

/-!
# The field of 256 elements

A byte stands for a polynomial over the field of two elements, reduced by
`x^8 + x^4 + x^3 + x^2 + 1`. Sums are bitwise. Every other byte is a power of `x`, which is the byte
2, and a product adds the exponents.
-/

namespace CryptoVaultHub

/-- A byte, as an element of the field. -/
structure ByteField where
  bits : BitVec 8
deriving DecidableEq

namespace ByteField

@[ext] theorem ext {left right : ByteField} (same : left.bits = right.bits) : left = right := by
  cases left
  cases right
  exact congrArg mk same

instance : Zero ByteField := ⟨⟨0⟩⟩

instance : One ByteField := ⟨⟨1⟩⟩

instance : Add ByteField := ⟨fun left right => ⟨left.bits ^^^ right.bits⟩⟩

instance : Neg ByteField := ⟨id⟩

/-- The product with `x`. -/
def double (element : ByteField) : ByteField :=
  ⟨(element.bits <<< 1) ^^^ if element.bits.msb then 0x1D else 0⟩

/-- The product with a power of `x`. -/
def shift : Nat → ByteField → ByteField
  | 0, element => element
  | count + 1, element => shift count element.double

def power (exponent : Nat) : ByteField := shift exponent 1

/-- The exponent of an element; zero has none. -/
def log (element : ByteField) : Nat := (List.range 255).findIdx fun index => power index = element

instance : Mul ByteField := ⟨fun left right => if right = 0 then 0 else shift right.log left⟩

instance : Inv ByteField := ⟨fun element => if element = 0 then 0 else power (255 - element.log)⟩

theorem bits_add (left right : ByteField) : (left + right).bits = left.bits ^^^ right.bits := rfl

theorem mul_eq (left right : ByteField) :
    left * right = if right = 0 then 0 else shift right.log left := rfl

theorem inv_eq (element : ByteField) :
    element⁻¹ = if element = 0 then 0 else power (255 - element.log) := rfl

/-! ## Powers -/

/-- A mask on both sides goes away. -/
theorem xor_masks (left right mask : BitVec 8) :
    left ^^^ mask ^^^ (right ^^^ mask) = left ^^^ right := by
  rw [BitVec.xor_comm right, BitVec.xor_assoc, ← BitVec.xor_assoc mask mask, BitVec.xor_self,
    BitVec.zero_xor]

theorem double_add (left right : ByteField) :
    (left + right).double = left.double + right.double := by
  ext1
  simp only [double, bits_add, BitVec.shiftLeft_xor_distrib, BitVec.msb_xor]
  cases left.bits.msb <;> cases right.bits.msb
  · simp
  · simp [BitVec.xor_assoc]
  · simp only [Bool.true_bne, Bool.not_false, if_true, Bool.false_eq_true, if_false]
    ac_rfl
  · exact (BitVec.xor_zero).trans (xor_masks _ _ _).symm

theorem shift_add (count : Nat) (left right : ByteField) :
    shift count (left + right) = shift count left + shift count right := by
  induction count generalizing left right with
  | zero => rfl
  | succ count ih =>
    simp only [shift, double_add]
    exact ih left.double right.double

theorem shift_zero_element (count : Nat) : shift count 0 = 0 := by
  induction count with
  | zero => rfl
  | succ count ih => exact ih

theorem shift_shift (count more : Nat) (element : ByteField) :
    shift more (shift count element) = shift (count + more) element := by
  induction count generalizing element with
  | zero => simp [shift]
  | succ count ih =>
    rw [shift, ih, Nat.succ_add]
    rfl

theorem shift_power (count exponent : Nat) :
    shift count (power exponent) = power (exponent + count) :=
  shift_shift exponent count 1

/-- Every element but zero is a power of `x`, with an exponent below 255. -/
theorem power_log {element : ByteField} (nonzero : element ≠ 0) :
    power element.log = element ∧ element.log < 255 := by
  have all : ∀ bits : BitVec 8, bits = 0 ∨
      (power (log ⟨bits⟩) = ⟨bits⟩ ∧ log ⟨bits⟩ < 255) := by decide +kernel
  rcases all element.bits with zero | found
  · exact absurd (ext zero) nonzero
  · exact found

theorem power_ne_zero (exponent : Nat) : power exponent ≠ 0 := by
  induction exponent with
  | zero => decide
  | succ exponent ih =>
    have kept : ∀ bits : BitVec 8, double ⟨bits⟩ = 0 → bits = 0 := by decide +kernel
    intro zero
    rw [← shift_power 1 exponent] at zero
    exact ih (ext (kept _ zero))

theorem power_period : power 255 = 1 := by decide +kernel

theorem mul_power (element : ByteField) (exponent : Nat) :
    element * power exponent = shift exponent element := by
  rw [mul_eq, if_neg (power_ne_zero exponent)]
  by_cases zero : element = 0
  · rw [zero, shift_zero_element, shift_zero_element]
  · obtain ⟨found, _⟩ := power_log zero
    obtain ⟨same, _⟩ := power_log (power_ne_zero exponent)
    rw [← found, shift_power, shift_power, Nat.add_comm, ← shift_power, same, shift_power,
      Nat.add_comm]

theorem exists_power {element : ByteField} (nonzero : element ≠ 0) :
    ∃ exponent, element = power exponent :=
  ⟨element.log, (power_log nonzero).1.symm⟩

@[simp] theorem element_mul_zero (element : ByteField) : element * 0 = 0 := by simp [mul_eq]

@[simp] theorem zero_mul_element (element : ByteField) : 0 * element = 0 := by
  simp [mul_eq, shift_zero_element]

/-! ## The field -/

protected theorem add_mul (left right factor : ByteField) :
    (left + right) * factor = left * factor + right * factor := by
  by_cases zero : factor = 0
  · subst zero
    simp only [element_mul_zero]
    rfl
  · obtain ⟨exponent, rfl⟩ := exists_power zero
    simp only [mul_power, shift_add]

protected theorem mul_comm (left right : ByteField) : left * right = right * left := by
  by_cases first : left = 0
  · simp [first]
  by_cases second : right = 0
  · simp [second]
  obtain ⟨exponent, rfl⟩ := exists_power first
  obtain ⟨other, rfl⟩ := exists_power second
  rw [mul_power, mul_power, shift_power, shift_power, Nat.add_comm]

protected theorem mul_assoc (left middle right : ByteField) :
    left * middle * right = left * (middle * right) := by
  by_cases second : middle = 0
  · simp [second]
  by_cases third : right = 0
  · simp [third]
  obtain ⟨exponent, rfl⟩ := exists_power second
  obtain ⟨other, rfl⟩ := exists_power third
  rw [mul_power, mul_power, mul_power, shift_power, mul_power, shift_shift]

protected theorem mul_inv_cancel {element : ByteField} (nonzero : element ≠ 0) :
    element * element⁻¹ = 1 := by
  obtain ⟨same, small⟩ := power_log nonzero
  have total : element.log + (255 - element.log) = 255 := by omega
  calc element * element⁻¹ = shift (255 - element.log) element := by
        rw [inv_eq, if_neg nonzero, mul_power]
    _ = shift (255 - element.log) (power element.log) := by rw [same]
    _ = 1 := by rw [shift_power, total, power_period]

instance : Field ByteField :=
  Field.ofMinimalAxioms ByteField
    (fun left middle right => ext (BitVec.xor_assoc left.bits middle.bits right.bits))
    (fun element => ext (BitVec.zero_xor (x := element.bits)))
    (fun element => ext (BitVec.xor_self (x := element.bits)))
    ByteField.mul_assoc ByteField.mul_comm
    (fun element => by rw [ByteField.mul_comm]; exact mul_power element 0)
    (fun element => ByteField.mul_inv_cancel) rfl
    (fun factor left right => by
      rw [ByteField.mul_comm, ByteField.add_mul, ByteField.mul_comm left, ByteField.mul_comm right])
    ⟨0, 1, by decide⟩

/-- The elements by number. -/
def ofNumber : Fin 256 ≃ ByteField where
  toFun number := ⟨BitVec.ofFin number⟩
  invFun element := element.bits.toFin
  left_inv _ := rfl
  right_inv _ := rfl

end ByteField

end CryptoVaultHub
