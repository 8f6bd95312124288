import CryptoVaultHub.CoreWallet.SanctionsSync
import CryptoVaultHub.Encoding.Hex

/-!
# Texts as numbers

`Number` of a text, as JavaScript reads it: the white space around it is dropped, an empty text is
zero, and the rest is a decimal, hexadecimal, octal or binary literal, of which the nearest double
is taken. `integerOf_digits` says what becomes of decimal digits.
-/

namespace CryptoVaultHub.NumberText

abbrev Text := List Char

/-! ## Doubles -/

/-- The nearest integer, and of two the even one. -/
def roundEven (value : ℚ) : ℤ :=
  let below := ⌊value⌋
  let rest := value - below
  if rest < 1 / 2 ∨ rest = 1 / 2 ∧ below % 2 = 0 then below else below + 1

/-- The distance of the doubles around a positive value. -/
def spacing (value : ℚ) : ℚ := 2 ^ (max (Int.log 2 value) (-1022) - 52)

/-- The double nearest to a positive value, unless it is infinite. -/
def toDouble (value : ℚ) : Option ℚ :=
  let rounded := roundEven (value / spacing value) * spacing value
  if rounded < 2 ^ 1024 then some rounded else none

/-! ## Literals -/

/-- An optional sign, and what follows it. -/
def signed : Text → Bool × Text
  | '-' :: rest => (true, rest)
  | '+' :: rest => (false, rest)
  | rest => (false, rest)

def negateIf {Value : Type} [Neg Value] (negative : Bool) (value : Value) : Value :=
  if negative then -value else value

/-- The digits after the point, if there is one, and the rest. -/
def fraction : Text → Text × Text
  | '.' :: rest => (rest.takeWhile Char.isDigit, rest.dropWhile Char.isDigit)
  | rest => ([], rest)

/-- The exponent that ends a literal. -/
def exponent : Text → Option ℤ
  | [] => some 0
  | mark :: rest =>
    let (negative, digits) := signed rest
    if (mark = 'e' ∨ mark = 'E') ∧ digits ≠ [] ∧ digits.all Char.isDigit then
      some (negateIf negative (Nat.ofDigitChars 10 digits 0 : ℤ))
    else none

/-- A decimal literal; `Infinity` is no finite number. -/
def decimal (text : Text) : Option ℚ := do
  let (negative, unsigned) := signed text
  let whole := unsigned.takeWhile Char.isDigit
  let (decimals, rest) := fraction (unsigned.dropWhile Char.isDigit)
  if whole = [] ∧ decimals = [] then none
  else
    let power ← exponent rest
    let value := Nat.ofDigitChars 10 (whole ++ decimals) 0 * (10 : ℚ) ^ (power - decimals.length)
    (toDouble value).map (negateIf negative)

/-- The literal of another base, after its mark. -/
def based (base : Nat) (digits : Text) : Option ℚ :=
  if digits ≠ [] ∧ digits.all fun digit =>
      (Hex.digitValue digit).any fun value => value < base then
    toDouble (digits.foldl (fun value digit => value * base + (Hex.digitValue digit).getD 0) 0 : ℕ)
  else none

/-- `Number`; `none` is `NaN` or infinite. -/
def number (text : Text) : Option ℚ :=
  match CoreWallet.trim text with
  | [] => some 0
  | '0' :: 'x' :: digits | '0' :: 'X' :: digits => based 16 digits
  | '0' :: 'o' :: digits | '0' :: 'O' :: digits => based 8 digits
  | '0' :: 'b' :: digits | '0' :: 'B' :: digits => based 2 digits
  | literal => decimal literal

/-- The integer that a text is as a number. -/
def integerOf (text : Text) : Option ℤ :=
  (number text).bind fun value => if value.den = 1 then some value.num else none

/-! ## Rounding -/

theorem roundEven_intCast (value : ℤ) : roundEven value = value := by
  simp [roundEven]

theorem sub_one_le_roundEven (value : ℚ) : value - 1 ≤ roundEven value := by
  have below := Int.lt_floor_add_one value
  simp only [roundEven]
  split
  · linarith
  · push_cast
    linarith

/-- A natural number below `2 ^ 53` is a double. -/
theorem toDouble_natCast {value : Nat} (small : value < 2 ^ 53) :
    toDouble (value : ℚ) = some (value : ℚ) := by
  have log : Nat.log 2 value ≤ 52 := by
    by_cases zero : value = 0
    · simp [zero]
    · exact Nat.le_of_lt_succ (Nat.log_lt_of_lt_pow zero small)
  have unit : spacing value = (2 ^ (52 - Nat.log 2 value) : ℚ)⁻¹ := by
    have exponent : max (Int.log 2 (value : ℚ)) (-1022) - 52 =
        -((52 - Nat.log 2 value : Nat) : ℤ) := by
      rw [Int.log_natCast]
      omega
    rw [spacing, exponent, zpow_neg, zpow_natCast]
  have whole : (value : ℚ) / spacing value =
      ((value * 2 ^ (52 - Nat.log 2 value) : Nat) : ℤ) := by
    rw [unit, div_inv_eq_mul]
    push_cast
    rfl
  have rounded : roundEven ((value : ℚ) / spacing value) * spacing value = (value : ℚ) := by
    rw [whole, roundEven_intCast, ← whole, div_mul_cancel₀]
    rw [unit]
    positivity
  have finite : (value : ℚ) < 2 ^ 1024 := by
    have bound : (value : ℚ) < 2 ^ 53 := by exact_mod_cast small
    exact bound.trans (pow_lt_pow_right₀ (by norm_num) (by decide))
  simp only [toDouble, rounded, if_pos finite]

/-- A greater one is not rounded to a small number. -/
theorem lt_of_toDouble {value : Nat} {double : ℚ} (large : 2 ^ 53 ≤ value)
    (found : toDouble (value : ℚ) = some double) : 32 < double := by
  have bound : (2 : ℚ) ^ 53 ≤ value := by exact_mod_cast large
  have positive : (0 : ℚ) < value := lt_of_lt_of_le (by norm_num) bound
  have unit : spacing value ≤ value / 2 := by
    have power := Int.zpow_log_le_self (b := 2) (by norm_num) positive
    have log : (0 : ℤ) ≤ Int.log 2 (value : ℚ) := by
      rw [Int.log_natCast]
      omega
    calc spacing value ≤ 2 ^ (Int.log 2 (value : ℚ) - 1) :=
          zpow_le_zpow_right₀ (by norm_num) (by omega)
      _ = 2 ^ Int.log 2 (value : ℚ) / 2 := zpow_sub_one₀ (by norm_num) _
      _ ≤ value / 2 := by
        push_cast at power
        linarith
  have small : 0 < spacing (value : ℚ) := by
    unfold spacing
    positivity
  simp only [toDouble, Option.ite_none_right_eq_some, Option.some.injEq] at found
  obtain ⟨-, rfl⟩ := found
  calc (32 : ℚ) < value / 2 := by linarith
    _ ≤ value - spacing value := by linarith
    _ = (value / spacing value - 1) * spacing value := by
      rw [sub_mul, div_mul_cancel₀ _ small.ne', one_mul]
    _ ≤ _ := mul_le_mul_of_nonneg_right (sub_one_le_roundEven _) small.le

/-! ## Digits -/

section Digits

variable {digits : Text} (each : digits.all Char.isDigit = true)
include each

theorem trim_digits : CoreWallet.trim digits = digits := by
  have visible : ∀ char ∈ digits, ¬ CoreWallet.isWhiteSpace char = true := by
    intro char member
    have digit := List.all_eq_true.mp each char member
    simp only [Char.isDigit, Bool.and_eq_true, decide_eq_true_eq, UInt32.le_iff_toNat_le] at digit
    simp only [CoreWallet.isWhiteSpace, Char.toNat]
    simp at digit ⊢
    omega
  have kept : ∀ {text : Text}, (∀ char ∈ text, ¬ CoreWallet.isWhiteSpace char = true) →
      text.dropWhile CoreWallet.isWhiteSpace = text := by
    intro text plain
    cases text with
    | nil => rfl
    | cons char rest => exact List.dropWhile_cons_of_neg (plain char List.mem_cons_self)
  rw [CoreWallet.trim, kept visible, kept fun char member =>
    visible char (List.mem_reverse.mp member), List.reverse_reverse]

variable (nonempty : digits ≠ [])
include nonempty

theorem decimal_digits : decimal digits = toDouble (Nat.ofDigitChars 10 digits 0 : ℚ) := by
  have digit := List.all_eq_true.mp each
  have unsigned : signed digits = (false, digits) := by
    unfold signed
    split
    · exact absurd (digit '-' List.mem_cons_self) (by decide)
    · exact absurd (digit '+' List.mem_cons_self) (by decide)
    · rfl
  have all : digits.takeWhile Char.isDigit = digits := List.takeWhile_eq_self_iff.mpr digit
  have none : digits.dropWhile Char.isDigit = [] := List.dropWhile_eq_nil_iff.mpr digit
  have kept : negateIf false = (id : ℚ → ℚ) := rfl
  simp [decimal, unsigned, all, none, fraction, exponent, nonempty, kept]

theorem number_digits : number digits = toDouble (Nat.ofDigitChars 10 digits 0 : ℚ) := by
  have digit := List.all_eq_true.mp each
  have second {char mark : Char} {rest : Text} (same : digits = char :: mark :: rest) :
      mark.isDigit = true := digit mark (by simp [same])
  unfold number
  rw [trim_digits each]
  split
  · exact absurd rfl nonempty
  any_goals exact absurd (second rfl) (by decide)
  exact decimal_digits each nonempty

/-- Decimal digits are read as the number they denote. -/
theorem integerOf_digits {value : ℤ} (small : value ≤ 32) :
    integerOf digits = some value ↔ value = Nat.ofDigitChars 10 digits 0 := by
  rw [integerOf, number_digits each nonempty]
  obtain exact | large := Nat.lt_or_ge (Nat.ofDigitChars 10 digits 0) (2 ^ 53)
  · rw [toDouble_natCast exact, Option.bind_some, if_pos (Rat.den_natCast _), Rat.num_natCast,
      Option.some.injEq, eq_comm]
  · constructor
    · intro read
      obtain ⟨double, found, whole⟩ := Option.bind_eq_some_iff.mp read
      have high := lt_of_toDouble large found
      split at whole
      · rename_i integral
        obtain rfl := Option.some.inj whole
        have same : (double.num : ℚ) = double := Rat.den_eq_one_iff _ |>.mp integral
        rw [← same] at high
        have : (32 : ℤ) < double.num := by exact_mod_cast high
        omega
      · cases whole
    · omega

end Digits

end CryptoVaultHub.NumberText
