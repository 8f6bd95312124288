import CryptoVaultHub.Auth.ApiKeys
import CryptoVaultHub.Encoding.NumberText

/-!
# What an address list allows

An entry of a list should be an IPv4 address or a block with a decimal prefix length. The length is
read with `Number`, which also takes an empty text, blanks, signs, exponents and other bases; a
block without a length is one of length zero, which contains every address.
-/

namespace CryptoVaultHub.Auth.Cidr

open List

open NumberText (integerOf)

/-! ## Addresses -/

def decimalValue (text : Text) : Nat := Nat.ofDigitChars 10 text 0

structure IsDecimal (text : Text) : Prop where
  nonempty : text ≠ []
  digits : text.all Char.isDigit = true

/-- A dotted quad, and its address. -/
def Dotted (text : Text) (address : BitVec 32) : Prop :=
  ∃ first second third fourth : Text,
    text = ['.'].intercalate [first, second, third, fourth] ∧
    (∀ part ∈ [first, second, third, fourth], IsDecimal part ∧ decimalValue part ≤ 255) ∧
    address.toNat = ((decimalValue first * 256 + decimalValue second) * 256 +
      decimalValue third) * 256 + decimalValue fourth

theorem IsDecimal.not_mem {text : Text} {char : Char} (decimal : IsDecimal text)
    (other : char.isDigit = false) : char ∉ text := by
  intro member
  rw [all_eq_true.mp decimal.digits char member] at other
  cases other

theorem octet_eq_some_iff {part : Text} {value : BitVec 32} : octet part = some value ↔
    (IsDecimal part ∧ decimalValue part ≤ 255) ∧ BitVec.ofNat 32 (decimalValue part) = value := by
  rw [octet, Option.ite_none_right_eq_some, Option.some.injEq]
  exact and_congr_left fun _ => ⟨fun ⟨nonempty, digits, small⟩ => ⟨⟨nonempty, digits⟩, small⟩,
    fun ⟨⟨nonempty, digits⟩, small⟩ => ⟨nonempty, digits, small⟩⟩

/-- Four octets, one after the other. -/
theorem toNat_appendOctet {first second third fourth : Nat} (bounds : first ≤ 255 ∧ second ≤ 255 ∧
    third ≤ 255 ∧ fourth ≤ 255) :
    ([BitVec.ofNat 32 first, BitVec.ofNat 32 second, BitVec.ofNat 32 third,
      BitVec.ofNat 32 fourth].foldl appendOctet 0).toNat =
      ((first * 256 + second) * 256 + third) * 256 + fourth := by
  simp only [foldl_cons, foldl_nil, appendOctet, BitVec.toNat_add,
    BitVec.toNat_shiftLeft, BitVec.toNat_ofNat, Nat.shiftLeft_eq]
  omega

/-- What is read as an address is a dotted quad. -/
theorem ipToInt_eq_some_iff {text : Text} {address : BitVec 32} :
    ipToInt text = some address ↔ Dotted text address := by
  have read {first second third fourth : Text}
      (parts : text.splitOn '.' = [first, second, third, fourth]) :
      ipToInt text = some address ↔
        (∀ part ∈ [first, second, third, fourth], IsDecimal part ∧ decimalValue part ≤ 255) ∧
        address.toNat = ((decimalValue first * 256 + decimalValue second) * 256 +
          decimalValue third) * 256 + decimalValue fourth := by
    have four : ¬ [first, second, third, fourth].length ≠ 4 := by simp
    simp only [ipToInt, parts, if_neg four, mapM_cons, mapM_nil, Option.pure_def,
      Option.bind_eq_bind, Option.bind_eq_some_iff, Option.some.injEq, octet_eq_some_iff,
      forall_mem_cons]
    constructor
    · rintro ⟨_, ⟨_, ⟨d1, rfl⟩, _, ⟨_, ⟨d2, rfl⟩, _, ⟨_, ⟨d3, rfl⟩, _, ⟨_, ⟨d4, rfl⟩, _, rfl, rfl⟩,
        rfl⟩, rfl⟩, rfl⟩, rfl⟩
      exact ⟨⟨d1, d2, d3, d4, by simp⟩, toNat_appendOctet ⟨d1.2, d2.2, d3.2, d4.2⟩⟩
    · rintro ⟨⟨d1, d2, d3, d4, -⟩, value⟩
      refine ⟨_, ⟨_, ⟨d1, rfl⟩, _, ⟨_, ⟨d2, rfl⟩, _, ⟨_, ⟨d3, rfl⟩, _, ⟨_, ⟨d4, rfl⟩, _, rfl, rfl⟩,
        rfl⟩, rfl⟩, rfl⟩, BitVec.eq_of_toNat_eq ?_⟩
      exact (toNat_appendOctet ⟨d1.2, d2.2, d3.2, d4.2⟩).trans value.symm
  constructor
  · intro found
    have four : (text.splitOn '.').length = 4 := by
      by_contra other
      simp [ipToInt, other] at found
    obtain ⟨first, second, third, fourth, parts⟩ := length_eq_four.mp four
    obtain ⟨each, value⟩ := (read parts).mp found
    exact ⟨first, second, third, fourth, by rw [← parts, intercalate_splitOn], each, value⟩
  · rintro ⟨first, second, third, fourth, joined, each, value⟩
    refine (read ?_).mpr ⟨each, value⟩
    rw [joined]
    exact splitOn_intercalate '.' (fun part member => (each part member).1.not_mem rfl)
      (by simp)

/-- A dotted quad is one part of an entry. -/
theorem Dotted.splitOn {text : Text} {address : BitVec 32} (dotted : Dotted text address) :
    text.splitOn '/' = [text] := by
  obtain ⟨first, second, third, fourth, rfl, each, -⟩ := dotted
  have plain : '/' ∉ ['.'].intercalate [first, second, third, fourth] := by
    intro member
    simp only [List.intercalate, intersperse_cons_cons, intersperse_singleton,
      mem_flatten, mem_cons, not_mem_nil, or_false] at member
    obtain ⟨part, inside, slash⟩ := member
    have others : part = ['.'] ∨ part ∈ [first, second, third, fourth] := by
      simp only [mem_cons, not_mem_nil, or_false]
      tauto
    obtain rfl | octet := others
    · exact absurd slash (by decide)
    · exact (each part octet).1.not_mem rfl slash
  have whole : ∀ part ∈ [['.'].intercalate [first, second, third, fourth]], '/' ∉ part := by
    simpa using plain
  simpa using splitOn_intercalate '/' whole (by simp)

/-! ## Entries -/

def isValidIpOrCidr (number : NumberOf) (value : Text) : Bool :=
  let parts := value.splitOn '/'
  if value = [] ∨ 2 < parts.length then false
  else
    let address := if parts.length = 2 then parts.getD 0 [] else value
    let prefixText := if parts.length = 2 then parts.getD 1 [] else "32".toList
    match number prefixText with
    | none => false
    | some length => decide (0 ≤ length ∧ length ≤ 32) && (ipToInt address).isSome

/-- The address of an entry, or a decimal block of it, contains an address. -/
inductive Covers (address : BitVec 32) (entry : Text) : Prop where
  | same (dotted : Dotted entry address)
  | block (base lengthText : Text) (start : BitVec 32)
      (parts : entry.splitOn '/' = [base, lengthText]) (decimal : IsDecimal lengthText)
      (short : decimalValue lengthText ≤ 32) (dotted : Dotted base start)
      (within : SameBlock (decimalValue lengthText) address start)

/-- The length of a block is no decimal text, and the block that is read contains an address. -/
def CoversLoosely (address : BitVec 32) (entry : Text) : Prop :=
  ∃ (base lengthText : Text) (start : BitVec 32) (length : Nat),
    entry.splitOn '/' = [base, lengthText] ∧ ¬ IsDecimal lengthText ∧
    integerOf lengthText = some (length : ℤ) ∧ length ≤ 32 ∧ Dotted base start ∧
    SameBlock length address start

/-- When the parts of an entry match. -/
theorem entryMatches_read {number : NumberOf} {ip entry base lengthText : Text}
    (short : ¬ 2 < (entry.splitOn '/').length)
    (isBase : (if (entry.splitOn '/').length = 2 then (entry.splitOn '/').getD 0 [] else entry) =
      base)
    (isLength : (if (entry.splitOn '/').length = 2 then (entry.splitOn '/').getD 1 []
      else "32".toList) = lengthText) :
    entryMatches number ip entry = true ↔ ∃ (address start : BitVec 32) (length : Nat),
      Dotted ip address ∧ number lengthText = some (length : ℤ) ∧ length ≤ 32 ∧
      Dotted base start ∧ SameBlock length address start := by
  simp only [entryMatches, if_neg short, isBase, isLength, ← ipToInt_eq_some_iff]
  constructor
  · intro found
    split at found
    · cases found
    · rename_i value read
      split at found
      · cases found
      · rename_i inRange
        split at found
        · rename_i address start isAddress isStart
          obtain ⟨length, rfl⟩ := Int.eq_ofNat_of_zero_le (by omega : 0 ≤ value)
          refine ⟨address, start, length, isAddress, read, by omega, isStart, ?_⟩
          split at found
          · rename_i zero
            intro index high
            omega
          · exact mask_eq_iff.mp (of_decide_eq_true found)
        · cases found
  · rintro ⟨address, start, length, isAddress, read, bound, isStart, same⟩
    have inRange : ¬ ((length : ℤ) < 0 ∨ 32 < (length : ℤ)) := by omega
    simp only [read, if_neg inRange, isAddress, isStart]
    split
    · rfl
    · exact decide_eq_true (mask_eq_iff.mpr same)

theorem sameBlock_full {first second : BitVec 32} : SameBlock 32 first second ↔ first = second :=
  ⟨fun same => BitVec.eq_of_getLsbD_eq fun index high => same index (by omega) high,
    fun equal _ _ _ => by rw [equal]⟩

/-- An entry matches the addresses that it contains, and those that it contains when its length is
read loosely. -/
theorem entryMatches_iff {ip entry : Text} : entryMatches integerOf ip entry = true ↔
    ∃ address, Dotted ip address ∧ (Covers address entry ∨ CoversLoosely address entry) := by
  by_cases many : 2 < (entry.splitOn '/').length
  · have refused : entryMatches integerOf ip entry = false := by
      simp only [entryMatches, if_pos many]
    simp only [refused, Bool.false_eq_true, false_iff]
    rintro ⟨address, -, (dotted | ⟨base, text, start, parts, _⟩) | ⟨base, text, start, _, parts, _⟩⟩
    · rw [dotted.splitOn] at many
      exact absurd many (by simp)
    all_goals
      rw [parts] at many
      exact absurd many (by simp)
  · by_cases block : (entry.splitOn '/').length = 2
    · obtain ⟨base, text, parts⟩ := length_eq_two.mp block
      rw [@entryMatches_read integerOf ip entry base text many (by rw [if_pos block, parts]; rfl)
        (by rw [if_pos block, parts]; rfl)]
      constructor
      · rintro ⟨address, start, length, isAddress, read, bound, isStart, same⟩
        refine ⟨address, isAddress, ?_⟩
        by_cases decimal : IsDecimal text
        · have value : (length : ℤ) = (decimalValue text : ℤ) :=
            (NumberText.integerOf_digits decimal.digits decimal.nonempty (by omega)).mp read
          obtain rfl : length = decimalValue text := by omega
          exact .inl (.block base text start parts decimal bound isStart same)
        · exact .inr ⟨base, text, start, length, parts, decimal, read, bound, isStart, same⟩
      · rintro ⟨address, isAddress, (dotted | ⟨other, digits, start, split, decimal, short, isStart,
          same⟩) | ⟨other, digits, start, length, split, -, read, bound, isStart, same⟩⟩
        · cases parts.symm.trans dotted.splitOn
        · cases parts.symm.trans split
          exact ⟨address, start, _, isAddress, (NumberText.integerOf_digits decimal.digits
            decimal.nonempty (by exact_mod_cast short)).mpr rfl, short, isStart, same⟩
        · cases parts.symm.trans split
          exact ⟨address, start, length, isAddress, read, bound, isStart, same⟩
    · have full : integerOf "32".toList = some ((32 : Nat) : ℤ) :=
        (NumberText.integerOf_digits (by decide) (by decide) (by decide)).mpr (by decide)
      rw [entryMatches_read many (if_neg block) (if_neg block)]
      constructor
      · rintro ⟨address, start, length, isAddress, read, -, isStart, same⟩
        obtain rfl : 32 = length := Int.ofNat.inj (Option.some.inj (full.symm.trans read))
        obtain rfl := sameBlock_full.mp same
        exact ⟨address, isAddress, .inl (.same isStart)⟩
      · rintro ⟨address, isAddress, (dotted | ⟨_, _, _, parts, _⟩) | ⟨_, _, _, _, parts, _⟩⟩
        · exact ⟨address, address, 32, isAddress, full, Nat.le_refl _, dotted,
            sameBlock_full.mpr rfl⟩
        all_goals exact absurd (congrArg List.length parts) block

/-! ## Lists -/

/-- The address of a request is a dotted quad that some entry contains. -/
def Allowed (requestIp : Text) (entries : List Text) : Prop :=
  ∃ address, Dotted (normalizeIp requestIp) address ∧ ∃ entry ∈ entries, Covers address entry

/-- A list matches a request that it allows, and one that an entry contains loosely. -/
theorem matchesAllowlist_iff {requestIp : Text} {entries : List Text} (nonempty : entries ≠ []) :
    matchesAllowlist integerOf (some requestIp) (some entries) = true ↔
      Allowed requestIp entries ∨ ∃ address, Dotted (normalizeIp requestIp) address ∧
        ∃ entry ∈ entries, CoversLoosely address entry := by
  have list : matchesAllowlist integerOf (some requestIp) (some entries) = true ↔
      ∃ entry ∈ entries, entryMatches integerOf (normalizeIp requestIp) entry = true := by
    obtain ⟨first, rest, rfl⟩ := exists_cons_of_ne_nil nonempty
    cases requestIp with
    | nil =>
      have blank : normalizeIp [] = [] := rfl
      simp only [matchesAllowlist, Bool.false_eq_true, blank, entryMatches_iff, false_iff]
      rintro ⟨_, _, _, ⟨first, second, third, fourth, empty, _⟩, _⟩
      simp [List.intercalate] at empty
    | cons char text => exact any_eq_true
  rw [list]
  simp only [entryMatches_iff, Allowed]
  constructor
  · rintro ⟨entry, member, address, isAddress, covers | loosely⟩
    · exact .inl ⟨address, isAddress, entry, member, covers⟩
    · exact .inr ⟨address, isAddress, entry, member, loosely⟩
  · rintro (⟨address, isAddress, entry, member, covers⟩ |
      ⟨address, isAddress, entry, member, loosely⟩)
    · exact ⟨entry, member, address, isAddress, .inl covers⟩
    · exact ⟨entry, member, address, isAddress, .inr loosely⟩

/-- A list matches the requests that it allows and no others if and only if it allows the request,
or no block contains it because its length is read loosely. -/
theorem allowlist_exact_iff (requestIp : Text) {entries : List Text} (nonempty : entries ≠ []) :
    (matchesAllowlist integerOf (some requestIp) (some entries) = true ↔
        Allowed requestIp entries) ↔
      Allowed requestIp entries ∨ ∀ address, Dotted (normalizeIp requestIp) address →
        ∀ entry ∈ entries, ¬ CoversLoosely address entry := by
  rw [matchesAllowlist_iff nonempty]
  constructor
  · intro exact
    by_cases allowed : Allowed requestIp entries
    · exact .inl allowed
    · refine .inr fun address isAddress entry member loosely => allowed ?_
      exact exact.mp (.inr ⟨address, isAddress, entry, member, loosely⟩)
  · rintro (allowed | strict)
    · exact iff_of_true (.inl allowed) allowed
    · refine or_iff_left ?_
      rintro ⟨address, isAddress, entry, member, loosely⟩
      exact strict address isAddress entry member loosely

/-! ## Samples -/

/-- 10.0.0.0. -/
def sampleBlock : Text := "10.0.0.0".toList

theorem allowed_sample : Allowed "::ffff:10.0.0.0".toList [sampleBlock] := by
  have dotted : Dotted sampleBlock 0x0a000000 := ipToInt_eq_some_iff.mp (by decide +kernel)
  have normal : normalizeIp "::ffff:10.0.0.0".toList = sampleBlock := by decide +kernel
  exact ⟨0x0a000000, by rwa [normal], sampleBlock, mem_singleton.mpr rfl, .same dotted⟩

theorem allowlist_exact_sample :
    matchesAllowlist integerOf (some "::ffff:10.0.0.0".toList) (some [sampleBlock]) = true ↔
      Allowed "::ffff:10.0.0.0".toList [sampleBlock] :=
  (@allowlist_exact_iff "::ffff:10.0.0.0".toList [sampleBlock] (by decide)).mpr
    (.inl allowed_sample)

/-- A block without a length is valid, and matches every address. -/
theorem allowlist_not_exact :
    isValidIpOrCidr integerOf "10.0.0.0/".toList = true ∧
      matchesAllowlist integerOf (some "8.8.8.8".toList) (some ["10.0.0.0/".toList]) = true ∧
      ¬ Allowed "8.8.8.8".toList ["10.0.0.0/".toList] := by
  refine ⟨by decide +kernel, by decide +kernel, ?_⟩
  have parts : "10.0.0.0/".toList.splitOn '/' = [sampleBlock, []] := by decide +kernel
  rintro ⟨address, -, entry, member, covers⟩
  cases mem_singleton.mp member
  rcases covers with dotted | ⟨base, text, start, split, decimal, -⟩
  · cases parts.symm.trans dotted.splitOn
  · cases parts.symm.trans split
    exact decimal.nonempty rfl

end CryptoVaultHub.Auth.Cidr
