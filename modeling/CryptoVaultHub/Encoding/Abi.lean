import Mathlib

/-!
# Head and tail encoding of argument lists

The standard contract ABI encodes an argument list as one 32-byte head slot for
each argument followed by the tails of the dynamic ones; the head slot of a
dynamic argument holds the byte offset of its tail. `readValue` reads a single
argument back from its slot. `readValue_encode` says that it returns exactly
what was encoded there whatever the other arguments are, so that encodings of
one shape are injective (`encode_injective`) and encodings of different shapes
can be told apart by a slot they share (`encode_slot`).
-/

namespace CryptoVaultHub.Abi

/-! ## Big-endian numbers -/

/-- The low `width` bytes of a number, most significant first. -/
def bigEndian : Nat → Nat → List UInt8
  | 0, _ => []
  | width + 1, value => bigEndian width (value / 256) ++ [UInt8.ofNat (value % 256)]

/-- The number a byte sequence denotes, most significant byte first. -/
def readBigEndian (data : List UInt8) : Nat :=
  data.foldl (fun value byte => value * 256 + byte.toNat) 0

@[simp] theorem length_bigEndian (width value : Nat) : (bigEndian width value).length = width := by
  induction width generalizing value with
  | zero => rfl
  | succ width ih => simp [bigEndian, ih]

theorem readBigEndian_append_singleton (data : List UInt8) (byte : UInt8) :
    readBigEndian (data ++ [byte]) = readBigEndian data * 256 + byte.toNat := by
  simp [readBigEndian]

/-- Reading back a number that fits its width. -/
theorem readBigEndian_bigEndian {width value : Nat} (fits : value < 256 ^ width) :
    readBigEndian (bigEndian width value) = value := by
  induction width generalizing value with
  | zero =>
    have zero : value = 0 := by simpa using fits
    subst zero
    rfl
  | succ width ih =>
    have quotient : value / 256 < 256 ^ width := by
      rw [Nat.pow_succ] at fits
      exact Nat.div_lt_of_lt_mul (by omega)
    rw [bigEndian, readBigEndian_append_singleton, ih quotient]
    have byte : (UInt8.ofNat (value % 256)).toNat = value % 256 := by
      simp
    rw [byte]
    omega

/-! ## Words and values -/

/-- A 32-byte machine word. -/
abbrev Word := BitVec 256

/-- The slot of a number: 32 bytes, big-endian. -/
def slot (value : Nat) : List UInt8 := bigEndian 32 value

/-- The number in the leading slot of a byte sequence. -/
def readSlot (data : List UInt8) : Nat := readBigEndian (data.take 32)

@[simp] theorem length_slot (value : Nat) : (slot value).length = 32 := length_bigEndian 32 value

/-- The leading slot is read back whatever follows it. -/
theorem readSlot_append {value : Nat} (fits : value < 2 ^ 256) (rest : List UInt8) :
    readSlot (slot value ++ rest) = value := by
  have taken : (slot value ++ rest).take 32 = slot value :=
    List.take_left' (length_slot value)
  rw [readSlot, taken, slot]
  exact readBigEndian_bigEndian (by simpa using fits)

theorem drop_slot (value : Nat) (rest : List UInt8) : (slot value ++ rest).drop 32 = rest :=
  List.drop_left' (length_slot value)

/-- The arguments this encoding covers: a static word, a byte string (`bytes`, or
`string` by its UTF-8 bytes), and an array of static words. -/
inductive Value where
  | static (value : Word)
  | bytes (data : List UInt8)
  | words (items : List Word)
deriving DecidableEq

/-- The layout of an argument. -/
inductive Kind where
  | static
  | bytes
  | words
deriving DecidableEq

def Value.kind : Value → Kind
  | .static _ => .static
  | .bytes _ => .bytes
  | .words _ => .words

/-- Zero bytes up to the next multiple of 32. -/
def padding (length : Nat) : List UInt8 := List.replicate ((32 - length % 32) % 32) 0

/-- Words one after another. -/
def encodeWords : List Word → List UInt8
  | [] => []
  | item :: rest => slot item.toNat ++ encodeWords rest

/-- The out-of-line part of an argument. -/
def Value.tail : Value → List UInt8
  | .static _ => []
  | .bytes data => slot data.length ++ (data ++ padding data.length)
  | .words items => slot items.length ++ encodeWords items

/-- The head slot of an argument whose tail starts at `offset`. -/
def Value.head (offset : Nat) : Value → List UInt8
  | .static value => slot value.toNat
  | .bytes _ | .words _ => slot offset

/-- The head slots, the next tail starting at `offset`. -/
def heads : Nat → List Value → List UInt8
  | _, [] => []
  | offset, value :: rest => value.head offset ++ heads (offset + value.tail.length) rest

/-- The tails, in order. -/
def tails (values : List Value) : List UInt8 := values.flatMap Value.tail

/-- The encoding of an argument list. -/
def encode (values : List Value) : List UInt8 :=
  heads (32 * values.length) values ++ tails values

@[simp] theorem length_head (offset : Nat) (value : Value) : (value.head offset).length = 32 := by
  cases value <;> simp [Value.head]

@[simp] theorem length_heads (offset : Nat) (values : List Value) :
    (heads offset values).length = 32 * values.length := by
  induction values generalizing offset with
  | nil => rfl
  | cons value rest ih =>
    simp [heads, ih]
    omega

@[simp] theorem length_encodeWords (items : List Word) :
    (encodeWords items).length = 32 * items.length := by
  induction items with
  | nil => rfl
  | cons item rest ih =>
    simp [encodeWords, ih]
    omega

theorem length_encode (values : List Value) :
    (encode values).length = 32 * values.length + (tails values).length := by
  simp [encode]

theorem heads_append (offset : Nat) (first rest : List Value) :
    heads offset (first ++ rest) =
      heads offset first ++ heads (offset + (tails first).length) rest := by
  induction first generalizing offset with
  | nil => simp [heads, tails]
  | cons value first ih =>
    simp [heads, ih, tails, Nat.add_assoc]

/-- A tail has room for its length slot, its data and less than a slot of padding. -/
theorem length_tail_bytes_le (data : List UInt8) :
    (Value.bytes data).tail.length ≤ 64 + data.length := by
  simp [Value.tail, padding]
  omega

/-! ## Reading a value back -/

/-- As many words as a length slot announced. -/
def readWords : Nat → List UInt8 → List Word
  | 0, _ => []
  | count + 1, data => BitVec.ofNat 256 (readSlot data) :: readWords count (data.drop 32)

/-- Read the argument in one slot of an encoded list. -/
def readValue (kind : Kind) (index : Nat) (data : List UInt8) : Value :=
  let head := readSlot (data.drop (32 * index))
  let tail := data.drop head
  match kind with
  | .static => .static (BitVec.ofNat 256 head)
  | .bytes => .bytes ((tail.drop 32).take (readSlot tail))
  | .words => .words (readWords (readSlot tail) (tail.drop 32))

theorem readWords_encodeWords (items : List Word) (rest : List UInt8) :
    readWords items.length (encodeWords items ++ rest) = items := by
  induction items with
  | nil => rfl
  | cons item items ih =>
    have read : readSlot (slot item.toNat ++ (encodeWords items ++ rest)) = item.toNat :=
      readSlot_append item.isLt _
    simp [readWords, encodeWords, read, ih]

/-- The tail of an argument starts where its head slot says. -/
theorem drop_tail (before : List Value) (value : Value) (after : List Value) :
    (encode (before ++ value :: after)).drop
        (32 * (before ++ value :: after).length + (tails before).length) =
      value.tail ++ tails after := by
  have front : encode (before ++ value :: after) =
      (heads (32 * (before ++ value :: after).length) (before ++ value :: after) ++ tails before) ++
        (value.tail ++ tails after) := by
    simp [encode, tails]
  rw [front]
  exact List.drop_left' (by simp)

/-- The head slot of an argument is at its index. -/
theorem drop_head (before : List Value) (value : Value) (after : List Value) :
    ∃ rest, (encode (before ++ value :: after)).drop (32 * before.length) =
      value.head (32 * (before ++ value :: after).length + (tails before).length) ++ rest := by
  refine ⟨heads (32 * (before ++ value :: after).length + (tails before).length +
    value.tail.length) after ++ tails (before ++ value :: after), ?_⟩
  rw [encode, heads_append, List.append_assoc]
  rw [List.drop_left' (length_heads _ before)]
  simp [heads]

/-- An argument is read back from its slot, whatever stands around it. -/
theorem readValue_encode {before after : List Value} {value : Value}
    (bounded : (encode (before ++ value :: after)).length < 2 ^ 256) :
    readValue value.kind before.length (encode (before ++ value :: after)) = value := by
  obtain ⟨rest, headAt⟩ := drop_head before value after
  have tailAt := drop_tail before value after
  have size := length_encode (before ++ value :: after)
  have tailSizes : (tails (before ++ value :: after)).length =
      (tails before).length + (value.tail.length + (tails after).length) := by
    simp [tails]
  have offsetBound :
      32 * (before ++ value :: after).length + (tails before).length < 2 ^ 256 := by omega
  have tailBound : value.tail.length < 2 ^ 256 := by omega
  unfold readValue
  cases value with
  | static value =>
    have read := readSlot_append value.isLt rest
    simp only [Value.head] at headAt
    simp only [Value.kind, headAt, read, BitVec.ofNat_toNat, BitVec.setWidth_eq]
  | bytes data =>
    have lengthBound : data.length < 2 ^ 256 := by
      simp [Value.tail] at tailBound
      omega
    have read := readSlot_append offsetBound rest
    have readLength := readSlot_append lengthBound
      ((data ++ padding data.length) ++ tails after)
    simp only [Value.head] at headAt
    simp only [Value.tail, List.append_assoc] at tailAt readLength
    simp only [Value.kind, headAt, read, tailAt, readLength, drop_slot]
    rw [List.take_left' rfl]
  | words items =>
    have lengthBound : items.length < 2 ^ 256 := by
      simp [Value.tail] at tailBound
      omega
    have read := readSlot_append offsetBound rest
    have readLength := readSlot_append lengthBound (encodeWords items ++ tails after)
    simp only [Value.head] at headAt
    simp only [Value.tail, List.append_assoc] at tailAt
    simp only [Value.kind, headAt, read, tailAt, readLength, drop_slot, readWords_encodeWords]

/-- Every argument of an encoded list is read back from its slot. -/
theorem readValue_getElem {values : List Value} (bounded : (encode values).length < 2 ^ 256)
    {index : Nat} (inside : index < values.length) :
    readValue values[index].kind index (encode values) = values[index] := by
  have split : values.take index ++ values[index] :: values.drop (index + 1) = values := by simp
  have aroundBounded :
      (encode (values.take index ++ values[index] :: values.drop (index + 1))).length < 2 ^ 256 := by
    rwa [split]
  have read := readValue_encode aroundBounded
  rwa [split, List.length_take_of_le (Nat.le_of_lt inside)] at read

/-- Two encoded lists agree on every slot where their layouts do. -/
theorem encode_slot {left right : List Value} (equal : encode left = encode right)
    (bounded : (encode left).length < 2 ^ 256) {index : Nat} {first second : Value}
    (atLeft : left[index]? = some first) (atRight : right[index]? = some second)
    (kinds : first.kind = second.kind) : first = second := by
  obtain ⟨inLeft, rfl⟩ := List.getElem?_eq_some_iff.mp atLeft
  obtain ⟨inRight, rfl⟩ := List.getElem?_eq_some_iff.mp atRight
  rw [← readValue_getElem bounded inLeft, ← readValue_getElem (equal ▸ bounded) inRight, equal,
    kinds]

/-- Encodings of one layout are injective. -/
theorem encode_injective {left right : List Value} (equal : encode left = encode right)
    (bounded : (encode left).length < 2 ^ 256)
    (kinds : left.map Value.kind = right.map Value.kind) : left = right := by
  have sameLength : left.length = right.length := by
    simpa using congrArg List.length kinds
  refine List.ext_getElem sameLength fun index inLeft inRight => ?_
  refine encode_slot equal bounded (List.getElem?_eq_getElem inLeft)
    (List.getElem?_eq_getElem inRight) ?_
  have atIndex := congrArg (fun layout => layout[index]?) kinds
  simpa [inLeft, inRight] using atIndex

end CryptoVaultHub.Abi
