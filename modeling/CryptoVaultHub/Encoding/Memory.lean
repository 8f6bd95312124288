import CryptoVaultHub.Encoding.Abi

/-!
# Byte-addressed memory

A memory holds a byte at each position. A store writes a byte string, a word as its 32
big-endian bytes. What is read after some stores that overlap is put together from the
pieces between them: a piece is read back from the last store that begins at it
(`slice_store`) and is not touched by stores behind it (`slice_store_of_le`).
-/

namespace CryptoVaultHub

abbrev Memory := Nat → UInt8

namespace Memory

/-- Write bytes from a position on. -/
def store (memory : Memory) (offset : Nat) (data : List UInt8) : Memory := fun position =>
  if offset ≤ position then (data[position - offset]?).getD (memory position) else memory position

/-- `mstore`. -/
def mstore (memory : Memory) (offset : Nat) (word : Abi.Word) : Memory :=
  memory.store offset (Abi.slot word.toNat)

/-- The bytes from a position on. -/
def slice (memory : Memory) (offset length : Nat) : List UInt8 :=
  (List.range' offset length).map memory

/-- `mload`. -/
def mload (memory : Memory) (offset : Nat) : Abi.Word :=
  BitVec.ofNat 256 (Abi.readBigEndian (memory.slice offset 32))

theorem slice_add (memory : Memory) (offset first second : Nat) :
    memory.slice offset (first + second) =
      memory.slice offset first ++ memory.slice (offset + first) second := by
  rw [slice, slice, slice, ← List.map_append, List.range'_append_1]

/-- A store leaves what is before it. -/
theorem slice_store_of_le {memory : Memory} {start offset length : Nat} {data : List UInt8}
    (before : offset + length ≤ start) :
    (memory.store start data).slice offset length = memory.slice offset length := by
  refine List.map_congr_left ?_
  intro position member
  obtain ⟨_, below⟩ := List.mem_range'_1.mp member
  exact if_neg (by omega)

/-- What was stored is read back from its beginning on. -/
theorem slice_store (memory : Memory) (offset : Nat) {data : List UInt8} {length : Nat}
    (inside : length ≤ data.length) :
    (memory.store offset data).slice offset length = data.take length := by
  refine List.ext_getElem ?_ ?_
  · simp [slice, inside]
  · intro index inSlice inData
    have within : index < data.length := by
      rw [List.length_take] at inData
      omega
    simp [slice, store, within]

end Memory

namespace Abi

/-- The leading bytes of a number are those of its quotient. -/
theorem bigEndian_add (width low value : Nat) :
    bigEndian (width + low) value = bigEndian width (value / 256 ^ low) ++ bigEndian low value := by
  induction low generalizing value with
  | zero => simp [bigEndian]
  | succ low ih =>
    have quotient : value / 256 ^ (low + 1) = value / 256 / 256 ^ low := by
      rw [Nat.pow_succ', Nat.div_div_eq_div_mul]
    rw [← Nat.add_assoc, bigEndian, ih, bigEndian, quotient, List.append_assoc]

/-- Numbers that fit are determined by their bytes. -/
theorem bigEndian_injective {width left right : Nat} (leftFits : left < 256 ^ width)
    (rightFits : right < 256 ^ width) (equal : bigEndian width left = bigEndian width right) :
    left = right := by
  rw [← readBigEndian_bigEndian leftFits, equal, readBigEndian_bigEndian rightFits]

end Abi

end CryptoVaultHub
