import CryptoVaultHub.Encoding.Abi

/-!
# Decoding argument lists

A strict decoder reads the words of an argument only where the data holds them. It returns what
`Abi.encode` put there (`decodeWord_encode`, `decodeWords_encode`), whatever the other arguments
are.
-/

namespace CryptoVaultHub.Abi

/-- The word of an argument, or of a length. -/
def decodeWord (index : Nat) (data : List UInt8) : Option Word :=
  if data.length < 32 * (index + 1) then none
  else some (BitVec.ofNat 256 (readSlot (data.drop (32 * index))))

/-- The words of an array argument; its offset has at most 64 bits. -/
def decodeWords (index : Nat) (data : List UInt8) : Option (List Word) := do
  let offset ← decodeWord index data
  let count ← decodeWord 0 (data.drop offset.toNat)
  if 2 ^ 64 ≤ offset.toNat ∨ data.length < offset.toNat + 32 + 32 * count.toNat then none
  else some (readWords count.toNat (data.drop (offset.toNat + 32)))

/-! ## Decoding what was encoded -/

theorem decodeWord_slot {value : Nat} (fits : value < 2 ^ 256) {before : List UInt8}
    {index : Nat} (at_ : before.length = 32 * index) (rest : List UInt8) :
    decodeWord index (before ++ (slot value ++ rest)) = some (BitVec.ofNat 256 value) := by
  have enough : ¬ (before ++ (slot value ++ rest)).length < 32 * (index + 1) := by
    simp only [List.length_append, length_slot, at_]
    omega
  rw [decodeWord, if_neg enough, List.drop_left' at_, readSlot_append fits]

/-- The slot of an argument in an encoded list. -/
theorem encode_split (before : List Value) (value : Value) (after : List Value) :
    ∃ front rest, front.length = 32 * before.length ∧
      encode (before ++ value :: after) = front ++
        (value.head (32 * (before ++ value :: after).length + (tails before).length) ++ rest) := by
  refine ⟨heads (32 * (before ++ value :: after).length) before,
    heads (32 * (before ++ value :: after).length + (tails before).length +
      value.tail.length) after ++ tails (before ++ value :: after), length_heads _ _, ?_⟩
  rw [encode, heads_append]
  simp [heads]

theorem decodeWord_encode (before after : List Value) (value : Word) :
    decodeWord before.length (encode (before ++ .static value :: after)) = some value := by
  obtain ⟨front, rest, at_, split⟩ := encode_split before (.static value) after
  rw [split, Value.head, decodeWord_slot value.isLt at_, BitVec.ofNat_toNat, BitVec.setWidth_eq]

/-- The offset and the count of an array, and then its items. -/
theorem decodeWords_slots {data rest : List UInt8} {index offset : Nat} {items : List Word}
    (head : decodeWord index data = some (BitVec.ofNat 256 offset)) (near : offset < 2 ^ 64)
    (tail : data.drop offset = slot items.length ++ (encodeWords items ++ rest))
    (few : items.length < 2 ^ 256) : decodeWords index data = some items := by
  have fits : offset < 2 ^ 256 := near.trans (by decide)
  have offsetWord : (BitVec.ofNat 256 offset).toNat = offset := by
    rw [BitVec.toNat_ofNat, Nat.mod_eq_of_lt fits]
  have countWord : (BitVec.ofNat 256 items.length).toNat = items.length := by
    rw [BitVec.toNat_ofNat, Nat.mod_eq_of_lt few]
  have count : decodeWord 0 (data.drop offset) = some (BitVec.ofNat 256 items.length) := by
    have read := @decodeWord_slot _ few [] 0 rfl (encodeWords items ++ rest)
    rwa [List.nil_append, ← tail] at read
  have room := congrArg List.length tail
  simp only [List.length_drop, List.length_append, length_slot, length_encodeWords] at room
  have bounds : ¬ (2 ^ 64 ≤ offset ∨ data.length < offset + 32 + 32 * items.length) := by
    omega
  simp only [decodeWords, head, Option.bind_eq_bind, Option.bind_some, offsetWord, count,
    countWord]
  rw [if_neg bounds, ← List.drop_drop, tail, drop_slot, readWords_encodeWords]

theorem decodeWords_encode {before after : List Value} {items : List Word}
    (near : 32 * (before ++ Value.words items :: after).length + (tails before).length < 2 ^ 64)
    (few : items.length < 2 ^ 256) :
    decodeWords before.length (encode (before ++ .words items :: after)) = some items := by
  obtain ⟨front, rest, at_, split⟩ := encode_split before (.words items) after
  have tail := drop_tail before (.words items) after
  simp only [Value.tail, List.append_assoc] at tail
  rw [Value.head] at split
  have head := decodeWord_slot (near.trans (by decide)) at_ rest
  rw [← split] at head
  exact decodeWords_slots head near tail few

end CryptoVaultHub.Abi
