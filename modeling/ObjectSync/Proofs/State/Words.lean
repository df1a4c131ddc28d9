import ObjectSync.Proofs.State.Elements

/-!
# Words of an encoded part

An encoded part announces spans, and its data are a word for each of their blocks
(`EncodedPart.entries?`). Where a field begins with a block, the words behind it are its elements: a
word for each element of 32 bits (`Record.Sound.lookup_word`), and a word for every two elements of 16
bits, the first of them low (`Record.Sound.lookup_pair`).
-/

namespace ObjectSync

/-- The blocks of the spans with their words, if the data are a word for each of them. -/
def EncodedPart.entries? (part : EncodedPart) : Option (List (Nat × UInt32)) :=
  let blocks := part.spans.flatMap Span.blocks
  match (Reader.u32.times blocks.length).run part.data with
  | some (words, []) => some (blocks.zip words)
  | _ => none

/-- Two half words as one word, the first of them low. -/
def pairWord (low high : UInt16) : UInt32 := low.toUInt32 ||| high.toUInt32 <<< 16

theorem testBit_pairWord (low high : UInt16) {t : Nat} (ht : t < blockBits) :
    (pairWord low high).toNat.testBit t =
      if t < 16 then low.toNat.testBit t else high.toNat.testBit (t - 16) := by
  have hhigh : ((16 : UInt32).toNat % 32) = 16 := rfl
  rw [pairWord, UInt32.toNat_or, UInt32.toNat_shiftLeft, UInt16.toNat_toUInt32,
    UInt16.toNat_toUInt32, hhigh, Nat.testBit_or, Nat.testBit_mod_two_pow, Nat.testBit_shiftLeft,
    decide_eq_true (show t < 32 from ht), Bool.true_and]
  split
  · next hlow => rw [decide_eq_false (by omega), Bool.false_and, Bool.or_false]
  · next hlow =>
    have hpow : 2 ^ 16 ≤ 2 ^ t := Nat.pow_le_pow_right (by decide) (by omega)
    rw [Nat.testBit_lt_two_pow (Nat.lt_of_lt_of_le low.toNat_lt hpow),
      decide_eq_true (show t ≥ 16 by omega), Bool.false_or, Bool.true_and]

theorem testBit_toUInt16 (bits : UInt64) {t : Nat} (ht : t < 16) :
    bits.toUInt16.toNat.testBit t = bits.toNat.testBit t := by
  rw [UInt64.toNat_toUInt16, Nat.testBit_mod_two_pow, decide_eq_true ht, Bool.true_and]

namespace Record.Sound

variable {record : Record} {onlyDirty : Bool} {p : Placement} {k i j block : Nat}

/-- What is encoded are the words of the chosen sections. -/
theorem entries?_encode (h : record.Sound) (onlyDirty : Bool) :
    (record.encode onlyDirty).entries? = some (record.entries onlyDirty) := by
  have hlaid := h.laid onlyDirty
  have hblocks : (record.encode onlyDirty).spans.flatMap Span.blocks =
      (record.entries onlyDirty).map Prod.fst := by
    rw [entries, hlaid.map_fst_entries, encode_eq, EncodedPart.ofStretches, List.flatMap_map]
  have hdata : (record.encode onlyDirty).data =
      ((record.entries onlyDirty).map Prod.snd).flatMap Bytes.u32 := by
    rw [entries, hlaid.map_snd_entries, encode_eq, EncodedPart.ofStretches,
      Stretch.flatMap_bytes]
  have hreads : Reads (Reader.u32.times ((record.entries onlyDirty).map Prod.snd).length)
      (((record.entries onlyDirty).map Prod.snd).flatMap Bytes.u32)
      ((record.entries onlyDirty).map Prod.snd) := Reads.times fun w _ => Reads.u32 w
  have hrun := hreads []
  rw [List.append_nil, List.length_map] at hrun
  rw [EncodedPart.entries?]
  simp only [hblocks, hdata, List.length_map, hrun]
  exact congrArg some (List.zip_of_prod rfl rfl).symm

/-- A bit of an element of a section that is sent. -/
theorem receivedBit_element (h : record.Sound) (hk : record.schema.placement? k = some p)
    (hhome : p.home = some i) (hsends : record.Sends onlyDirty i) (hj : j < p.field.length.toNat)
    {t : Nat} (ht : t < p.field.kind.bits) :
    receivedBit (record.entries onlyDirty) (p.offset.toNat + j * p.field.kind.bits + t) =
      (record.bitsAt k j).toNat.testBit t := by
  rw [receivedBit_of_receivedBits (receivedBits_eq h hk hhome hsends hj) ht,
    Nat.testBit_mod_two_pow, decide_eq_true ht, Bool.true_and]

/-- The blocks of a field of a section that is sent arrive. -/
theorem mem_blocks_of_field (h : record.Sound) (hk : record.schema.placement? k = some p)
    (hhome : p.home = some i) (hsends : record.Sends onlyDirty i)
    (hfirst : p.offset.toNat ≤ block * blockBits)
    (hlast : block * blockBits < p.offset.toNat + p.field.room) :
    block ∈ (record.entries onlyDirty).map Prod.fst := by
  have hi := List.getElem?_eq_getElem hsends.1
  obtain ⟨hstart, hstop⟩ := (h.schema.arranged.gathered i _ hi).inside p
    (List.mem_of_getElem? hk) hhome
  refine (mem_map_fst_entries h).2 ⟨i, _, hi, hsends, ?_, ?_⟩
  · exact Nat.le_of_mul_le_mul_right (Nat.le_trans hstart hfirst) (by decide)
  · exact Nat.lt_of_mul_lt_mul_right (Nat.lt_of_lt_of_le hlast hstop)

/-- An element of 32 bits is a word. -/
theorem lookup_word (h : record.Sound) (hk : record.schema.placement? k = some p)
    (hhome : p.home = some i) (hsends : record.Sends onlyDirty i)
    (hbits : p.field.kind.bits = blockBits) (hoffset : p.offset.toNat = block * blockBits)
    (hj : j < p.field.length.toNat) :
    (record.entries onlyDirty).lookup (block + j) = some (record.bitsAt k j).toUInt32 := by
  have hplace : (block + j) * blockBits = p.offset.toNat + j * p.field.kind.bits := by
    rw [Nat.add_mul, hoffset, hbits]
  have hroom : p.field.room = p.field.length.toNat * blockBits := by
    rw [Field.room, hbits, Nat.mul_comm]
  refine lookup_eq_some_of_bits (h.pairwise_entries onlyDirty).nodup
    (h.mem_blocks_of_field hk hhome hsends ?_ ?_) fun t ht => ?_
  · rw [hplace]
    exact Nat.le_add_right _ _
  · rw [hplace, hroom, hbits]
    exact Nat.add_lt_add_left (Nat.mul_lt_mul_of_pos_right hj (by decide)) _
  · rw [hplace, testBit_low _ ht]
    exact h.receivedBit_element hk hhome hsends hj (hbits ▸ ht)

/-- Two elements of 16 bits are a word, the first of them low. -/
theorem lookup_pair (h : record.Sound) (hk : record.schema.placement? k = some p)
    (hhome : p.home = some i) (hsends : record.Sends onlyDirty i)
    (hbits : p.field.kind.bits = 16) (hoffset : p.offset.toNat = block * blockBits)
    (hj : 2 * j + 1 < p.field.length.toNat) :
    (record.entries onlyDirty).lookup (block + j) =
      some (pairWord (record.bitsAt k (2 * j)).toUInt16
        (record.bitsAt k (2 * j + 1)).toUInt16) := by
  -- the block begins with the first of the two
  have hplace : (block + j) * blockBits = p.offset.toNat + 2 * j * p.field.kind.bits := by
    rw [Nat.add_mul, hoffset, hbits, blockBits]
    omega
  have hroom : p.field.room = p.field.length.toNat * 16 := by
    rw [Field.room, hbits, Nat.mul_comm]
  refine lookup_eq_some_of_bits (h.pairwise_entries onlyDirty).nodup
    (h.mem_blocks_of_field hk hhome hsends ?_ ?_) fun t ht => ?_
  · rw [hplace]
    exact Nat.le_add_right _ _
  · rw [hplace, hroom, hbits]
    omega
  · rw [testBit_pairWord _ _ ht]
    split
    · next hlow =>
      rw [hplace, testBit_toUInt16 _ hlow]
      exact h.receivedBit_element hk hhome hsends (by omega) (hbits ▸ hlow)
    · next hlow =>
      have hhigh : t - 16 < 16 := by
        simp only [blockBits] at ht
        omega
      have hnext : (block + j) * blockBits + t =
          p.offset.toNat + (2 * j + 1) * p.field.kind.bits + (t - 16) := by
        rw [hplace, hbits]
        omega
      rw [hnext, testBit_toUInt16 _ hhigh]
      exact h.receivedBit_element hk hhome hsends hj (hbits ▸ hhigh)

end Record.Sound

end ObjectSync
