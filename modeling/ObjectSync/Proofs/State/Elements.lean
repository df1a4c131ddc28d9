import ObjectSync.Proofs.Declaration.Alignment
import ObjectSync.Proofs.State.Decoding

/-!
# Elements in the words that arrive

A client finds an element of at most a block inside one word, and one of two blocks in two words of
its own, the low half in the first of them (`Record.SendsHalves`). **`Record.unbroken_reached`**
says so of every named field, where the width of the table is a size. In a wider one the width of an
array may count as zero, and its elements lie across the ends of blocks
(`Record.not_unbroken_of_wrap`).
-/

namespace ObjectSync

section Words

variable {entries : List (Nat × UInt32)} {first width value block t : Nat} {word : UInt32}

theorem receivedBit_of_receivedBits (h : receivedBits entries first width = value)
    (ht : t < width) : receivedBit entries (first + t) = value.testBit t := by
  rw [← h, receivedBits, Nat.testBit_ofBits_lt _ _ ht]

/-- The word of a block is known when its bits are. -/
theorem lookup_eq_some_of_bits (hnodup : (entries.map Prod.fst).Nodup)
    (hblock : block ∈ entries.map Prod.fst)
    (hbits : ∀ t < blockBits,
      receivedBit entries (block * blockBits + t) = word.toNat.testBit t) :
    entries.lookup block = some word := by
  obtain ⟨entry, hentry, rfl⟩ := List.mem_map.1 hblock
  have hlookup := (lookup_eq_some_iff hnodup).2 hentry
  rw [hlookup]
  refine congrArg some (UInt32.toNat_inj.1 (Nat.eq_of_testBit_eq fun t => ?_))
  rcases Nat.lt_or_ge t blockBits with ht | ht
  · have hbit := hbits t ht
    have hdiv : (entry.1 * blockBits + t) / blockBits = entry.1 := by
      simp only [blockBits] at *
      omega
    have hmod : (entry.1 * blockBits + t) % blockBits = t := by
      simp only [blockBits] at *
      omega
    rw [receivedBit, hdiv, hmod, hlookup] at hbit
    exact hbit
  · -- a word has no bits behind those of a block
    have hpow : 2 ^ blockBits ≤ 2 ^ t := Nat.pow_le_pow_right (by decide) ht
    rw [Nat.testBit_lt_two_pow (Nat.lt_of_lt_of_le entry.2.toNat_lt hpow),
      Nat.testBit_lt_two_pow (Nat.lt_of_lt_of_le word.toNat_lt hpow)]

theorem testBit_low (bits : UInt64) (ht : t < blockBits) :
    bits.toUInt32.toNat.testBit t = bits.toNat.testBit t := by
  rw [UInt64.toNat_toUInt32, Nat.testBit_mod_two_pow, decide_eq_true (show t < 32 from ht),
    Bool.true_and]

theorem testBit_high (bits : UInt64) (ht : t < blockBits) :
    (bits >>> 32).toUInt32.toNat.testBit t = bits.toNat.testBit (blockBits + t) := by
  rw [UInt64.toNat_toUInt32, Nat.testBit_mod_two_pow, decide_eq_true (show t < 32 from ht),
    Bool.true_and, UInt64.toNat_shiftRight, Nat.testBit_shiftRight]
  rfl

end Words

namespace Record

variable {settings : Settings} {name : String} {table : List Field} {schema : Schema}
  {record : Record} {onlyDirty : Bool} {k : Nat} {p : Placement}

/-- Where the section of the field is sent, each element of two blocks arrives as two words, the low
half of its bits and then the high one. -/
def SendsHalves (record : Record) (onlyDirty : Bool) (k : Nat) (p : Placement) : Prop :=
  p.field.kind.bits = 2 * blockBits → ∀ i, p.home = some i → record.Sends onlyDirty i →
    ∀ j < p.field.length.toNat, ∀ rest, ∃ entries,
      ValuesBlock.reader.run ((record.marshal onlyDirty).value.1 ++ rest) = some (entries, rest) ∧
        entries.lookup (p.bit j / blockBits) = some (record.bitsAt k j).toUInt32 ∧
        entries.lookup (p.bit j / blockBits + 1) = some (record.bitsAt k j >>> 32).toUInt32

theorem Sound.sendsHalves (h : record.Sound) (hk : record.schema.placement? k = some p)
    (hunbroken : record.schema.Unbroken k p) (onlyDirty : Bool) :
    record.SendsHalves onlyDirty k p := by
  intro hbits i hhome hsends j hj rest
  obtain ⟨hdvd, i', part, hi, hhome', _, hlow, hhigh, _⟩ := hunbroken.wide hbits j hj
  obtain rfl := Option.some.inj (hhome.symm.trans hhome')
  have hnodup := (h.pairwise_entries onlyDirty).nodup
  have hkeys {block : Nat} (hblock : block ∈ part.span) :
      block ∈ (record.entries onlyDirty).map Prod.fst :=
    (mem_map_fst_entries h).2 ⟨i, part, hi, hsends, hblock⟩
  -- the bits of both words are those of the element, counted from the first block
  have hfirst : p.bit j / blockBits * blockBits = p.bit j := Nat.div_mul_cancel hdvd
  have hreceived := receivedBits_eq h hk hhome hsends hj
  rw [← Placement.bit, hbits] at hreceived
  have hbit {t : Nat} (ht : t < 2 * blockBits) :
      receivedBit (record.entries onlyDirty) (p.bit j + t) =
        (record.bitsAt k j).toNat.testBit t := by
    rw [receivedBit_of_receivedBits hreceived ht, Nat.testBit_mod_two_pow, decide_eq_true ht,
      Bool.true_and]
  refine ⟨_, h.reads_marshal onlyDirty rest, ?_, ?_⟩
  · refine lookup_eq_some_of_bits hnodup (hkeys hlow) fun t ht => ?_
    rw [hfirst, testBit_low _ ht]
    exact hbit (by omega)
  · refine lookup_eq_some_of_bits hnodup (hkeys hhigh) fun t ht => ?_
    rw [Nat.add_mul, hfirst, Nat.one_mul, Nat.add_assoc, testBit_high _ ht]
    exact hbit (by omega)

/-- No element of a named field crosses the end of a block, unless it is two blocks, and then it
arrives as these. -/
theorem unbroken_reached (hfits : FitsSize table)
    (hcompile : Schema.compile settings name table = .ok schema)
    (hk : schema.placement? k = some p) (hnamed : p.field.isPadding = false) :
    schema.Unbroken k p ∧
      ∀ steps onlyDirty, (reached schema steps).SendsHalves onlyDirty k p := by
  have hunbroken := Schema.compile_unbroken hfits hcompile hk hnamed
  refine ⟨hunbroken, fun steps onlyDirty => ?_⟩
  have hschema := schema_reached schema steps
  exact (sound_reached hfits hcompile steps).sendsHalves (by rwa [hschema]) (by rwa [hschema])
    onlyDirty

/-- Two numbers of two blocks each, behind a block that is shared with padding and a field without
elements. -/
theorem unbroken_reached_pair :
    let table : List Field := [.array "a" .u8 2, .padding .u16 1, .array "b" .u32 0,
      .array "c" .u64 2]
    let p : Placement := ⟨.array "c" .u64 2, 32, 2, some 1⟩
    FitsSize table ∧ ∃ schema, Schema.compile {} "T" table = .ok schema ∧
      schema.placement? 3 = some p ∧ p.field.isPadding = false ∧ schema.Unbroken 3 p ∧
      (reached schema [.edit (.setAt 3 1 (.u64 4294967298))]).SendsHalves true 3 p := by
  intro table p
  have hfits : FitsSize table := by decide
  have hrun : (Schema.compile {} "T" table).toOption.map (·.placement? 3) = some (some p) := by
    decide +kernel
  obtain ⟨schema, hcompile, hk⟩ := Schema.exists_of_compile hrun
  have hnamed : p.field.isPadding = false := by decide
  obtain ⟨hunbroken, hhalves⟩ := unbroken_reached hfits hcompile hk hnamed
  exact ⟨hfits, schema, hcompile, hk, hnamed, hunbroken, hhalves _ true⟩

/-- An array with 2⁶⁴ bits counts as none. Behind one bit its second element takes bits 17 to 32. -/
theorem not_unbroken_of_wrap :
    let table : List Field := [.scalar "a" .bool, .array "b" .u16 1152921504606846976,
      .padding .bool 31]
    ∃ schema p, Schema.compile {} "T" table = .ok schema ∧ schema.placement? 1 = some p ∧
      p.field.isPadding = false ∧ p.field.kind.bits ≤ blockBits ∧ 1 < p.field.length.toNat ∧
      p.bit 1 / blockBits ≠ (p.bit 1 + p.field.kind.bits - 1) / blockBits := by
  intro table
  have hrun : (Schema.compile {} "T" table).toOption.map (·.placement? 1) =
      some (some ⟨.array "b" .u16 1152921504606846976, 1, 1, some 0⟩) := by
    decide +kernel
  obtain ⟨schema, hcompile, hk⟩ := Schema.exists_of_compile hrun
  exact ⟨schema, _, hcompile, hk, by decide, by decide, by decide, by decide⟩

end Record

end ObjectSync
