import ObjectSync.Proofs.Identity.Guid

/-!
# Which bytes are packed identifiers

Packed identifiers are sent back to back, with nothing between them. The presence byte alone tells
where one ends, so several are read back one by one (`Reads.guid`), and it leaves no choice: bytes
are a packed identifier exactly when as many follow the first one as it has bits set, and none of
these is zero (`Guid.Compact`). **`Guid.packed_prefixCode`** says both.

The way back is `exists_octets`, which puts the bytes where the presence says they stood.
-/

namespace ObjectSync.Guid

/-- The number of bits set among the first `count` bits of a number. -/
def bitsSet (count n : Nat) : Nat := (List.range count).countP n.testBit

/-- A presence byte, and behind it as many bytes as it has bits set, none of them zero. -/
def Compact : Bytes → Prop
  | [] => False
  | mask :: rest =>
    (mask :: rest).length = 1 + bitsSet 8 mask.toNat ∧ ∀ octet ∈ rest, octet ≠ 0

/-! ## Bits and bytes -/

/-- The lowest bit is told by parity, the others are those of half the number. -/
theorem bitsSet_succ (count n : Nat) : bitsSet (count + 1) n = n % 2 + bitsSet count (n / 2) := by
  have hrest : (List.range count).countP (n.testBit ∘ Nat.succ) =
      (List.range count).countP (n / 2).testBit := by
    refine List.countP_congr fun i _ => ?_
    rw [Function.comp_apply, Nat.testBit_succ]
  unfold bitsSet
  rw [List.range_succ_eq_map, List.countP_cons, List.countP_map, hrest, Nat.testBit_zero]
  by_cases hodd : n % 2 = 1
  · simp [hodd, Nat.add_comm]
  · have heven : n % 2 = 0 := by omega
    simp [heven]

theorem presence_cons_zero (bytes : Bytes) : presence (0 :: bytes) = 2 * presence bytes := by
  simp [presence]

theorem presence_cons {b : UInt8} (hb : b ≠ 0) (bytes : Bytes) :
    presence (b :: bytes) = 1 + 2 * presence bytes := by
  simp [presence, hb]

/-- The presence has a bit for each byte that is not zero. -/
theorem bitsSet_presence (bytes : Bytes) :
    bitsSet bytes.length (presence bytes) = bytes.countP (· ≠ 0) := by
  induction bytes with
  | nil => rfl
  | cons b rest ih =>
    rw [List.length_cons, bitsSet_succ]
    by_cases hb : b = 0
    · subst hb
      rw [presence_cons_zero, Nat.mul_mod_right, Nat.mul_div_cancel_left _ (by decide), ih]
      simp
    · have hmod : (1 + 2 * presence rest) % 2 = 1 := by omega
      have hdiv : (1 + 2 * presence rest) / 2 = presence rest := by omega
      rw [presence_cons hb, hmod, hdiv, ih]
      simp [hb, Nat.add_comm]

theorem length_packed (g : Guid) : g.packed.length = 1 + g.octets.countP (· ≠ 0) := by
  rw [packed, List.length_cons, ← List.countP_eq_length_filter, Nat.add_comm]

theorem compact_packed (g : Guid) : Compact g.packed := by
  have hbits := bitsSet_presence g.octets
  rw [length_octets] at hbits
  constructor
  · rw [toNat_mask, hbits]
    exact g.length_packed
  · intro octet hoctet
    simpa using (List.mem_filter.1 hoctet).2

/-! ## The way back -/

/-- Bytes that are not zero, one for each bit of a presence, are those left of a list of bytes with
this presence. -/
theorem exists_octets {count mask : Nat} {rest : Bytes} (hmask : mask < 2 ^ count)
    (hlength : rest.length = bitsSet count mask) (hrest : ∀ octet ∈ rest, octet ≠ 0) :
    ∃ octets : Bytes, octets.length = count ∧ presence octets = mask ∧
      octets.filter (· ≠ 0) = rest := by
  induction count generalizing mask rest with
  | zero =>
    obtain rfl : mask = 0 := by omega
    exact ⟨[], rfl, rfl, (List.length_eq_zero_iff.1 hlength).symm⟩
  | succ count ih =>
    rw [Nat.pow_succ] at hmask
    rw [bitsSet_succ] at hlength
    have hhalf : mask / 2 < 2 ^ count := by omega
    rcases Nat.mod_two_eq_zero_or_one mask with hlow | hlow
    · -- the bit is clear, so a zero stood here
      rw [hlow, Nat.zero_add] at hlength
      obtain ⟨octets, hcount, hpresence, hkept⟩ := ih hhalf hlength hrest
      refine ⟨0 :: octets, by rw [List.length_cons, hcount], ?_, ?_⟩
      · rw [presence_cons_zero, hpresence]
        omega
      · simpa using hkept
    · -- the bit is set, so the first of the bytes stood here
      rw [hlow, Nat.add_comm] at hlength
      cases rest with
      | nil => cases hlength
      | cons b rest =>
        obtain ⟨hb, hrest⟩ := List.forall_mem_cons.1 hrest
        obtain ⟨octets, hcount, hpresence, hkept⟩ := ih hhalf (Nat.succ.inj hlength) hrest
        refine ⟨b :: octets, by rw [List.length_cons, hcount], ?_, ?_⟩
        · rw [presence_cons hb, hpresence]
          omega
        · rw [List.filter_cons_of_pos (by simpa using hb), hkept]

/-- Any eight bytes are those of an identifier. -/
theorem exists_of_octets {octets : Bytes} (hlength : octets.length = 8) :
    ∃ g : Guid, g.octets = octets := by
  have hback := Bytes.le_ofLE octets
  have hlt : Bytes.ofLE octets < 2 ^ 64 := by
    have hsame := Bytes.ofLE_le octets.length (Bytes.ofLE octets)
    rw [hback, hlength, Nat.one_shiftLeft] at hsame
    rw [hsame]
    exact Nat.mod_lt _ (by decide)
  refine ⟨⟨UInt64.ofNat (Bytes.ofLE octets)⟩, ?_⟩
  rw [Guid.octets, Bytes.u64, UInt64.toNat_ofNat_of_lt' hlt, ← hlength, hback]

theorem exists_packed_of_compact {bytes : Bytes} (h : Compact bytes) :
    ∃ g : Guid, g.packed = bytes := by
  cases bytes with
  | nil => cases h
  | cons mask rest =>
    obtain ⟨hlength, hrest⟩ := h
    rw [List.length_cons, Nat.add_comm] at hlength
    obtain ⟨octets, hcount, hpresence, hkept⟩ :=
      exists_octets mask.toNat_lt (Nat.add_left_cancel hlength) hrest
    obtain ⟨g, hg⟩ := exists_of_octets hcount
    refine ⟨g, ?_⟩
    rw [packed, hg, hpresence, hkept, UInt8.ofNat_toNat]

/-! ## The code -/

/-- Packed identifiers one behind the other are read back, whatever follows. Each takes a byte for
the presence and one for each of its bytes that is not zero, and there is no other packed form than
the compact ones, each of the identifier that is read from it. -/
theorem packed_prefixCode :
    (∀ guids : List Guid, Reads (reader.times guids.length) (guids.flatMap packed) guids) ∧
      (∀ g : Guid, g.packed.length = 1 + g.octets.countP (· ≠ 0) ∧ g.packed.length ≤ 9) ∧
      ∀ bytes : Bytes, ((∃ g : Guid, g.packed = bytes) ↔ Compact bytes) ∧
        (Compact bytes ↔ ∃ g : Guid, reader.run bytes = some (g, []) ∧ g.packed = bytes) := by
  refine ⟨fun guids => Reads.times fun g _ => Reads.guid g, fun g => ⟨g.length_packed, ?_⟩, ?_⟩
  · have hle := g.octets.countP_le_length (p := (· ≠ 0))
    rw [length_octets] at hle
    rw [length_packed]
    omega
  · intro bytes
    constructor
    · constructor
      · rintro ⟨g, rfl⟩
        exact g.compact_packed
      · exact exists_packed_of_compact
    · constructor
      · intro h
        obtain ⟨g, rfl⟩ := exists_packed_of_compact h
        have hread := Reads.guid g []
        rw [List.append_nil] at hread
        exact ⟨g, hread, rfl⟩
      · rintro ⟨g, -, rfl⟩
        exact g.compact_packed

end ObjectSync.Guid
