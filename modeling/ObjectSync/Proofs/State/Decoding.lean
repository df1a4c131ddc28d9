import Mathlib.Data.Nat.Init
import ObjectSync.Proofs.State.Record

/-!
# Decoding values blocks

A receiver that knows the schema finds the state of an entity in the words that arrive, by counting
bits: `receivedBit` numbers them as the schema does, and `receivedBits` reads a number off them, low
bit first. `Record.Decodes` says that this gives back what was sent: the blocks are those of the
sections sent, the elements of every field of these sections are found at their places, and nothing
else is set.

**`Record.decodes_reached`** says so of every record that operations can make. It needs the width of
the table to be a size: in a table that is wider, two sections may share a block
(`Record.not_decodes_of_wrap`).
-/

namespace ObjectSync

/-- Bit `i` of a record, as far as its blocks were received. -/
def receivedBit (entries : List (Nat × UInt32)) (i : Nat) : Bool :=
  ((entries.lookup (i / blockBits)).getD 0).toNat.testBit (i % blockBits)

/-- The number in the `width` received bits from `first` on, low bit first. -/
def receivedBits (entries : List (Nat × UInt32)) (first width : Nat) : Nat :=
  Nat.ofBits fun i : Fin width => receivedBit entries (first + i)

theorem lookup_eq_some_iff {entries : List (Nat × UInt32)} (h : (entries.map Prod.fst).Nodup)
    {block : Nat} {word : UInt32} :
    entries.lookup block = some word ↔ (block, word) ∈ entries := by
  induction entries with
  | nil => simp
  | cons entry rest ih =>
    obtain ⟨hfirst, hrest⟩ := List.nodup_cons.1 h
    obtain ⟨block', word'⟩ := entry
    rw [List.lookup_cons, List.mem_cons]
    by_cases hblock : block = block'
    · subst hblock
      rw [beq_self_eq_true]
      constructor
      · rintro ⟨⟩
        exact .inl rfl
      · rintro (heq | hmem)
        · cases heq
          rfl
        · exact absurd (List.mem_map_of_mem (f := Prod.fst) hmem) hfirst
    · rw [beq_eq_false_iff_ne.2 hblock]
      refine (ih hrest).trans ⟨.inr, fun h => h.resolve_left fun heq => ?_⟩
      cases heq
      exact hblock rfl

namespace Record

variable {record : Record} {p : Placement} {part : Section} {onlyDirty : Bool} {i k x : Nat}

/-! ## Received bits -/

/-- The entries of a stretch are its blocks and words, place by place. -/
theorem mem_entries_stretch (h : record.Sound) (hpart : part ∈ record.schema.sections)
    {entry : Nat × UInt32} :
    entry ∈ (record.stretch part).entries ↔
      part.span.start.toNat ≤ entry.1 ∧
        (record.strip part).words[entry.1 - part.span.start.toNat]? = some entry.2 := by
  rw [Stretch.entries, (h.stretch hpart).blocks_eq, List.mem_iff_getElem?]
  constructor
  · rintro ⟨n, hn⟩
    obtain ⟨hblock, hword⟩ := List.getElem?_zip_eq_some.1 hn
    obtain ⟨_, heq⟩ := List.getElem?_eq_some_iff.1 hblock
    rw [List.getElem_range'] at heq
    have hblock' : entry.1 = part.span.start.toNat + n := by
      rw [← heq]
      show part.span.start.toNat + 1 * n = _
      omega
    rw [hblock', Nat.add_sub_cancel_left]
    exact ⟨Nat.le_add_right _ _, by rw [← hword]; exact (Array.getElem?_toList ..).symm⟩
  · rintro ⟨hle, hword⟩
    refine ⟨entry.1 - part.span.start.toNat, List.getElem?_zip_eq_some.2 ⟨?_, ?_⟩⟩
    · obtain ⟨hlt, _⟩ := Array.getElem?_eq_some_iff.1 hword
      show (List.range' part.span.start.toNat (record.strip part).words.toList.length)[_]? = _
      rw [List.getElem?_range' (by rw [Array.length_toList]; exact hlt)]
      exact congrArg some (by omega)
    · exact (Array.getElem?_toList ..).trans hword

theorem mem_entries (h : record.Sound) {entry : Nat × UInt32} :
    entry ∈ record.entries onlyDirty ↔
      ∃ i part, record.schema.sections[i]? = some part ∧ record.Sends onlyDirty i ∧
        entry ∈ (record.stretch part).entries := by
  rw [entries, List.mem_flatMap]
  constructor
  · rintro ⟨s, hs, hentry⟩
    obtain ⟨part, hpart, rfl⟩ := List.mem_map.1 hs
    obtain ⟨i, hi, hsends⟩ := (mem_chosen h).1 hpart
    exact ⟨i, part, hi, hsends, hentry⟩
  · rintro ⟨i, part, hi, hsends, hentry⟩
    exact ⟨_, List.mem_map_of_mem ((mem_chosen h).2 ⟨i, hi, hsends⟩), hentry⟩

/-- The blocks that arrive are those of the sections sent. -/
theorem mem_map_fst_entries (h : record.Sound) {block : Nat} :
    block ∈ (record.entries onlyDirty).map Prod.fst ↔
      ∃ i part, record.schema.sections[i]? = some part ∧ record.Sends onlyDirty i ∧
        block ∈ part.span := by
  rw [List.mem_map]
  constructor
  · rintro ⟨entry, hentry, rfl⟩
    obtain ⟨i, part, hi, hsends, hmem⟩ := (mem_entries h).1 hentry
    have hkey := List.mem_map_of_mem (f := Prod.fst) hmem
    rw [(h.stretch (List.mem_of_getElem? hi)).map_fst_entries] at hkey
    exact ⟨i, part, hi, hsends, Span.mem_blocks.1 hkey⟩
  · rintro ⟨i, part, hi, hsends, hblock⟩
    have hkey := Span.mem_blocks.2 hblock
    rw [← show (record.stretch part).span = part.span from rfl,
      ← (h.stretch (List.mem_of_getElem? hi)).map_fst_entries] at hkey
    obtain ⟨entry, hmem, rfl⟩ := List.mem_map.1 hkey
    exact ⟨entry, (mem_entries h).2 ⟨i, part, hi, hsends, hmem⟩, rfl⟩

/-- What a field lays down stays inside the field, and is a bit of one of its elements. -/
theorem Lays.element (hlays : record.Lays p x) (h : record.Sound)
    (hp : p ∈ record.schema.placements) (hnamed : p.field.isPadding = false) :
    ∃ j < p.field.length.toNat, p.offset.toNat + j * p.field.kind.bits ≤ x ∧
      x < p.offset.toNat + (j + 1) * p.field.kind.bits := by
  obtain ⟨hle, hbit⟩ := hlays
  have hpos := Field.bits_pos (h.schema.arranged.isStop_field p hp)
  have hdiv := Nat.div_add_mod' (x - p.offset.toNat) p.field.kind.bits
  have hmod := Nat.mod_lt (x - p.offset.toNat) hpos
  refine ⟨(x - p.offset.toNat) / p.field.kind.bits, ?_, by omega, by rw [Nat.add_mul]; omega⟩
  rw [Strip.bitOf, getElem?_elements h hp hnamed] at hbit
  split at hbit
  · next hlt => exact hlt
  · simp at hbit

theorem Lays.lt_room (hlays : record.Lays p x) (h : record.Sound)
    (hp : p ∈ record.schema.placements) (hnamed : p.field.isPadding = false) :
    x < p.offset.toNat + p.field.room := by
  obtain ⟨j, hj, _, hlt⟩ := hlays.element h hp hnamed
  have hle : (j + 1) * p.field.kind.bits ≤ p.field.length.toNat * p.field.kind.bits :=
    Nat.mul_le_mul_right _ hj
  rw [Field.room, Nat.mul_comm]
  omega

/-- A bit of a section sent arrives as the strip of the section has it. -/
theorem receivedBit_eq (h : record.Sound) (hi : record.schema.sections[i]? = some part)
    (hsends : record.Sends onlyDirty i) (hfirst : part.span.start.toNat * blockBits ≤ x)
    (hlast : x < part.span.stop.toNat * blockBits) :
    receivedBit (record.entries onlyDirty) x =
      (record.strip part).bit (x - part.span.start.toNat * blockBits) := by
  have hpart := List.mem_of_getElem? hi
  have hstop := h.schema.arranged.stop_eq part hpart
  have hle : part.span.start.toNat ≤ x / blockBits := (Nat.le_div_iff_mul_le (by decide)).2 hfirst
  have hlt : x / blockBits - part.span.start.toNat < (record.strip part).words.size := by
    have hblock := (Nat.div_lt_iff_lt_mul (show 0 < blockBits by decide)).2 hlast
    rw [size_strip]
    omega
  have hword := Array.getElem?_eq_getElem hlt
  have hentry : (x / blockBits, (record.strip part).words[x / blockBits - part.span.start.toNat]) ∈
      record.entries onlyDirty :=
    (mem_entries h).2 ⟨i, part, hi, hsends, (mem_entries_stretch h hpart).2 ⟨hle, hword⟩⟩
  -- the word of block `x / 32` is the one as far behind the start of the section
  rw [receivedBit, (lookup_eq_some_iff (h.pairwise_entries onlyDirty).nodup).2 hentry, Strip.bit,
    bitAt, Array.getElem?_toList, Nat.mul_comm, Nat.sub_mul_div,
    Nat.sub_mul_mod (by rw [Nat.mul_comm]; exact hfirst), hword]

/-- A bit that arrives belongs to a section sent. -/
theorem section_of_receivedBit (h : record.Sound)
    (hbit : receivedBit (record.entries onlyDirty) x = true) :
    ∃ i part, record.schema.sections[i]? = some part ∧ record.Sends onlyDirty i ∧
      part.span.start.toNat * blockBits ≤ x ∧ x < part.span.stop.toNat * blockBits := by
  rw [receivedBit] at hbit
  cases hlookup : (record.entries onlyDirty).lookup (x / blockBits) with
  | none =>
    rw [hlookup] at hbit
    simp at hbit
  | some word =>
    have hentry := (lookup_eq_some_iff (h.pairwise_entries onlyDirty).nodup).1 hlookup
    have hkey := List.mem_map_of_mem (f := Prod.fst) hentry
    obtain ⟨i, part, hi, hsends, hle, hlt⟩ := (mem_map_fst_entries h).1 hkey
    exact ⟨i, part, hi, hsends, (Nat.le_div_iff_mul_le (by decide)).1 hle,
      (Nat.div_lt_iff_lt_mul (by decide)).1 hlt⟩

/-- A bit arrives exactly when a field of a section sent lays it down. -/
theorem receivedBit_iff (h : record.Sound) :
    receivedBit (record.entries onlyDirty) x = true ↔
      ∃ k p i, record.schema.placement? k = some p ∧ p.home = some i ∧
        record.Sends onlyDirty i ∧ record.Lays p x := by
  have hbits {part : Section} {i : Nat} (hi : record.schema.sections[i]? = some part)
      (hfirst : part.span.start.toNat * blockBits ≤ x)
      (hlast : x < part.span.stop.toNat * blockBits) :=
    bit_strip h hi (x := x - part.span.start.toNat * blockBits) (by
      have hstop := h.schema.arranged.stop_eq part (List.mem_of_getElem? hi)
      simp only [blockBits] at *
      omega)
  constructor
  · intro hbit
    obtain ⟨i, part, hi, hsends, hfirst, hlast⟩ := section_of_receivedBit h hbit
    rw [receivedBit_eq h hi hsends hfirst hlast, hbits hi hfirst hlast,
      Nat.add_sub_cancel' hfirst] at hbit
    obtain ⟨k, p, hp, hhome, hlays⟩ := hbit
    exact ⟨k, p, i, hp, hhome, hsends, hlays⟩
  · rintro ⟨k, p, i, hp, hhome, hsends, hlays⟩
    have hmem := List.mem_of_getElem? hp
    have hi := List.getElem?_eq_getElem hsends.1
    obtain ⟨hstart, hend⟩ := (h.schema.arranged.gathered i _ hi).inside p hmem hhome
    have hroom := hlays.lt_room h hmem (named_of_home h hmem hhome)
    have hfirst := Nat.le_trans hstart hlays.1
    have hlast := Nat.lt_of_lt_of_le hroom hend
    rw [receivedBit_eq h hi hsends hfirst hlast, hbits hi hfirst hlast, Nat.add_sub_cancel' hfirst]
    exact ⟨k, p, hp, hhome, hlays⟩

/-! ## Fields -/

theorem bitsAt_eq (h : record.Sound) (hk : record.schema.placement? k = some p)
    (hnamed : p.field.isPadding = false) {j : Nat} (hj : j < p.field.length.toNat) :
    record.bitsAt k j = (record.elements p)[j]?.getD 0 := by
  rw [bitsAt, (slot?_eq_some_iff h).2 ⟨p, hk, hnamed, hj, rfl⟩,
    getElem?_elements h (List.mem_of_getElem? hk) hnamed, if_pos hj]

/-- No two fields lay down the same bit. -/
theorem placement_unique (h : record.Sound) {p' : Placement} {k' : Nat}
    (hk : record.schema.placement? k = some p) (hk' : record.schema.placement? k' = some p')
    (hle : p.offset.toNat ≤ x) (hlt : x < p.offset.toNat + p.field.room)
    (hle' : p'.offset.toNat ≤ x) (hlt' : x < p'.offset.toNat + p'.field.room) : p' = p := by
  by_cases hsame : k = k'
  · subst hsame
    cases hk.symm.trans hk'
    rfl
  · rcases h.schema.arranged.before_or_before hk hk' hsame with ⟨hend, _⟩ | ⟨hend, _⟩
    · omega
    · omega

/-- The elements of a field of a section sent are found at their places. -/
theorem receivedBits_eq (h : record.Sound) (hk : record.schema.placement? k = some p)
    (hhome : p.home = some i) (hsends : record.Sends onlyDirty i) {j : Nat}
    (hj : j < p.field.length.toNat) :
    receivedBits (record.entries onlyDirty) (p.offset.toNat + j * p.field.kind.bits)
        p.field.kind.bits =
      (record.bitsAt k j).toNat % 2 ^ p.field.kind.bits := by
  have hmem := List.mem_of_getElem? hk
  have hnamed := named_of_home h hmem hhome
  rw [← Nat.ofBits_testBit, receivedBits]
  refine congrArg Nat.ofBits (funext fun t => ?_)
  obtain ⟨t, ht⟩ := t
  have hroom : (j + 1) * p.field.kind.bits ≤ p.field.room := by
    rw [Field.room, Nat.mul_comm]
    exact Nat.mul_le_mul_left _ hj
  rw [Nat.add_mul, Nat.one_mul] at hroom
  have hbit : Strip.bitOf (record.elements p) p.field.kind.bits (j * p.field.kind.bits + t) =
      (record.bitsAt k j).toNat.testBit t := by
    rw [Strip.bitOf, Nat.mul_comm, Nat.mul_add_div (by omega), Nat.div_eq_of_lt ht, Nat.add_zero,
      Nat.mul_add_mod, Nat.mod_eq_of_lt ht, bitsAt_eq h hk hnamed hj]
  have hplace : p.offset.toNat + j * p.field.kind.bits + t - p.offset.toNat =
      j * p.field.kind.bits + t := by omega
  rw [← hbit, Bool.eq_iff_iff, receivedBit_iff h]
  constructor
  · rintro ⟨k', p', i', hk', hhome', _, hlays⟩
    have hmem' := List.mem_of_getElem? hk'
    have hlt' := hlays.lt_room h hmem' (named_of_home h hmem' hhome')
    obtain rfl := placement_unique h hk hk' (by omega) (by omega) hlays.1 hlt'
    have hset := hlays.2
    rwa [hplace] at hset
  · intro hset
    exact ⟨k, p, i, hk, hhome, hsends, by omega, by rwa [hplace]⟩

/-! ## Whole records -/

/-- The entries are the state of the sections sent, and nothing else. -/
structure Decoded (record : Record) (onlyDirty : Bool) (entries : List (Nat × UInt32)) : Prop where
  /-- The blocks are those of the sections sent. -/
  blocks : ∀ block, block ∈ entries.map Prod.fst ↔
    ∃ i part, record.schema.sections[i]? = some part ∧ record.Sends onlyDirty i ∧ block ∈ part.span
  /-- The elements of their fields are at their places, cut to the width of the field. -/
  elements : ∀ field placement i, record.schema.placement? field = some placement →
    placement.home = some i → record.Sends onlyDirty i →
    ∀ element < placement.field.length.toNat,
      receivedBits entries
          (placement.offset.toNat + element * placement.field.kind.bits) placement.field.kind.bits =
        (record.bitsAt field element).toNat % 2 ^ placement.field.kind.bits
  /-- A bit that is set belongs to such an element. -/
  zeros : ∀ bit, receivedBit entries bit = true →
    ∃ field placement i element, record.schema.placement? field = some placement ∧
      placement.home = some i ∧ record.Sends onlyDirty i ∧
      element < placement.field.length.toNat ∧
      placement.offset.toNat + element * placement.field.kind.bits ≤ bit ∧
      bit < placement.offset.toNat + (element + 1) * placement.field.kind.bits

/-- What the record sends is read back as its state, up to the last byte. -/
def Decodes (record : Record) (onlyDirty : Bool) : Prop :=
  ∀ rest, ∃ entries,
    ValuesBlock.reader.run ((record.marshal onlyDirty).value.1 ++ rest) = some (entries, rest) ∧
      record.Decoded onlyDirty entries

theorem Sound.decoded (h : record.Sound) (onlyDirty : Bool) :
    record.Decoded onlyDirty (record.entries onlyDirty) where
  blocks _ := mem_map_fst_entries h
  elements _ _ _ hk hhome hsends _ hj := receivedBits_eq h hk hhome hsends hj
  zeros x hx := by
    obtain ⟨k, p, i, hk, hhome, hsends, hlays⟩ := (receivedBit_iff h).1 hx
    have hmem := List.mem_of_getElem? hk
    obtain ⟨j, hj, hle, hlt⟩ := hlays.element h hmem (named_of_home h hmem hhome)
    exact ⟨k, p, i, j, hk, hhome, hsends, hj, hle, hlt⟩

theorem sound_reached {settings : Settings} {name : String} {table : List Field} {schema : Schema}
    (hfits : FitsSize table) (hcompile : Schema.compile settings name table = .ok schema)
    (steps : List Step) : (reached schema steps).Sound :=
  (Sound.blank (Schema.compile_sound hfits hcompile).1).foldl_step steps

/-- Whatever was done to a record, what it sends is read back. -/
theorem decodes_reached {settings : Settings} {name : String} {table : List Field} {schema : Schema}
    (hfits : FitsSize table) (hcompile : Schema.compile settings name table = .ok schema)
    (steps : List Step) (onlyDirty : Bool) : (reached schema steps).Decodes onlyDirty := by
  have hsound := sound_reached hfits hcompile steps
  exact fun rest => ⟨_, hsound.reads_marshal onlyDirty rest, hsound.decoded onlyDirty⟩

/-- Two bytes, padding and a number that crosses two blocks. -/
theorem decodes_reached_bytes :
    let table : List Field := [.array "a" .u8 2, .padding .u16 1, .scalar "b" .u64]
    FitsSize table ∧ ∃ schema, Schema.compile {} "T" table = .ok schema ∧
      (reached schema [.edit (.setAt 0 1 (.u8 7)), .edit (.set 2 (.u64 9))]).Decodes true := by
  obtain ⟨schema, hcompile⟩ : ∃ schema, Schema.compile {} "T"
      [.array "a" .u8 2, .padding .u16 1, .scalar "b" .u64] = .ok schema := ⟨_, rfl⟩
  have hfits : FitsSize [.array "a" .u8 2, .padding .u16 1, .scalar "b" .u64] := by decide
  exact ⟨hfits, schema, hcompile, decodes_reached hfits hcompile _ true⟩

/-- Two fields with 2⁶⁹ - 32 bits of padding between them, in pieces that are sizes. -/
def wrappedTable : List Field :=
  .scalar "a" .u32 :: List.replicate 32 (.padding .bool 18446744073709551584)
    ++ [.padding .bool 992, .scalar "b" .u32]

/-- In a table that is wider than any size both fields are put into block 0. Their words are sent
one behind the other, and the second is left over. -/
theorem not_decodes_of_wrap :
    ∃ schema, Schema.compile {} "T" wrappedTable = .ok schema ∧
      ¬(reached schema [.edit (.set 0 (.u32 7)), .edit (.set 34 (.u32 7))]).Decodes false := by
  have hrun : (Schema.compile {} "T" wrappedTable).toOption.map (fun schema =>
      ValuesBlock.reader.run ((reached schema
        [.edit (.set 0 (.u32 7)), .edit (.set 34 (.u32 7))]).marshal false).value.1) =
      some (some ([(0, 7)], [7, 0, 0, 0])) := by decide +kernel
  cases hcompile : Schema.compile {} "T" wrappedTable with
  | error fault =>
    rw [hcompile] at hrun
    cases hrun
  | ok schema =>
    rw [hcompile] at hrun
    refine ⟨schema, rfl, fun hdecodes => ?_⟩
    obtain ⟨entries, hread, _⟩ := hdecodes []
    rw [List.append_nil] at hread
    cases hread.symm.trans (Option.some.inj hrun)

end Record

end ObjectSync
