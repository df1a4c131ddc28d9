import Mathlib.Data.List.Sort
import ObjectSync.Proofs.Declaration.Append
import ObjectSync.Proofs.State.Record

/-!
# Two records as one

A record whose schema is that of two others, one behind the other, may stand for both: its slots are
theirs, and it flags what they flag (`Record.Joins`). Whatever is done to a field of one of the two
is done to the joined record at the place of the field in the joined table
(`Joins.edit_left`, `Joins.edit_right`), and the joined record sends what the two send, the second
moved up behind the blocks of the first (**`Joins.entries_eq`**).
-/

namespace ObjectSync

namespace Record

/-- The record `flat` stands for `part` and behind it `rest`. -/
structure Joins (part rest flat : Record) : Prop where
  part_sound : part.Sound
  rest_sound : rest.Sound
  flat_sound : flat.Sound
  /-- No named field is without elements. -/
  filled : ∀ p ∈ flat.schema.placements, p.field.isPadding = false → 0 < p.field.length.toNat
  schema_eq : flat.schema = .append flat.schema.name part.schema rest.schema
  slots_eq : flat.slots = part.slots ++ rest.slots
  holds_lt : ∀ i, part.dirty.holds i = true → i < part.schema.sections.length
  holds_eq : ∀ i, flat.dirty.holds i =
    if i < part.schema.sections.length then part.dirty.holds i
    else rest.dirty.holds (i - part.schema.sections.length)

namespace Joins

variable {part rest flat : Record} {k i j slot : Nat} {p : Placement}

/-! ## Schemas -/

section Schemas

variable (h : Joins part rest flat)

include h

theorem placements_eq : flat.schema.placements =
    part.schema.placements ++ rest.schema.placements.map (.moved part.schema.shift) := by
  rw [h.schema_eq]
  rfl

theorem sections_eq : flat.schema.sections =
    part.schema.sections ++ rest.schema.sections.map (.moved part.schema.shift) := by
  rw [h.schema_eq]
  rfl

theorem blocks_eq : flat.schema.blocks = part.schema.blocks + rest.schema.blocks := by
  rw [h.schema_eq]
  rfl

theorem slotCount_eq : flat.schema.slotCount = part.schema.slotCount + rest.schema.slotCount := by
  rw [h.schema_eq]
  rfl

theorem placement?_left (hk : k < part.schema.placements.length) :
    flat.schema.placement? k = part.schema.placement? k := by
  rw [h.schema_eq]
  exact Schema.placement?_append_left _ hk

theorem placement?_right (k : Nat) :
    flat.schema.placement? (k + part.schema.placements.length) =
      (rest.schema.placement? k).map (.moved part.schema.shift) := by
  rw [h.schema_eq]
  exact Schema.placement?_append_right _

theorem mem_left (hp : p ∈ part.schema.placements) : p ∈ flat.schema.placements := by
  rw [h.placements_eq]
  exact List.mem_append_left _ hp

theorem mem_right (hp : p ∈ rest.schema.placements) :
    p.moved part.schema.shift ∈ flat.schema.placements := by
  rw [h.placements_eq]
  exact List.mem_append_right _ (List.mem_map_of_mem hp)

theorem filled_left (hp : p ∈ part.schema.placements) (hnamed : p.field.isPadding = false) :
    0 < p.field.length.toNat :=
  h.filled p (h.mem_left hp) hnamed

theorem filled_right (hp : p ∈ rest.schema.placements) (hnamed : p.field.isPadding = false) :
    0 < p.field.length.toNat :=
  h.filled (p.moved part.schema.shift) (h.mem_right hp) hnamed

/-- The slots of a field move up behind those of the first record. -/
theorem toNat_slot_moved (hp : p ∈ rest.schema.placements) :
    (p.moved part.schema.shift).slot.toNat = p.slot.toNat + part.schema.slotCount := by
  have hslots := h.rest_sound.schema.arranged.slots_le p hp
  have hcount := h.flat_sound.schema.slotCount_lt
  rw [h.slotCount_eq] at hcount
  show (p.slot + .ofNat part.schema.slotCount).toNat = _
  rw [Span.toNat_add_offset (by omega), Nat.add_comm]

end Schemas

/-- Blank records join to a blank record. -/
theorem blank {name : String} {first second : Schema} (hfirst : first.Sound)
    (hsecond : second.Sound) (hflat : (Schema.append name first second).Sound)
    (hfilled : ∀ p ∈ (Schema.append name first second).placements,
      p.field.isPadding = false → 0 < p.field.length.toNat) :
    (blank first).Joins (blank second) (blank (.append name first second)) where
  part_sound := .blank hfirst
  rest_sound := .blank hsecond
  flat_sound := .blank hflat
  filled := hfilled
  schema_eq := rfl
  slots_eq := Array.replicate_append_replicate.symm
  holds_lt i hheld := by
    rw [show (Record.blank first).dirty.holds i = false from DirtySet.holds_blank] at hheld
    cases hheld
  holds_eq i := by
    show (DirtySet.blank _).holds i = if _ then (DirtySet.blank _).holds i
      else (DirtySet.blank _).holds _
    rw [DirtySet.holds_blank, DirtySet.holds_blank, DirtySet.holds_blank, ite_self]

/-- Tables that compile, and fit the mask together, have blank records that join. -/
theorem of_compile {settings : Settings} {name name' : String} {table table' : List Field}
    {first second : Schema} (hfits : FitsSize table) (hfits' : FitsSize table')
    (hstop : ∀ field ∈ table, field.isStop = false)
    (hfilled : ∀ field ∈ table ++ table', field.isPadding = false → 0 < field.length.toNat)
    (hnames : ∀ field ∈ table, ∀ field' ∈ table',
      field.isPadding = false → field'.isPadding = false → field.name ≠ field'.name)
    (hfirst : Schema.compile settings name table = .ok first)
    (hsecond : Schema.compile settings name' table' = .ok second)
    (hblocks : first.blocks + second.blocks ≤ settings.maxBlocks) :
    Schema.compile settings name' (table ++ table') = .ok (.append name' first second) ∧
      FitsSize (table ++ table') ∧
      (Record.blank first).Joins (.blank second) (.blank (.append name' first second)) := by
  have hcompile := Schema.compile_append hfits hfits' hstop
    (fun field hfield => hfilled field (List.mem_append_left _ hfield)) hnames hfirst hsecond hblocks
  have hwhole := Schema.fitsSize_append hfits hfits' hstop hfirst hsecond hblocks
  have hplaced := Schema.forall_field_of_compile
    (P := fun field => field.isPadding = false → 0 < field.length.toNat) hcompile hfilled
  exact ⟨hcompile, hwhole, .blank (Schema.compile_sound hfits hfirst).1
    (Schema.compile_sound hfits' hsecond).1 (Schema.compile_sound hwhole hcompile).1 hplaced⟩

/-! ## Slots -/

theorem slot?_left (h : Joins part rest flat) (hk : k < part.schema.placements.length) :
    flat.slot? k j = part.slot? k j := by
  rw [slot?, slot?, h.placement?_left hk]

theorem slot?_right (h : Joins part rest flat) :
    flat.slot? (k + part.schema.placements.length) j =
      (rest.slot? k j).map (· + part.schema.slotCount) := by
  refine Option.ext fun slot => ?_
  rw [slot?_eq_some_iff h.flat_sound, h.placement?_right, Option.map_eq_some_iff]
  constructor
  · rintro ⟨_, hmoved, hnamed, hj, rfl⟩
    obtain ⟨p, hp, rfl⟩ := Option.map_eq_some_iff.1 hmoved
    refine ⟨p.slot.toNat + j, (slot?_eq_some_iff h.rest_sound).2 ⟨p, hp, hnamed, hj, rfl⟩, ?_⟩
    rw [h.toNat_slot_moved (List.mem_of_getElem? hp)]
    omega
  · rintro ⟨slot', hslot', rfl⟩
    obtain ⟨p, hp, hnamed, hj, rfl⟩ := (slot?_eq_some_iff h.rest_sound).1 hslot'
    refine ⟨_, Option.map_eq_some_iff.2 ⟨p, hp, rfl⟩, hnamed, hj, ?_⟩
    rw [h.toNat_slot_moved (List.mem_of_getElem? hp)]
    omega

/-! ## Flags -/

theorem sectionOf?_left (h : Joins part rest flat) (hk : k < part.schema.placements.length) :
    flat.schema.sectionOf? k = part.schema.sectionOf? k := by
  rw [h.schema_eq]
  exact Schema.sectionOf?_append_left _ hk

theorem sectionOf?_right (h : Joins part rest flat) (k : Nat) :
    flat.schema.sectionOf? (k + part.schema.placements.length) =
      (rest.schema.sectionOf? k).map (· + part.schema.sections.length) := by
  rw [h.schema_eq]
  exact Schema.sectionOf?_append_right _

theorem flagField_left (h : Joins part rest flat) (hk : k < part.schema.placements.length) :
    Joins (part.flagField k) rest (flat.flagField k) := by
  have hlt (i : Nat) (hi : part.schema.sectionOf? k = some i) : i < part.schema.sections.length :=
    section_lt h.part_sound (fun _ => h.filled_left) hi
  have hpart (i : Nat) : (part.flagField k).dirty.holds i = _ := h.part_sound.holds_flagField hlt
  have hflat (i : Nat) : (flat.flagField k).dirty.holds i =
      (decide (part.schema.sectionOf? k = some i) || flat.dirty.holds i) := by
    rw [h.flat_sound.holds_flagField fun _ => section_lt h.flat_sound h.filled]
    exact congrArg (· || flat.dirty.holds i) (decide_eq_decide.2 (by rw [h.sectionOf?_left hk]))
  refine { h with
    part_sound := h.part_sound.flagField k
    flat_sound := h.flat_sound.flagField k
    holds_lt := fun i hheld => ?_
    holds_eq := fun i => ?_ }
  · rw [hpart, Bool.or_eq_true, decide_eq_true_eq] at hheld
    rcases hheld with hi | hheld
    · exact hlt i hi
    · exact h.holds_lt i hheld
  · show _ = if i < part.schema.sections.length then (part.flagField k).dirty.holds i else _
    rw [hflat, hpart, h.holds_eq]
    split
    · rfl
    · next hi =>
      -- flagging a field of the first record flags none of the sections of the second
      rw [decide_eq_false fun hsection => hi (hlt i hsection), Bool.false_or]
      rfl

theorem flagField_right (h : Joins part rest flat) (k : Nat) :
    Joins part (rest.flagField k) (flat.flagField (k + part.schema.placements.length)) := by
  have hrest (i : Nat) : (rest.flagField k).dirty.holds i = _ :=
    h.rest_sound.holds_flagField fun _ => section_lt h.rest_sound fun _ => h.filled_right
  have hflat (i : Nat) : (flat.flagField (k + part.schema.placements.length)).dirty.holds i =
      (decide ((rest.schema.sectionOf? k).map (· + part.schema.sections.length) = some i)
        || flat.dirty.holds i) := by
    rw [h.flat_sound.holds_flagField fun _ => section_lt h.flat_sound h.filled]
    exact congrArg (· || flat.dirty.holds i) (decide_eq_decide.2 (by rw [h.sectionOf?_right]))
  refine { h with
    rest_sound := h.rest_sound.flagField k
    flat_sound := h.flat_sound.flagField _
    holds_eq := fun i => ?_ }
  show _ = if i < part.schema.sections.length then _
    else (rest.flagField k).dirty.holds (i - part.schema.sections.length)
  rw [hflat, hrest, h.holds_eq]
  cases hsection : rest.schema.sectionOf? k with
  | none => rfl
  | some i' =>
    split
    · rw [decide_eq_false (by rw [Option.map_some, Option.some_inj]; omega), Bool.false_or]
    · refine congrArg (· || _) (decide_eq_decide.2 ?_)
      rw [Option.map_some, Option.some_inj, Option.some_inj]
      omega

theorem clearDirty (h : Joins part rest flat) :
    Joins part.clearDirty rest.clearDirty flat.clearDirty :=
  { h with
    part_sound := h.part_sound.clearDirty
    rest_sound := h.rest_sound.clearDirty
    flat_sound := h.flat_sound.clearDirty
    holds_lt := fun i hheld => by
      rw [show part.clearDirty.dirty.holds i = false from DirtySet.holds_clear] at hheld
      cases hheld
    holds_eq := fun i => by
      show flat.dirty.clear.holds i = if _ then part.dirty.clear.holds i
        else rest.dirty.clear.holds _
      rw [DirtySet.holds_clear, DirtySet.holds_clear, DirtySet.holds_clear, ite_self] }

/-! ## Operations -/

theorem setAt_left (h : Joins part rest flat) (hk : k < part.schema.placements.length)
    (value : Value) : Joins (part.setAt k j value) rest (flat.setAt k j value) := by
  have hpart := h.part_sound.setAt k j value
  have hflat := h.flat_sound.setAt k j value
  rw [setAt] at hpart hflat ⊢
  rw [setAt, h.slot?_left hk] at *
  cases hslot : part.slot? k j with
  | none => exact h
  | some slot =>
    rw [hslot] at hpart hflat
    refine { h.flagField_left hk with
      part_sound := hpart
      flat_sound := hflat
      slots_eq := ?_ }
    show flat.slots.setIfInBounds slot value.bits = part.slots.setIfInBounds slot value.bits ++ _
    rw [h.slots_eq, Array.setIfInBounds_append_left (slot_lt h.part_sound hslot)]

theorem setAt_right (h : Joins part rest flat) (k j : Nat) (value : Value) :
    Joins part (rest.setAt k j value)
      (flat.setAt (k + part.schema.placements.length) j value) := by
  have hrest := h.rest_sound.setAt k j value
  have hflat := h.flat_sound.setAt (k + part.schema.placements.length) j value
  rw [setAt] at hrest hflat ⊢
  rw [setAt, h.slot?_right] at *
  cases hslot : rest.slot? k j with
  | none => exact h
  | some slot =>
    rw [hslot] at hrest hflat
    refine { h.flagField_right k with
      rest_sound := hrest
      flat_sound := hflat
      slots_eq := ?_ }
    show flat.slots.setIfInBounds (slot + part.schema.slotCount) value.bits =
      part.slots ++ rest.slots.setIfInBounds slot value.bits
    rw [h.slots_eq, ← h.part_sound.size_slots,
      Array.setIfInBounds_append_right (Nat.le_add_left _ _), Nat.add_sub_cancel]

/-- A change to a field of the first record is made to the same field of the joined one. -/
theorem edit_left (h : Joins part rest flat) {edit : Edit}
    (hk : edit.field < part.schema.placements.length) :
    Joins (part.edit edit) rest (flat.edit edit) := by
  cases edit with
  | set field value => exact h.setAt_left hk value
  | setAt field index value => exact h.setAt_left hk value
  | flagField field => exact h.flagField_left hk

/-- A change to a field of the second record is made behind the fields of the first. -/
theorem edit_right (h : Joins part rest flat) (edit : Edit) :
    Joins part (rest.edit edit) (flat.edit (edit.moved part.schema.placements.length)) := by
  cases edit with
  | set field value => exact h.setAt_right field 0 value
  | setAt field index value => exact h.setAt_right field index value
  | flagField field => exact h.flagField_right field

/-! ## What is sent -/

/-- The joined record flags what the first flags, and behind it what the second flags. -/
theorem indices_eq (h : Joins part rest flat) :
    flat.dirty.indices =
      part.dirty.indices ++ rest.dirty.indices.map (· + part.schema.sections.length) := by
  have hsorted : (part.dirty.indices ++
      rest.dirty.indices.map (· + part.schema.sections.length)).Pairwise (· < ·) := by
    refine List.pairwise_append.2 ⟨DirtySet.pairwise_indices _, ?_, fun i hi i' hi' => ?_⟩
    · rw [List.pairwise_map]
      exact (DirtySet.pairwise_indices rest.dirty).imp fun hlt => by omega
    · have hlt := h.holds_lt i (DirtySet.mem_indices.1 hi)
      obtain ⟨j, _, rfl⟩ := List.mem_map.1 hi'
      omega
  refine (DirtySet.pairwise_indices flat.dirty).eq_of_mem_iff hsorted fun i => ?_
  rw [DirtySet.mem_indices, h.holds_eq, List.mem_append, DirtySet.mem_indices, List.mem_map]
  split
  · next hi =>
    constructor
    · exact .inl
    · rintro (hheld | ⟨j, _, rfl⟩)
      · exact hheld
      · omega
  · next hi =>
    constructor
    · exact fun hheld => .inr ⟨_, DirtySet.mem_indices.2 hheld, by omega⟩
    · rintro (hheld | ⟨j, hj, rfl⟩)
      · exact absurd (h.holds_lt i hheld) hi
      · rw [Nat.add_sub_cancel]
        exact DirtySet.mem_indices.1 hj

theorem chosen_eq (h : Joins part rest flat) (onlyDirty : Bool) :
    flat.chosen onlyDirty =
      part.chosen onlyDirty ++ (rest.chosen onlyDirty).map (.moved part.schema.shift) := by
  cases onlyDirty with
  | false => exact h.sections_eq
  | true =>
    show flat.dirty.indices.filterMap (flat.schema.sections[·]?) =
      part.dirty.indices.filterMap (part.schema.sections[·]?)
        ++ (rest.dirty.indices.filterMap (rest.schema.sections[·]?)).map _
    rw [h.indices_eq, List.filterMap_append, List.filterMap_map, List.map_filterMap,
      h.sections_eq]
    congr 1
    · refine List.filterMap_congr fun i hi => ?_
      exact List.getElem?_append_left (h.holds_lt i (DirtySet.mem_indices.1 hi))
    · refine List.filterMap_congr fun i _ => ?_
      show (part.schema.sections ++ rest.schema.sections.map _)[i + _]? = _
      rw [List.getElem?_append_right (Nat.le_add_left _ _), Nat.add_sub_cancel, List.getElem?_map]

/-! ## Sections -/

/-- A field of the first record has the same elements in the joined one. -/
theorem elements_left (h : Joins part rest flat) (hp : p ∈ part.schema.placements)
    (hnamed : p.field.isPadding = false) : flat.elements p = part.elements p := by
  have hslots := h.part_sound.schema.arranged.slots_le p hp
  rw [Field.slots_of_named hnamed, ← h.part_sound.size_slots] at hslots
  refine List.ext_getElem? fun j => ?_
  rw [getElem?_elements h.flat_sound (h.mem_left hp) hnamed,
    getElem?_elements h.part_sound hp hnamed, h.slots_eq]
  split
  · exact Array.getElem?_append_left (by omega)
  · rfl

theorem elements_right (h : Joins part rest flat) (hp : p ∈ rest.schema.placements)
    (hnamed : p.field.isPadding = false) :
    flat.elements (p.moved part.schema.shift) = rest.elements p := by
  refine List.ext_getElem? fun j => ?_
  rw [getElem?_elements h.flat_sound (h.mem_right hp) hnamed,
    getElem?_elements h.rest_sound hp hnamed, h.slots_eq, h.toNat_slot_moved hp,
    ← h.part_sound.size_slots, Array.getElem?_append_right (by omega)]
  refine if_congr Iff.rfl (congrArg (rest.slots[·]?) ?_) rfl
  omega

/-- A section of the first record has the same words in the joined one. -/
theorem stretch_left (h : Joins part rest flat) {s : Section} (hs : s ∈ part.schema.sections) :
    flat.stretch s = part.stretch s := by
  have hlay : ∀ k ∈ s.fields, ∀ strip,
      flat.layField s.span.start strip (id k) = part.layField s.span.start strip k := by
    intro k hk strip
    obtain ⟨i, hi⟩ := List.mem_iff_getElem?.1 hs
    obtain ⟨p, hp, _, hnamed⟩ := h.part_sound.schema.arranged.field_of_section hi hk
    obtain ⟨hlt, _⟩ := List.getElem?_eq_some_iff.1 hp
    have hplacement : part.schema.placement? k = some p := hp
    rw [layField, layField, id, h.placement?_left hlt, hplacement]
    simp only [h.elements_left (List.mem_of_getElem? hp) hnamed]
  rw [stretch, stretch, strip_congr id (List.map_id s.fields).symm rfl hlay]

/-- A section of the second record has the same words in the joined one, further up. -/
theorem stretch_right (h : Joins part rest flat) {s : Section} (hs : s ∈ rest.schema.sections) :
    flat.stretch (s.moved part.schema.shift) =
      { span := s.span.shift part.schema.shift.blocks, words := (rest.stretch s).words } := by
  have hlay : ∀ k ∈ s.fields, ∀ strip,
      flat.layField (s.moved part.schema.shift).span.start strip
          (k + part.schema.placements.length) =
        rest.layField s.span.start strip k := by
    intro k hk strip
    obtain ⟨i, hi⟩ := List.mem_iff_getElem?.1 hs
    obtain ⟨p, hp, _, hnamed⟩ := h.rest_sound.schema.arranged.field_of_section hi hk
    have hplacement : rest.schema.placement? k = some p := hp
    have hcursor : (p.moved part.schema.shift).offset
        - (s.moved part.schema.shift).span.start * .ofNat blockBits =
          p.offset - s.span.start * .ofNat blockBits := Size.add_mul_sub_add_mul _ _ _ _
    rw [layField, layField, h.placement?_right, hplacement]
    simp only [Option.map_some, h.elements_right (List.mem_of_getElem? hp) hnamed, hcursor]
    rfl
  have hstrip : flat.strip (s.moved part.schema.shift) = rest.strip s :=
    strip_congr (· + part.schema.placements.length) rfl rfl hlay
  rw [stretch, hstrip]
  rfl

/-- The joined record sends what the two send, the second behind the blocks of the first. -/
theorem entries_eq (h : Joins part rest flat) (onlyDirty : Bool) :
    flat.entries onlyDirty =
      part.entries onlyDirty ++ (rest.entries onlyDirty).map (moved part.schema.blocks) := by
  have hblocks := h.flat_sound.schema.blocks_le
  rw [h.blocks_eq] at hblocks
  rw [entries, h.chosen_eq, List.map_append, List.flatMap_append]
  congr 1
  · rw [List.map_congr_left fun s hs => h.stretch_left (mem_sections_of_mem_chosen h.part_sound hs)]
    rfl
  · rw [entries, List.map_flatMap, List.map_map, List.flatMap_map, List.flatMap_map]
    refine List.flatMap_congr fun s hs => ?_
    have hmem := mem_sections_of_mem_chosen h.rest_sound hs
    have hstop := h.rest_sound.schema.arranged.stop_le s hmem
    have hcount := h.rest_sound.schema.arranged.stop_eq s hmem
    have hshift : (s.span.shift part.schema.shift.blocks).blocks =
        s.span.blocks.map (part.schema.blocks + ·) :=
      Span.blocks_shift (by simp only [maskBlocks, maskWords, blockBits] at hblocks; omega)
        (by omega)
    rw [Function.comp_apply, h.stretch_right hmem, Stretch.entries, Stretch.entries, hshift,
      List.zip_map_left]
    rfl

/-- The joined record is dirty when one of the two is. -/
theorem isDirty_iff (h : Joins part rest flat) :
    flat.isDirty = true ↔ part.isDirty = true ∨ rest.isDirty = true := by
  rw [h.part_sound.isDirty_iff, h.rest_sound.isDirty_iff, h.flat_sound.isDirty_iff]
  constructor
  · rintro ⟨i, hheld⟩
    rw [h.holds_eq] at hheld
    split at hheld
    · exact .inl ⟨i, hheld⟩
    · exact .inr ⟨_, hheld⟩
  · rintro (⟨i, hheld⟩ | ⟨i, hheld⟩)
    · refine ⟨i, ?_⟩
      rw [h.holds_eq, if_pos (h.holds_lt i hheld), hheld]
    · refine ⟨i + part.schema.sections.length, ?_⟩
      rw [h.holds_eq, if_neg (by omega), Nat.add_sub_cancel, hheld]

end Joins

end Record

end ObjectSync
