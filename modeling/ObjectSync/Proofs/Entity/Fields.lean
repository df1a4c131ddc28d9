import ObjectSync.Entity.Entries
import ObjectSync.Entity.Part
import ObjectSync.Entity.Powers
import ObjectSync.Proofs.Declaration.Append
import ObjectSync.Proofs.State.Changes

/-!
# The fields of the parts

A part declares its fields by name. In every schema that it compiles to, a named field has its place
in the declaration for a number, and it begins where the fields in front of it end
(**`Part.locates`**), so both can be read off the declaration.

At the end stand the facts about the declarations that the typed setters rely on: where the entries
of a player are kept, and that no field has two setters of different kinds.
-/

namespace ObjectSync

/-- The width of the fields is a size, none of them ends the table, and no property goes to
padding. -/
structure PartTable.WellFormed (table : PartTable) : Prop where
  fits : FitsSize table.fields
  isStop_eq : ∀ field ∈ table.fields, field.isStop = false
  property_ne_padding : ∀ property ∈ table.properties,
    (property.field == Field.paddingName) = false

namespace Part

/-- The first declared field with a name. -/
def field? (part : Part) (name : String) : Option Field := part.fields.find? (·.name == name)

/-- The number of elements of the field with a name. -/
def lengthOf (part : Part) (name : String) : Nat :=
  ((part.field? name).map (·.length.toNat)).getD 0

/-- The bits of the fields in front of the one with a name. -/
def bitsTo (part : Part) (name : String) : Nat :=
  Field.roomOf (part.fields.takeWhile fun field => !field.name == name)

theorem name_of_field? {part : Part} {name : String} {field : Field}
    (h : part.field? name = some field) : field.name = name :=
  beq_iff_eq.1 (List.find?_eq_some_iff_append.1 h).1

/-- Only a declared field has elements. -/
theorem exists_field?_of_lt {part : Part} {name : String} {index : Nat}
    (h : index < part.lengthOf name) : ∃ field, part.field? name = some field := by
  rw [lengthOf] at h
  cases hfield : part.field? name with
  | none =>
    rw [hfield] at h
    exact absurd h (Nat.not_lt_zero _)
  | some field => exact ⟨field, rfl⟩

theorem wellFormed_table (part : Part) : part.table.WellFormed := by
  cases part <;> constructor <;> decide +kernel

theorem fitsSize_fields (part : Part) : FitsSize part.fields := part.wellFormed_table.fits

theorem declared_fields (part : Part) : Schema.declared part.fields = part.fields :=
  Schema.declared_eq_self part.wellFormed_table.isStop_eq

/-- Field `k` of a schema is the field of the part with this name. -/
structure Locates (part : Part) (schema : Schema) (name : String) (k : Nat) (p : Placement) :
    Prop where
  fieldNamed?_eq : schema.fieldNamed? name = some k
  placement?_eq : schema.placement? k = some p
  field?_eq : part.field? name = some p.field
  isPadding_eq : p.field.isPadding = false
  offset_eq : p.offset.toNat = part.bitsTo name

variable {part : Part} {settings : Settings} {schema : Schema} {name : String}

/-- A declared field has its place, and begins where the fields in front of it end. -/
theorem locates (hcompile : Schema.compile settings part.name part.fields = .ok schema)
    {field : Field} (hfield : part.field? name = some field)
    (hpadding : (name == Field.paddingName) = false) :
    ∃ k p, part.Locates schema name k p ∧ p.field = field := by
  obtain ⟨-, front, back, hfields, hfront⟩ := List.find?_eq_some_iff_append.1 hfield
  have hname := name_of_field? hfield
  have hnamed : field.isPadding = false := by
    rw [Field.isPadding, hname]
    exact hpadding
  -- the schema has the declared fields in their order, so the number is that of the fields in front
  have hmap := Schema.map_field_of_compile hcompile
  rw [declared_fields, hfields] at hmap
  have hk : (schema.placements.map Placement.field)[front.length]? = some field := by
    rw [hmap, List.getElem?_append_right Nat.le.refl, Nat.sub_self]
    rfl
  rw [List.getElem?_map, Option.map_eq_some_iff] at hk
  obtain ⟨p, hp, rfl⟩ := hk
  have hbits : part.bitsTo name = Schema.bitsBefore part.fields front.length := by
    rw [bitsTo, Schema.bitsBefore, hfields, List.takeWhile_append_of_pos hfront,
      List.takeWhile_cons_of_neg (by simp [hname]), List.append_nil, List.take_left]
  refine ⟨front.length, p, ⟨?_, hp, hfield, hnamed, ?_⟩, rfl⟩
  · exact (Schema.fieldNamed?_eq_some_iff hcompile).2 ⟨p, hp, hnamed, hname⟩
  · rw [hbits, Schema.offset_of_compile part.fitsSize_fields hcompile hp, declared_fields]

/-- What a schema finds by a name is the field of the part with this name. -/
theorem locates_of_fieldNamed?
    (hcompile : Schema.compile settings part.name part.fields = .ok schema) {k : Nat}
    (hk : schema.fieldNamed? name = some k) : ∃ p, part.Locates schema name k p := by
  obtain ⟨p, hp, hnamed, rfl⟩ := (Schema.fieldNamed?_eq_some_iff hcompile).1 hk
  have hmem : p.field ∈ part.fields := by
    rw [← declared_fields, ← Schema.map_field_of_compile hcompile]
    exact List.mem_map_of_mem (List.mem_of_getElem? hp)
  have hsome : (part.field? p.field.name).isSome = true :=
    List.find?_isSome.2 ⟨p.field, hmem, beq_self_eq_true p.field.name⟩
  obtain ⟨field, hfield⟩ := Option.isSome_iff_exists.1 hsome
  obtain ⟨k', p', hlocates, rfl⟩ := locates hcompile hfield hnamed
  cases hk.symm.trans hlocates.fieldNamed?_eq
  exact ⟨p', hlocates⟩

namespace Locates

variable {k : Nat} {p : Placement}

theorem length_eq (h : part.Locates schema name k p) :
    p.field.length.toNat = part.lengthOf name := by
  rw [lengthOf, h.field?_eq]
  rfl

theorem hasElement (h : part.Locates schema name k p) {index : Nat}
    (hindex : index < part.lengthOf name) : schema.hasElement k index = true := by
  rw [Schema.hasElement, h.placement?_eq, Option.any_some, h.isPadding_eq, h.length_eq]
  exact decide_eq_true hindex

/-- A located field with elements has its section. -/
theorem home_of_sound (h : part.Locates schema name k p) (hsound : schema.Sound)
    (hlength : 0 < part.lengthOf name) : ∃ i, p.home = some i ∧ i < schema.sections.length := by
  have hmem := List.mem_of_getElem? h.placement?_eq
  have hsome := hsound.arranged.isSome_home p hmem
  rw [h.isPadding_eq, Bool.not_false] at hsome
  obtain ⟨i, hhome⟩ := Option.isSome_iff_exists.1 hsome
  have hroom : 0 < p.field.room :=
    Nat.mul_pos (Field.bits_pos (hsound.arranged.isStop_field p hmem)) (h.length_eq ▸ hlength)
  exact ⟨i, hhome, hsound.housed p hmem hroom i hhome⟩

end Locates

/-! ## Entries of a player -/

/-- The player has a field of this kind for the entries, and it begins with this block. No property
goes to it. -/
structure Keeps (array : EntryArray) (kind : FieldKind) (block : Nat) : Prop where
  field?_eq : player.field? array.field =
    some (.array array.field kind (.ofNat (array.size * array.width)))
  isPadding_eq : (array.field == Field.paddingName) = false
  bitsTo_eq : player.bitsTo array.field = block * blockBits
  width_pos : 0 < array.width
  fits : array.size * array.width < 2 ^ 64
  property_ne : ∀ property ∈ player.table.properties, property.field ≠ array.field

theorem keeps_entries : Keeps Quest.log .u32 10 ∧ Keeps VisibleItem.slots .u32 135 ∧
    Keeps Skill.list .u16 488 := by
  refine ⟨?_, ?_, ?_⟩ <;> constructor <;> decide +kernel

theorem keeps_log : Keeps Quest.log .u32 10 := keeps_entries.1

theorem keeps_slots : Keeps VisibleItem.slots .u32 135 := keeps_entries.2.1

theorem keeps_list : Keeps Skill.list .u16 488 := keeps_entries.2.2

namespace Keeps

variable {array : EntryArray} {kind : FieldKind} {block : Nat}

theorem lengthOf_eq (h : Keeps array kind block) :
    player.lengthOf array.field = array.size * array.width := by
  rw [lengthOf, h.field?_eq]
  exact Nat.mod_eq_of_lt h.fits

/-- The elements of an entry that is there are there. -/
theorem lt_lengthOf {i c : Nat} (h : Keeps array kind block) (hi : i < array.size)
    (hc : c < array.width) : i * array.width + c < player.lengthOf array.field :=
  calc i * array.width + c
    _ < i * array.width + array.width := Nat.add_lt_add_left hc _
    _ = (i + 1) * array.width := (Nat.succ_mul ..).symm
    _ ≤ array.size * array.width := Nat.mul_le_mul_right _ hi
    _ = player.lengthOf array.field := h.lengthOf_eq.symm

end Keeps

/-! ## Numbered fields of a unit -/

/-- The unit has a word for each number of the family, and no two numbers and no property share
one. -/
structure Numbers (family : UnitFamily) : Prop where
  field?_eq : ∀ name ∈ family.fields, unit.field? name = some (.scalar name .u32)
  isPadding_eq : ∀ name ∈ family.fields, (name == Field.paddingName) = false
  nodup : family.fields.Nodup
  apart : ∀ family' ∈ [UnitFamily.power, .maxPower, .stat],
    ∀ name ∈ family.fields, name ∈ family'.fields → family' = family
  property_ne : ∀ property ∈ unit.table.properties, property.field ∉ family.fields

theorem numbers (family : UnitFamily) : Numbers family := by
  cases family <;> constructor <;> decide +kernel

theorem lengthOf_of_mem {family : UnitFamily} (h : name ∈ family.fields) :
    unit.lengthOf name = 1 := by
  rw [lengthOf, (numbers family).field?_eq name h]
  rfl

/-- No field of a unit has two numbers. -/
theorem member_inj {family family' : UnitFamily} {i i' : Nat}
    (h : family.fields[i]? = some name) (h' : family'.fields[i']? = some name) :
    family' = family ∧ i' = i := by
  have hlisted : family' ∈ [UnitFamily.power, .maxPower, .stat] := by cases family' <;> decide
  obtain rfl := (numbers family).apart family' hlisted name (List.mem_of_getElem? h)
    (List.mem_of_getElem? h')
  refine ⟨rfl, ?_⟩
  have hlt' := (List.getElem?_eq_some_iff.1 h').1
  exact (List.getElem?_inj hlt' (numbers family').nodup).1 (h'.trans h.symm)

end Part

end ObjectSync
