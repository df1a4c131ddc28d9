import ObjectSync.Proofs.Declaration.Homes
import ObjectSync.Proofs.State.Changes

/-!
# Flagged fields

To flag a field, by its place or by its name, is to flag the section that the field was told while
the table was compiled. Where this section is there, the next message carries it, however the record
came about (**`Record.fieldHome_of_compile`**). It is not there for the fields behind the last cut,
those from which on nothing takes a bit: no section lists them
(`Record.not_listed_of_trails`).
-/

namespace ObjectSync.Record

variable {settings : Settings} {name : String} {table : List Field} {schema : Schema} {k i : Nat}
  {p : Placement} {part : Section} {steps : List Step}

/-- The field was flagged, by its place or by its name, and not all flags were taken away since. -/
def Flagged (k : Nat) (fieldName : String) (steps : List Step) : Prop :=
  .edit (.flagField k) ∈ sinceCleared steps ∨ .flagName fieldName ∈ sinceCleared steps

theorem Flagged.reaches (h : Flagged k p.field.name steps) (hk : schema.placement? k = some p)
    (hnamed : p.field.isPadding = false) (hi : schema.sectionOf? k = some i) :
    ∃ step ∈ sinceCleared steps, step.Reaches schema i := by
  rcases h with hfield | hname
  · exact ⟨_, hfield, k, beq_self_eq_true k, hi⟩
  · exact ⟨_, hname, k, Schema.hasName_of_placement? hk hnamed, hi⟩

/-- The section of a field that was flagged is among those to send as changed. -/
theorem Flagged.sends (h : Flagged k p.field.name steps)
    (hcompile : Schema.compile settings name table = .ok schema)
    (hk : schema.placement? k = some p) (hnamed : p.field.isPadding = false)
    (hsection : schema.sectionOf? k = some i) (hi : i < schema.sections.length) :
    (reached schema steps).Sends true i :=
  ⟨(schema_reached schema steps).symm ▸ hi,
    fun _ => (isFlagged_reached hcompile hi).2 (h.reaches hk hnamed hsection)⟩

/-- What a named field is told of its section, and what becomes of the field when it is flagged. -/
structure FieldHome (table : List Field) (schema : Schema) (k : Nat) (p : Placement) (i : Nat) :
    Prop where
  sectionOf_eq : schema.sectionOf? k = some i
  sectionNamed_eq : schema.sectionNamed? p.field.name = some i
  /-- Behind the last cut it is told a section that is not there. -/
  trailing : schema.Trails k → i = schema.sections.length
  /-- Anywhere else it is listed, and once it is flagged, its section is among those to send. -/
  listed : ¬schema.Trails k → ∃ part, schema.sections[i]? = some part ∧ k ∈ part.fields ∧
    ∀ steps, Flagged k p.field.name steps → part ∈ (reached schema steps).chosen true
  /-- Where the width of the table is a size, the field is behind the last cut when nothing takes a
  bit from the field on. -/
  trails_iff : FitsSize table →
    (schema.Trails k ↔ Field.roomOf ((Schema.declared table).drop k) = 0)
  /-- Where the width of the table is a size, the next message announces all blocks of the section,
  and brings a word for each. -/
  carried : FitsSize table → ∀ part, schema.sections[i]? = some part →
    ∀ steps, Flagged k p.field.name steps → ∃ entries,
      Reads ValuesBlock.reader ((reached schema steps).marshal true).value.1 entries ∧
        ∀ block ∈ part.span, block ∈ entries.map Prod.fst

/-- A named field has its section, unless it is behind the last cut, and to flag the field makes the
next message carry the section. -/
theorem fieldHome_of_compile (hcompile : Schema.compile settings name table = .ok schema)
    (hk : schema.placement? k = some p) (hnamed : p.field.isPadding = false) :
    ∃ i, FieldHome table schema k p i := by
  obtain ⟨i, hi, htrailing, hlisted⟩ := Schema.home_of_compile hcompile hk hnamed
  refine ⟨i, {
    sectionOf_eq := hi
    sectionNamed_eq := (Schema.sectionNamed?_eq_some_iff hcompile).2
      ⟨k, Schema.hasName_of_placement? hk hnamed, hi⟩
    trailing := htrailing
    listed := ?_
    trails_iff := fun hfits => Schema.trails_iff hfits hcompile hk
    carried := ?_ }⟩
  · intro hnot
    obtain ⟨part, hpart, hmem⟩ := hlisted hnot
    refine ⟨part, hpart, hmem, fun steps hflagged => ?_⟩
    have hsends := hflagged.sends hcompile hk hnamed hi (List.getElem?_eq_some_iff.1 hpart).1
    refine (Shaped.reached schema steps).mem_chosen.2 ⟨i, ?_, hsends⟩
    rwa [schema_reached]
  · intro hfits part hpart steps hflagged
    have hsound := sound_reached hfits hcompile steps
    have hsends := hflagged.sends hcompile hk hnamed hi (List.getElem?_eq_some_iff.1 hpart).1
    refine ⟨_, hsound.reads_marshal true, fun block hblock => ?_⟩
    refine (mem_map_fst_entries hsound).2 ⟨i, part, ?_, hsends, hblock⟩
    rwa [schema_reached]

/-- A field without elements goes with the one behind it. -/
theorem fieldHome_of_compile_empty :
    ∃ schema p, Schema.compile {} "T" [.array "a" .u8 0, .scalar "b" .u32] = .ok schema ∧
      schema.placement? 0 = some p ∧ p.field.isPadding = false ∧
      ∃ i, FieldHome [.array "a" .u8 0, .scalar "b" .u32] schema 0 p i := by
  have hrun : (Schema.compile {} "T" [.array "a" .u8 0, .scalar "b" .u32]).toOption.map
      (·.placement? 0) = some (some ⟨.array "a" .u8 0, 0, 0, some 0⟩) := by decide +kernel
  obtain ⟨schema, hcompile, hk⟩ := Schema.exists_of_compile hrun
  exact ⟨schema, _, hcompile, hk, by decide, fieldHome_of_compile hcompile hk (by decide)⟩

/-- A field without elements behind the last field that has some is told a section, and none lists
it. -/
theorem not_listed_of_trails :
    ∃ schema, Schema.compile {} "T" [.scalar "a" .u32, .array "b" .u8 0] = .ok schema ∧
      schema.sectionOf? 1 = some 1 ∧ schema.sectionNamed? "b" = some 1 ∧
      schema.sections.length = 1 ∧ ∀ part ∈ schema.sections, 1 ∉ part.fields := by
  have hrun : (Schema.compile {} "T" [.scalar "a" .u32, .array "b" .u8 0]).toOption.map
      (fun schema => (schema.sectionOf? 1, schema.sectionNamed? "b", schema.sections)) =
      some (some 1, some 1, [{ span := { start := 0, count := 1 }, fields := [0] }]) := by
    decide +kernel
  obtain ⟨schema, hcompile, heq⟩ := Schema.exists_of_compile hrun
  obtain ⟨hsection, hrest⟩ := Prod.mk.inj heq
  obtain ⟨hname, hsections⟩ := Prod.mk.inj hrest
  refine ⟨schema, hcompile, hsection, hname, ?_, ?_⟩
  · rw [hsections]
    rfl
  · rw [hsections]
    decide

end ObjectSync.Record
