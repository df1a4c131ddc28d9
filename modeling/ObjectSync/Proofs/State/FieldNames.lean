import ObjectSync.Proofs.Declaration.Append
import ObjectSync.Proofs.Declaration.Homes
import ObjectSync.Proofs.Declaration.Lookup
import ObjectSync.Proofs.State.Changes

/-!
# Fields by name and by number

A field can be flagged by its name, which is slow and reports a miss, and by its place in the table,
which is fast and silent. **`DirtySet.flagsAlike_of_compile`** says that the two agree, whichever
tables the sections of the fields are looked up in: the names that are known are those of the named
fields in front of the end marker, each stands for one field, and to flag it is to flag the field.
Anything else, a name or a number, leaves the set as it is.
-/

namespace ObjectSync

/-- Entry `k` of a table is a field with this name in front of the end marker. -/
def Names (table : List Field) (k : Nat) (name : String) : Prop :=
  ∃ field, (Schema.declared table)[k]? = some field ∧ field.isPadding = false ∧ field.name = name

namespace Schema

variable {settings : Settings} {name fieldName : String} {table : List Field} {schema : Schema}
  {k : Nat}

/-- The names of a schema are those of its table. -/
theorem hasName_iff_names (hcompile : compile settings name table = .ok schema) :
    schema.hasName k fieldName = true ↔ Names table k fieldName := by
  rw [Names, ← map_field_of_compile hcompile, List.getElem?_map, hasName, placement?]
  cases schema.placements[k]? with
  | none => simp
  | some p => simp

/-- The fields with a name are those that are told a section. -/
theorem isSome_sectionOf?_iff (hcompile : compile settings name table = .ok schema) :
    (schema.sectionOf? k).isSome = true ↔ ∃ fieldName, Names table k fieldName := by
  simp only [← hasName_iff_names hcompile]
  obtain ⟨scan, hfold, _, _, rfl⟩ := compile_eq_ok_iff.1 hcompile
  rw [sectionOf?]
  simp only [hasName]
  cases hk : (scan.schema settings name).placement? k with
  | none => simp
  | some p =>
    have hhome := (Scan.Housed.foldlM hfold).isSome_home p (List.mem_of_getElem? hk)
    show p.home.isSome = true ↔ _
    rw [hhome]
    simp

theorem sectionNamed?_of_names (hcompile : compile settings name table = .ok schema)
    (hnames : Names table k fieldName) : schema.sectionNamed? fieldName = schema.sectionOf? k := by
  obtain ⟨i, hi⟩ := Option.isSome_iff_exists.1 ((isSome_sectionOf?_iff hcompile).2 ⟨_, hnames⟩)
  rw [hi]
  exact (sectionNamed?_eq_some_iff hcompile).2 ⟨k, (hasName_iff_names hcompile).2 hnames, hi⟩

theorem sectionNamed?_of_unknown (hcompile : compile settings name table = .ok schema)
    (hunknown : ∀ k, ¬Names table k fieldName) : schema.sectionNamed? fieldName = none := by
  refine Option.eq_none_iff_forall_ne_some.2 fun i hi => ?_
  obtain ⟨k, hname, _⟩ := (sectionNamed?_eq_some_iff hcompile).1 hi
  exact hunknown k ((hasName_iff_names hcompile).1 hname)

/-- A name stands for one field. -/
theorem names_unique (hcompile : compile settings name table = .ok schema) {k' : Nat}
    (hk : Names table k fieldName) (hk' : Names table k' fieldName) : k' = k := by
  have hfound {k : Nat} (h : Names table k fieldName) : schema.fieldNamed? fieldName = some k := by
    have hname := (hasName_iff_names hcompile).2 h
    rw [hasName, Option.any_eq_true] at hname
    obtain ⟨p, hp, hnamed⟩ := hname
    rw [Bool.and_eq_true, Bool.not_eq_true', beq_iff_eq] at hnamed
    exact (fieldNamed?_eq_some_iff hcompile).2 ⟨p, hp, hnamed⟩
  exact Option.some.inj ((hfound hk').symm.trans (hfound hk))

end Schema

namespace DirtySet

/-- On every set, to flag a field by its name is to flag it by its number. -/
structure FlagsAlike (settings : Settings) (name : String) (table : List Field) (schema : Schema) :
    Prop where
  /-- A name stands for one field. -/
  unique : ∀ fieldName k k', Names table k fieldName → Names table k' fieldName → k' = k
  known_iff : ∀ (set : DirtySet) fieldName,
    (set.flagName schema fieldName).value.1 = true ↔ ∃ k, Names table k fieldName
  flagName_eq : ∀ (set : DirtySet) k fieldName, Names table k fieldName →
    set.flagName schema fieldName = pure (true, set.flagField schema k)
  /-- A name that no field has changes nothing, and is reported as the settings have it. -/
  flagName_of_unknown : ∀ (set : DirtySet) fieldName, (∀ k, ¬Names table k fieldName) →
    set.flagName schema fieldName =
      { value := (false, set), notices := settings.onMiss.notice?.toList }
  flagField_eq : ∀ (set : DirtySet) k fieldName, Names table k fieldName →
    set.flagField schema k = (set.flagName schema fieldName).value.2
  /-- A number that is not that of a field with a name changes nothing. -/
  flagField_of_unnamed : ∀ (set : DirtySet) k, (∀ fieldName, ¬Names table k fieldName) →
    set.flagField schema k = set
  /-- The tables that a compiler fills tell the sections that both go by. -/
  indexed : ∃ lookup, Schema.compileIndexed settings name table = .ok (schema, lookup) ∧
    schema.Agrees lookup

section Flags

variable {settings : Settings} {name fieldName : String} {table : List Field} {schema : Schema}
  {k : Nat}

theorem flagName_of_names (hcompile : Schema.compile settings name table = .ok schema)
    (hnames : Names table k fieldName) (set : DirtySet) :
    set.flagName schema fieldName = pure (true, set.flagField schema k) := by
  obtain ⟨i, hi⟩ := Option.isSome_iff_exists.1
    ((Schema.isSome_sectionOf?_iff hcompile).2 ⟨_, hnames⟩)
  rw [flagName, Schema.sectionNamed?_of_names hcompile hnames, flagField, hi]

theorem flagName_of_unknown (hcompile : Schema.compile settings name table = .ok schema)
    (hunknown : ∀ k, ¬Names table k fieldName) (set : DirtySet) :
    set.flagName schema fieldName =
      { value := (false, set), notices := settings.onMiss.notice?.toList } := by
  obtain ⟨scan, _, _, _, hschema⟩ := Schema.compile_eq_ok_iff.1 hcompile
  rw [flagName, Schema.sectionNamed?_of_unknown hcompile hunknown, hschema]
  rfl

/-- In a compiled table, a field is flagged by its name as it is by its number. -/
theorem flagsAlike_of_compile (hcompile : Schema.compile settings name table = .ok schema) :
    FlagsAlike settings name table schema where
  unique _ _ _ := Schema.names_unique hcompile
  known_iff set fieldName := by
    by_cases hknown : ∃ k, Names table k fieldName
    · obtain ⟨k, hk⟩ := hknown
      rw [flagName_of_names hcompile hk]
      exact iff_of_true rfl ⟨k, hk⟩
    · rw [flagName_of_unknown hcompile (not_exists.1 hknown)]
      exact iff_of_false Bool.false_ne_true hknown
  flagName_eq set _ _ hnames := flagName_of_names hcompile hnames set
  flagName_of_unknown set _ hunknown := flagName_of_unknown hcompile hunknown set
  flagField_eq set _ _ hnames := by
    rw [flagName_of_names hcompile hnames]
    rfl
  flagField_of_unnamed set k hunnamed := by
    have hnone := mt (Schema.isSome_sectionOf?_iff hcompile).1 (not_exists.2 hunnamed)
    rw [flagField, Option.not_isSome_iff_eq_none.1 hnone]
  indexed := Schema.compileIndexed_of_ok hcompile

/-- Padding between two fields, and a third field behind the end marker. -/
theorem flagsAlike_of_compile_stopped :
    let table : List Field :=
      [.scalar "a" .u16, .padding .u16 1, .scalar "b" .u64, .stop, .scalar "c" .u32]
    ∃ schema, Schema.compile {} "T" table = .ok schema ∧ FlagsAlike {} "T" table schema := by
  intro table
  obtain ⟨schema, hcompile⟩ : ∃ schema, Schema.compile {} "T" table = .ok schema := ⟨_, rfl⟩
  exact ⟨schema, hcompile, flagsAlike_of_compile hcompile⟩

end Flags

end DirtySet

end ObjectSync
