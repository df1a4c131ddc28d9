import Std.Data.HashMap.Lemmas
import ObjectSync.Proofs.Declaration.Compile

/-!
# Lookup tables

A schema tells the section of a field from its placements, which it searches for a name from the
front. Here stands a compiler that keeps two tables for this, a map by name and a list by number
(`Lookup`), and fills them while it places the fields: padding has an entry in the list only, and a
name that the map has already is a fault (`Schema.compileIndexed`).

It has the same faults and the same schemas as `Schema.compile`, and its tables say what the
placements say (`Schema.compileIndexed_alongside`), so they tell the section of a name and of a
number as the schema does (**`Schema.compileIndexed_of_ok`**).
-/

namespace ObjectSync

/-- The sections of the fields so far, by name and by number. -/
structure Lookup where
  byName : Std.HashMap String Nat := {}
  byField : List (Option Nat) := []

namespace Lookup

/-- Enters a field. If it is not padding, `home` is its section. -/
def enter (schema : String) (lookup : Lookup) (field : Field) (home : Nat) :
    Except SchemaFault Lookup :=
  if field.isPadding then
    .ok { lookup with byField := lookup.byField ++ [none] }
  else
    let entered := lookup.byName.containsThenInsert field.name home
    if entered.1 then
      .error (.duplicateField schema field.name)
    else
      .ok { byName := entered.2, byField := lookup.byField ++ [some home] }

/-- The tables say what the placements say. -/
structure Mirrors (lookup : Lookup) (placements : List Placement) : Prop where
  byName_iff : ∀ name i, lookup.byName[name]? = some i ↔
    ∃ p ∈ placements, p.field.isPadding = false ∧ p.field.name = name ∧ p.home = some i
  byField_eq : lookup.byField = placements.map Placement.home
  isSome_home : ∀ p ∈ placements, p.field.isPadding = false → p.home.isSome = true

namespace Mirrors

variable {lookup : Lookup} {scan : Scan} {field : Field} {name : String}

theorem start : Mirrors {} ({} : Scan).placements where
  byName_iff name i := by simp
  byField_eq := rfl
  isSome_home := nofun

/-- The map has the names that are declared. -/
theorem contains_eq (h : lookup.Mirrors scan.placements) (name : String) :
    lookup.byName.contains name = scan.declares name := by
  rw [Std.HashMap.contains_eq_isSome_getElem?, Bool.eq_iff_iff, Option.isSome_iff_exists,
    Scan.declares, List.any_eq_true]
  simp only [h.byName_iff, Bool.and_eq_true, Bool.not_eq_true', beq_iff_eq]
  constructor
  · rintro ⟨_, p, hp, hnamed, hname, _⟩
    exact ⟨p, hp, hnamed, hname⟩
  · rintro ⟨p, hp, hnamed, hname⟩
    obtain ⟨i, hi⟩ := Option.isSome_iff_exists.1 (h.isSome_home p hp hnamed)
    exact ⟨i, p, hp, hnamed, hname, hi⟩

theorem enter_of_padding (h : lookup.Mirrors scan.placements) (hpadding : field.isPadding = true)
    (schema : String) : ∃ next,
      lookup.enter schema field scan.sections.length = .ok next ∧
        next.Mirrors (scan.put field).placements := by
  refine ⟨_, if_pos hpadding, ?_⟩
  rw [Scan.put_of_padding hpadding]
  exact {
    byName_iff := by
      intro name i
      rw [h.byName_iff]
      constructor
      · rintro ⟨p, hp, hrest⟩
        exact ⟨p, List.mem_append_left _ hp, hrest⟩
      · rintro ⟨p, hp, hnamed, hrest⟩
        refine ⟨p, (List.mem_append.1 hp).resolve_right fun hlast => ?_, hnamed, hrest⟩
        rw [List.mem_singleton.1 hlast, hpadding] at hnamed
        cases hnamed
    byField_eq := by rw [h.byField_eq, List.map_append]; rfl
    isSome_home := by
      intro p hp hnamed
      rcases List.mem_append.1 hp with hold | hlast
      · exact h.isSome_home p hold hnamed
      · rw [List.mem_singleton.1 hlast, hpadding] at hnamed
        cases hnamed }

/-- A named field is entered behind the others, unless its name is declared. -/
theorem enter_of_named (h : lookup.Mirrors scan.placements) (hnamed : field.isPadding = false)
    (schema : String) (home : Nat) : lookup.enter schema field home =
      if scan.declares field.name then .error (.duplicateField schema field.name)
      else .ok {
        byName := lookup.byName.insert field.name home
        byField := lookup.byField ++ [some home] } := by
  rw [enter, if_neg (by rw [hnamed]; decide)]
  simp only [Std.HashMap.containsThenInsert_fst, Std.HashMap.containsThenInsert_snd,
    h.contains_eq]

theorem insert_new (h : lookup.Mirrors scan.placements) (hnamed : field.isPadding = false)
    (hnew : scan.declares field.name = false) :
    Mirrors {
      byName := lookup.byName.insert field.name scan.sections.length
      byField := lookup.byField ++ [some scan.sections.length] } (scan.put field).placements := by
  rw [Scan.put_of_named hnamed]
  have hother (p : Placement) (hp : p ∈ scan.placements) (hpadding : p.field.isPadding = false) :
      p.field.name ≠ field.name := by
    have hdiffer := Scan.declares_eq_false_iff.1 hnew p.field (List.mem_map_of_mem hp)
    rw [hpadding] at hdiffer
    exact hdiffer.resolve_left Bool.false_ne_true
  exact {
    byName_iff := by
      intro name i
      rw [Std.HashMap.getElem?_insert]
      split
      · next hname =>
        rw [beq_iff_eq] at hname
        subst hname
        constructor
        · rintro ⟨⟩
          exact ⟨_, List.mem_append_right _ (List.mem_singleton.2 rfl), hnamed, rfl, rfl⟩
        · rintro ⟨p, hp, hpadding, hname, hhome⟩
          rcases List.mem_append.1 hp with hold | hlast
          · exact absurd hname (hother p hold hpadding)
          · rwa [List.mem_singleton.1 hlast] at hhome
      · next hname =>
        rw [beq_iff_eq] at hname
        rw [h.byName_iff]
        constructor
        · rintro ⟨p, hp, hrest⟩
          exact ⟨p, List.mem_append_left _ hp, hrest⟩
        · rintro ⟨p, hp, hpadding, hsame, hhome⟩
          refine ⟨p, (List.mem_append.1 hp).resolve_right fun hlast => hname ?_, hpadding, hsame,
            hhome⟩
          rw [← hsame, List.mem_singleton.1 hlast]
    byField_eq := by rw [h.byField_eq, List.map_append]; rfl
    isSome_home := by
      intro p hp hpadding
      rcases List.mem_append.1 hp with hold | hlast
      · exact h.isSome_home p hold hpadding
      · rw [List.mem_singleton.1 hlast]
        rfl }

end Mirrors

end Lookup

/-! ## Compiling with tables -/

/-- Puts a field behind the fields so far and enters it, and cuts behind it once they fill a
block. -/
def Scan.placeIndexed (schema : String) (state : Scan × Lookup) (field : Field) :
    Except SchemaFault (Scan × Lookup) :=
  let next := state.1.put field
  (state.2.enter schema field state.1.sections.length).bind fun lookup =>
    (if next.run.toNat < blockBits then .ok next else next.cut schema).map fun next =>
      (next, lookup)

/-- Compiles a table of fields, and keeps the lookup tables. -/
def Schema.compileIndexed (settings : Settings) (name : String) (table : List Field) :
    Except SchemaFault (Schema × Lookup) := do
  let (scan, lookup) ← (declared table).foldlM (Scan.placeIndexed name) ({}, {})
  let scan ← scan.finish name
  if settings.maxBlocks < scan.block.toNat then
    throw (.tooLarge name scan.block.toNat settings.maxBlocks)
  return (scan.schema settings name, lookup)

/-- Both compilers fail alike, or come to the same state with tables that mirror it. -/
def Scan.Alongside (result : Except SchemaFault Scan)
    (indexed : Except SchemaFault (Scan × Lookup)) : Prop :=
  (∃ fault, result = .error fault ∧ indexed = .error fault) ∨
    ∃ scan lookup, result = .ok scan ∧ indexed = .ok (scan, lookup) ∧
      lookup.Mirrors scan.placements

namespace Scan

variable {scan : Scan} {lookup : Lookup}

/-- A cut changes no placement. -/
theorem alongside_cut (h : lookup.Mirrors scan.placements) (name : String) :
    Alongside (if scan.run.toNat < blockBits then .ok scan else scan.cut name)
      ((if scan.run.toNat < blockBits then .ok scan else scan.cut name).map (·, lookup)) := by
  split
  · exact .inr ⟨scan, lookup, rfl, rfl, h⟩
  · cases hcut : scan.cut name with
    | error fault => exact .inl ⟨fault, rfl, rfl⟩
    | ok next =>
      obtain ⟨_, rfl⟩ := cut_eq_ok_iff.1 hcut
      exact .inr ⟨scan.closed, lookup, rfl, rfl, by rwa [placements_closed]⟩

theorem alongside_place (h : lookup.Mirrors scan.placements) (name : String) (field : Field) :
    Alongside (scan.place name field) (placeIndexed name (scan, lookup) field) := by
  -- only a field with a name can be refused, and the placements refuse the same names
  cases hpadding : field.isPadding with
  | true =>
    obtain ⟨next, henter, hnext⟩ := h.enter_of_padding hpadding name
    rw [place, hpadding, placeIndexed, henter]
    exact alongside_cut hnext name
  | false =>
    rw [place, hpadding, placeIndexed, h.enter_of_named hpadding]
    cases hnew : scan.declares field.name with
    | true => exact .inl ⟨_, rfl, rfl⟩
    | false => exact alongside_cut (h.insert_new hpadding hnew) name

theorem alongside_foldlM (h : lookup.Mirrors scan.placements) (name : String)
    (fields : List Field) :
    Alongside (fields.foldlM (place name) scan)
      (fields.foldlM (placeIndexed name) (scan, lookup)) := by
  induction fields generalizing scan lookup with
  | nil => exact .inr ⟨scan, lookup, rfl, rfl, h⟩
  | cons field rest ih =>
    rw [List.foldlM_cons, List.foldlM_cons]
    rcases alongside_place h name field with
      ⟨fault, hplace, hindexed⟩ | ⟨_, _, hplace, hindexed, hnext⟩
    · rw [hplace, hindexed]
      exact .inl ⟨fault, rfl, rfl⟩
    · rw [hplace, hindexed]
      exact ih hnext

end Scan

namespace Schema

variable {settings : Settings} {name : String} {table : List Field} {schema : Schema}

/-- With its tables a compiler has the same faults and the same schemas. -/
theorem compileIndexed_alongside (settings : Settings) (name : String) (table : List Field) :
    (∃ fault, compile settings name table = .error fault ∧
      compileIndexed settings name table = .error fault) ∨
    ∃ schema lookup, compile settings name table = .ok schema ∧
      compileIndexed settings name table = .ok (schema, lookup) ∧
        lookup.Mirrors schema.placements := by
  rw [compileIndexed, compile]
  rcases Scan.alongside_foldlM .start name (declared table) with
    ⟨fault, hfold, hindexed⟩ | ⟨scan, lookup, hfold, hindexed, hmirrors⟩
  · rw [hfold, hindexed]
    exact .inl ⟨fault, rfl, rfl⟩
  · rw [hfold, hindexed]
    have hrun : scan.run.toNat < blockBits := Scan.run_lt_of_foldlM (by decide) hfold
    simp only [bind, Except.bind]
    cases hfinish : scan.finish name with
    | error fault => exact .inl ⟨fault, rfl, rfl⟩
    | ok last =>
      obtain ⟨-, rfl⟩ := (Scan.finish_eq_ok_iff hrun).1 hfinish
      by_cases hlarge : settings.maxBlocks < last.block.toNat
      · simp only [if_pos hlarge]
        exact .inl ⟨_, rfl, rfl⟩
      · simp only [if_neg hlarge]
        exact .inr ⟨last.schema settings name, lookup, rfl, rfl, hmirrors⟩

/-- The tables tell the sections that the schema tells. -/
structure Agrees (schema : Schema) (lookup : Lookup) : Prop where
  byName_eq : ∀ name, lookup.byName[name]? = schema.sectionNamed? name
  byField_eq : ∀ k, lookup.byField[k]?.join = schema.sectionOf? k

/-- What a table is compiled to tells the same sections, with the lookup tables and without. -/
theorem compileIndexed_of_ok (hcompile : compile settings name table = .ok schema) :
    ∃ lookup, compileIndexed settings name table = .ok (schema, lookup) ∧
      schema.Agrees lookup := by
  rcases compileIndexed_alongside settings name table with
    ⟨fault, hfault, _⟩ | ⟨_, lookup, hsame, hindexed, hmirrors⟩
  · cases hcompile.symm.trans hfault
  · cases hcompile.symm.trans hsame
    refine ⟨lookup, hindexed, ?_, ?_⟩
    · -- the map has the section of the one field with the name
      intro fieldName
      refine Option.ext fun i => ?_
      rw [hmirrors.byName_iff, sectionNamed?]
      simp only [Option.bind_eq_bind, Option.bind_eq_some_iff, fieldNamed?_eq_some_iff hcompile]
      constructor
      · rintro ⟨p, hp, hnamed, hname, hhome⟩
        obtain ⟨k, hk⟩ := List.mem_iff_getElem?.1 hp
        exact ⟨k, ⟨p, hk, hnamed, hname⟩, by rw [sectionOf?, placement?, hk]; exact hhome⟩
      · rintro ⟨k, ⟨p, hk, hnamed, hname⟩, hsection⟩
        rw [sectionOf?, hk] at hsection
        exact ⟨p, List.mem_of_getElem? hk, hnamed, hname, hsection⟩
    · intro k
      rw [hmirrors.byField_eq, List.getElem?_map, sectionOf?, placement?]
      cases schema.placements[k]? <;> rfl

end Schema

end ObjectSync
