import Mathlib.Data.List.Induction
import ObjectSync.Proofs.Declaration.Tiling
import ObjectSync.Proofs.State.Decoding

/-!
# What is sent as changed

Which sections changed is kept in a dirty set, but a run of operations says it as well: an operation
touches fields, and the sections to send are those of the fields that were touched since all flags
were last taken away (`Record.changed`). One operation keeps the dirty set in step with this
(`Record.holds_step`), so a run does (`Record.holds_reached`).

**`Record.sendsChanges_reached`** says what follows for the message: each changed section is sent
once, nothing else is, and behind a message there is nothing left to send. In a table wider than any
size a field may be put behind the last block; to flag it makes the record dirty, and there is
nothing to send (`Record.not_sendsChanges_of_wrap`).
-/

namespace ObjectSync

namespace Schema

/-- Whether the table has the element, in a field that is not padding. -/
def hasElement (schema : Schema) (field index : Nat) : Bool :=
  (schema.placement? field).any fun p => !p.field.isPadding && index < p.field.length.toNat

/-- Whether the field has the name, and is not padding. -/
def hasName (schema : Schema) (field : Nat) (name : String) : Bool :=
  (schema.placement? field).any fun p => !p.field.isPadding && p.field.name == name

theorem hasName_of_placement? {schema : Schema} {k : Nat} {p : Placement}
    (hk : schema.placement? k = some p) (hnamed : p.field.isPadding = false) :
    schema.hasName k p.field.name = true := by
  rw [hasName, hk, Option.any_some, hnamed, beq_self_eq_true]
  rfl

theorem sectionNamed?_eq_some_iff {settings : Settings} {name : String} {table : List Field}
    {schema : Schema} (hcompile : compile settings name table = .ok schema) {fieldName : String}
    {i : Nat} :
    schema.sectionNamed? fieldName = some i ↔
      ∃ k, schema.hasName k fieldName = true ∧ schema.sectionOf? k = some i := by
  have hname (k : Nat) :
      schema.fieldNamed? fieldName = some k ↔ schema.hasName k fieldName = true := by
    rw [fieldNamed?_eq_some_iff hcompile, hasName, Option.any_eq_true]
    simp only [Bool.and_eq_true, Bool.not_eq_true', beq_iff_eq]
  simp only [sectionNamed?, Option.bind_eq_bind, Option.bind_eq_some_iff, hname]

end Schema

namespace Record

/-! ## Touched fields -/

namespace Step

/-- Whether the operation takes all flags away. -/
def clears : Step → Bool
  | .clearDirty | .takePart _ | .marshal _ => true
  | .edit _ | .flagName _ => false

/-- Whether the operation writes an element of the field, or flags it. -/
def touches (schema : Schema) (field : Nat) : Step → Bool
  | .edit (.set k _) => k == field && schema.hasElement field 0
  | .edit (.setAt k index _) => k == field && schema.hasElement field index
  | .edit (.flagField k) => k == field
  | .flagName name => schema.hasName field name
  | .clearDirty | .takePart _ | .marshal _ => false

/-- The operation touches a field of section `i`. -/
def Reaches (schema : Schema) (i : Nat) (step : Step) : Prop :=
  ∃ k, step.touches schema k = true ∧ schema.sectionOf? k = some i

theorem not_reaches_of_clears {schema : Schema} {i : Nat} {step : Step}
    (h : step.clears = true) : ¬step.Reaches schema i := by
  rintro ⟨k, htouches, _⟩
  cases step with
  | edit | flagName => cases h
  | clearDirty | takePart | marshal => cases htouches

end Step

/-- The operations since all flags were last taken away. -/
def sinceCleared (steps : List Step) : List Step :=
  (steps.reverse.takeWhile (! ·.clears)).reverse

theorem sinceCleared_concat (steps : List Step) (step : Step) :
    sinceCleared (steps ++ [step]) =
      if step.clears then [] else sinceCleared steps ++ [step] := by
  rw [sinceCleared, List.reverse_concat, List.takeWhile_cons, sinceCleared]
  cases step.clears <;> simp

/-- Whether a field of the section was touched since all flags were last taken away. -/
def changed (schema : Schema) (steps : List Step) (part : Section) : Bool :=
  part.fields.any fun k => (sinceCleared steps).any (·.touches schema k)

/-! ## Flags -/

section Flags

variable {record : Record} {i j k : Nat} {value : Value}

theorem isSome_slot? (record : Record) (k j : Nat) :
    (record.slot? k j).isSome = record.schema.hasElement k j := by
  rw [slot?, Schema.hasElement]
  cases record.schema.placement? k with
  | none => rfl
  | some p =>
    cases hp : p.field.isPadding with
    | true => simp [hp]
    | false => by_cases hj : p.field.length.toNat ≤ j <;> simp [hp, hj, Nat.lt_of_not_le]

theorem holds_setAt_iff :
    (record.setAt k j value).dirty.holds i = true ↔
      (record.dirty.HasRoom i ∧ record.schema.hasElement k j = true ∧
        record.schema.sectionOf? k = some i) ∨ record.dirty.holds i = true := by
  rw [setAt, ← isSome_slot?]
  cases record.slot? k j with
  | none => simp
  | some slot =>
    rw [Option.isSome_some, eq_self, true_and]
    exact DirtySet.holds_flagField_iff

theorem holds_edit_iff (edit : Edit) :
    (record.edit edit).dirty.holds i = true ↔
      (record.dirty.HasRoom i ∧
        (Step.edit edit).Reaches record.schema i) ∨ record.dirty.holds i = true := by
  cases edit with
  | set | setAt =>
    refine holds_setAt_iff.trans ?_
    simp [Step.Reaches, Step.touches]
  | flagField =>
    refine DirtySet.holds_flagField_iff.trans ?_
    simp [Step.Reaches, Step.touches]

/-- An operation flags the sections that it touches, and takes no flag away unless it takes all. -/
theorem holds_step {settings : Settings} {name : String} {table : List Field}
    (hcompile : Schema.compile settings name table = .ok record.schema) (step : Step) :
    (record.step step).dirty.holds i = true ↔
      (record.dirty.HasRoom i ∧ step.Reaches record.schema i) ∨
        (step.clears = false ∧ record.dirty.holds i = true) := by
  have hcleared (hclears : step.clears = true) (hstep : record.step step = record.clearDirty) :
      (record.step step).dirty.holds i = true ↔
        (record.dirty.HasRoom i ∧ step.Reaches record.schema i) ∨
          (step.clears = false ∧ record.dirty.holds i = true) := by
    have hholds : record.clearDirty.dirty.holds i = false := DirtySet.holds_clear
    simp [hstep, hholds, hclears, Step.not_reaches_of_clears hclears]
  cases step with
  | edit edit =>
    refine (holds_edit_iff edit).trans ?_
    simp [Step.clears]
  | flagName fieldName =>
    refine DirtySet.holds_flagName_iff.trans ?_
    simp [Schema.sectionNamed?_eq_some_iff hcompile, Step.clears, Step.Reaches, Step.touches]
  | clearDirty | takePart | marshal => exact hcleared rfl rfl

/-- No operation changes for which sections there is room. -/
theorem Shaped.hasRoom_step (h : record.Shaped) (step : Step) :
    (record.step step).dirty.HasRoom i ↔ record.dirty.HasRoom i := by
  have hlength := (h.step step).dirty.length_eq
  rw [schema_step] at hlength
  rw [DirtySet.HasRoom, DirtySet.HasRoom, hlength, h.dirty.length_eq]

/-- Behind operations that take no flag away those flags are there that were there before, and those
of the sections that the operations touch. -/
theorem holds_foldl_step {settings : Settings} {name : String} {table : List Field}
    (h : record.Shaped) (hcompile : Schema.compile settings name table = .ok record.schema)
    {steps : List Step} (hkeeps : ∀ step ∈ steps, step.clears = false) :
    (steps.foldl step record).dirty.holds i = true ↔
      (record.dirty.HasRoom i ∧ ∃ step ∈ steps, step.Reaches record.schema i) ∨
        record.dirty.holds i = true := by
  induction steps generalizing record with
  | nil => simp
  | cons step rest ih =>
    obtain ⟨hkeep, hrest⟩ := List.forall_mem_cons.1 hkeeps
    have hschema : (record.step step).schema = record.schema := schema_step step
    rw [List.foldl_cons, ih (h.step step) (hschema.symm ▸ hcompile) hrest, h.hasRoom_step, hschema,
      holds_step hcompile, and_iff_right hkeep, List.exists_mem_cons_iff, and_or_left, or_assoc,
      or_left_comm]

end Flags

section Reached

variable {settings : Settings} {name : String} {table : List Field} {schema : Schema}
  {steps : List Step} {i : Nat} {part : Section}

/-- The flags of a record are those of the sections touched since all were last taken away, as far
as there is room for them. -/
theorem holds_reached (hcompile : Schema.compile settings name table = .ok schema)
    (steps : List Step) :
    (reached schema steps).dirty.holds i = true ↔
      (reached schema steps).dirty.HasRoom i ∧
        ∃ step ∈ sinceCleared steps, step.Reaches schema i := by
  -- by the last operation: the flags in front of it stay, or all of them go
  induction steps using List.reverseRecOn with
  | nil =>
    have hblank : (reached schema []).dirty.holds i = false := DirtySet.holds_blank
    simp [hblank, sinceCleared]
  | append_singleton steps step ih =>
    have hschema := schema_reached schema steps
    have hstep : reached schema (steps ++ [step]) = (reached schema steps).step step := by
      simp [reached]
    rw [hstep, (Shaped.reached schema steps).hasRoom_step, holds_step (hschema.symm ▸ hcompile),
      hschema, ih, sinceCleared_concat]
    cases hclears : step.clears with
    | true => simp [Step.not_reaches_of_clears hclears]
    | false =>
      simp only [true_and, Bool.false_eq_true, if_false, List.mem_append, List.mem_singleton,
        ← and_or_left]
      refine and_congr_right fun _ => ?_
      constructor
      · rintro (hreaches | ⟨earlier, hearlier, hreaches⟩)
        · exact ⟨step, .inr rfl, hreaches⟩
        · exact ⟨earlier, .inl hearlier, hreaches⟩
      · rintro ⟨earlier, hearlier | rfl, hreaches⟩
        · exact .inr ⟨earlier, hearlier, hreaches⟩
        · exact .inl hreaches

/-- A section of the schema is flagged when it was touched since all flags were last taken away. -/
theorem isFlagged_reached (hcompile : Schema.compile settings name table = .ok schema)
    (hi : i < schema.sections.length) :
    (reached schema steps).dirty.isFlagged i = true ↔
      ∃ step ∈ sinceCleared steps, step.Reaches schema i := by
  have hdirty := (Shaped.reached schema steps).dirty
  rw [schema_reached] at hdirty
  rw [hdirty.isFlagged_eq hi, holds_reached hcompile]
  exact and_iff_right (hdirty.room hi)

theorem changed_iff (hsound : schema.Sound) (hi : schema.sections[i]? = some part) :
    changed schema steps part = true ↔ ∃ step ∈ sinceCleared steps, step.Reaches schema i := by
  have hlisted (k : Nat) : k ∈ part.fields ↔ schema.sectionOf? k = some i := by
    rw [(hsound.arranged.gathered i part hi).mem_iff, Schema.sectionOf?, Option.bind_eq_bind,
      Option.bind_eq_some_iff]
    rfl
  simp only [changed, List.any_eq_true, hlisted, Step.Reaches]
  constructor
  · rintro ⟨k, hk, step, hstep, htouches⟩
    exact ⟨step, hstep, k, htouches, hk⟩
  · rintro ⟨step, hstep, k, htouches, hk⟩
    exact ⟨k, hk, step, hstep, htouches⟩

/-- The sections sent as changed are those that the run changed. -/
theorem mem_chosen_reached (hfits : FitsSize table)
    (hcompile : Schema.compile settings name table = .ok schema) :
    part ∈ (reached schema steps).chosen true ↔
      part ∈ schema.sections ∧ changed schema steps part = true := by
  have hsound := sound_reached hfits hcompile steps
  have hschema := (Schema.compile_sound hfits hcompile).1
  rw [mem_chosen hsound, schema_reached, List.mem_iff_getElem?]
  constructor
  · rintro ⟨i, hi, hlt, hsends⟩
    rw [schema_reached] at hlt
    exact ⟨⟨i, hi⟩, (changed_iff hschema hi).2 ((isFlagged_reached hcompile hlt).1 (hsends rfl))⟩
  · rintro ⟨⟨i, hi⟩, hchanged⟩
    have hlt := (List.getElem?_eq_some_iff.1 hi).1
    have hflagged := (isFlagged_reached hcompile hlt).2 ((changed_iff hschema hi).1 hchanged)
    exact ⟨i, hi, (schema_reached schema steps).symm ▸ hlt, fun _ => hflagged⟩

theorem pairwise_start_chosen (hfits : FitsSize table)
    (hcompile : Schema.compile settings name table = .ok schema) (steps : List Step)
    (onlyDirty : Bool) :
    ((reached schema steps).chosen onlyDirty).Pairwise fun part next =>
      part.span.start.toNat < next.span.start.toNat := by
  have hsound := sound_reached hfits hcompile steps
  refine (Schema.compile_sound hfits hcompile).1.pairwise_start
    (Schema.count_pos_of_compile hfits hcompile) (fun part hpart => ?_) (pairwise_chosen hsound)
  have hmem := mem_sections_of_mem_chosen hsound hpart
  rwa [schema_reached] at hmem

theorem chosen_reached (hfits : FitsSize table)
    (hcompile : Schema.compile settings name table = .ok schema) :
    (reached schema steps).chosen true = schema.sections.filter (changed schema steps) := by
  have hchosen := pairwise_start_chosen hfits hcompile steps true
  have hsections := pairwise_start_chosen hfits hcompile steps false
  have hall : (reached schema steps).chosen false = schema.sections :=
    congrArg Schema.sections (schema_reached schema steps)
  rw [hall] at hsections
  have hfilter := hsections.filter (changed schema steps)
  have hperm : ((reached schema steps).chosen true).Perm
      (schema.sections.filter (changed schema steps)) := by
    refine (List.perm_ext_iff_of_nodup (hchosen.imp ?_) (hfilter.imp ?_)).2 fun part => ?_
    · rintro part _ hlt rfl
      exact Nat.lt_irrefl _ hlt
    · rintro part _ hlt rfl
      exact Nat.lt_irrefl _ hlt
    · rw [mem_chosen_reached hfits hcompile, List.mem_filter]
  refine hperm.eq_of_pairwise (fun part next _ _ hlt hgt => ?_) hchosen hfilter
  exact absurd hgt (Nat.lt_asymm hlt)

end Reached

/-! ## Messages -/

section Messages

variable {record : Record} {onlyDirty : Bool}

theorem length_data_encode (h : record.Sound) (onlyDirty : Bool) :
    (record.encode onlyDirty).data.length =
      ((record.encode onlyDirty).spans.map fun s => 4 * s.count.toNat).sum := by
  rw [encode_eq, EncodedPart.ofStretches, List.length_flatMap, List.map_map, List.map_map,
    List.map_map]
  refine congrArg List.sum (List.map_congr_left fun part hpart => ?_)
  have hlength := (h.stretch (mem_sections_of_mem_chosen h hpart)).length_eq
  show (record.stretch part).bytes.length = _
  rw [Stretch.length_bytes, hlength, Nat.mul_comm]
  rfl

/-- Nothing but the empty mask is sent exactly when no section is. -/
theorem marshal_eq_empty_iff (h : record.Sound)
    (hcount : ∀ part ∈ record.schema.sections, 0 < part.span.count.toNat) :
    (record.marshal onlyDirty).value.1 = [0] ↔ record.chosen onlyDirty = [] := by
  obtain ⟨block, hmarshal, hcarries⟩ := h.marshal_eq onlyDirty
  constructor
  · intro hempty
    have hread := h.reads_marshal onlyDirty []
    have hnone : ValuesBlock.reader.run ([0] ++ []) = some ([], []) := by decide
    rw [hempty, hnone] at hread
    have hentries : record.entries onlyDirty = [] :=
      (congrArg Prod.fst (Option.some.inj hread)).symm
    refine List.eq_nil_iff_forall_not_mem.2 fun part hpart => ?_
    obtain ⟨i, hi, hsends⟩ := (mem_chosen h).1 hpart
    have hmem := List.mem_of_getElem? hi
    have hstop := h.schema.arranged.stop_eq part hmem
    have hpos := hcount part hmem
    have hblock : part.span.start.toNat ∈ (record.entries onlyDirty).map Prod.fst :=
      (mem_map_fst_entries h).2 ⟨i, part, hi, hsends, Nat.le_refl _, by omega⟩
    rw [hentries] at hblock
    cases hblock
  · intro hnone
    have hentries : record.entries onlyDirty = [] := by rw [entries, hnone]; rfl
    rw [hentries] at hcarries
    rw [hmarshal]
    exact hcarries.bytes_eq (.empty 0)

/-- A record whose flags are all for sections of the schema is dirty exactly when it has something
to send. -/
theorem isDirty_iff_chosen (h : record.Sound)
    (hlt : ∀ i, record.dirty.holds i = true → i < record.schema.sections.length) :
    record.isDirty = true ↔ record.chosen true ≠ [] := by
  rw [h.isDirty_iff]
  constructor
  · rintro ⟨i, hheld⟩
    have hi := hlt i hheld
    exact List.ne_nil_of_mem ((mem_chosen h).2
      ⟨i, List.getElem?_eq_getElem hi, hi, fun _ => (h.dirty.isFlagged_eq hi).trans hheld⟩)
  · intro hne
    obtain ⟨part, hpart⟩ := List.exists_mem_of_ne_nil _ hne
    obtain ⟨i, _, hi, hsends⟩ := (mem_chosen h).1 hpart
    exact ⟨i, (h.dirty.isFlagged_eq hi).symm.trans (hsends rfl)⟩

end Messages

/-! ## Whole runs -/

/-- Behind the run each change is sent once, and nothing else is. -/
structure SendsChanges (schema : Schema) (steps : List Step) : Prop where
  /-- As changed, the sections are sent that changed. -/
  changed_spans : ((reached schema steps).takePart true).1.spans =
    (schema.sections.filter (changed schema steps)).map Section.span
  /-- As a whole, all sections are sent, whatever changed. -/
  all_spans : ((reached schema steps).takePart false).1.spans = schema.sections.map Section.span
  /-- The spans come in the order of their blocks, none of them twice. -/
  ascending : ∀ onlyDirty, ((reached schema steps).takePart onlyDirty).1.spans.Pairwise
    fun s next => s.start.toNat < next.start.toNat
  /-- There are four bytes for each block. -/
  length_data : ∀ onlyDirty, ((reached schema steps).takePart onlyDirty).1.data.length =
    (((reached schema steps).takePart onlyDirty).1.spans.map fun s => 4 * s.count.toNat).sum
  /-- The record keeps its values. -/
  slots_eq : ∀ onlyDirty, ((reached schema steps).takePart onlyDirty).2.slots =
    (reached schema steps).slots
  getAt_eq : ∀ onlyDirty type field index,
    ((reached schema steps).takePart onlyDirty).2.getAt type field index =
      (reached schema steps).getAt type field index
  /-- No section stays flagged. -/
  cleared : ∀ onlyDirty, ((reached schema steps).takePart onlyDirty).2.dirty.indices = [] ∧
    ((reached schema steps).takePart onlyDirty).2.isDirty = false
  /-- A second message has nothing to bring. -/
  nothing_left : ∀ onlyDirty,
    (((reached schema steps).takePart onlyDirty).2.marshal true).value.1 = [0]
  /-- If every named field has an element, the record says whether it has something to send. -/
  isDirty_iff : (∀ p ∈ schema.placements, p.field.isPadding = false → 0 < p.field.length.toNat) →
    ((reached schema steps).isDirty = true ↔ ((reached schema steps).marshal true).value.1 ≠ [0])

section Runs

variable {settings : Settings} {name : String} {table : List Field} {schema : Schema}

theorem marshal_reached_eq_empty_iff (hfits : FitsSize table)
    (hcompile : Schema.compile settings name table = .ok schema) (steps : List Step) :
    ((reached schema steps).marshal true).value.1 = [0] ↔
      (reached schema steps).chosen true = [] := by
  refine marshal_eq_empty_iff (sound_reached hfits hcompile steps) ?_
  rw [schema_reached]
  exact Schema.count_pos_of_compile hfits hcompile

/-- Behind an operation that takes all flags away no section is changed. -/
theorem chosen_of_clears (hfits : FitsSize table)
    (hcompile : Schema.compile settings name table = .ok schema) (steps : List Step) {step : Step}
    (hclears : step.clears = true) : (reached schema (steps ++ [step])).chosen true = [] := by
  have hnone (part : Section) : changed schema (steps ++ [step]) part = false := by
    simp [changed, sinceCleared_concat, hclears]
  rw [chosen_reached hfits hcompile, List.filter_eq_nil_iff]
  intro part _
  rw [hnone part]
  decide

/-- Where every named field has an element, only sections of the schema are flagged. -/
theorem lt_of_holds_reached (hfits : FitsSize table)
    (hcompile : Schema.compile settings name table = .ok schema) {steps : List Step} {i : Nat}
    (hfilled : ∀ p ∈ schema.placements, p.field.isPadding = false → 0 < p.field.length.toNat)
    (hheld : (reached schema steps).dirty.holds i = true) : i < schema.sections.length := by
  obtain ⟨_, _, _, k, _, hsection⟩ := (holds_reached hcompile steps).1 hheld
  have hlt := section_lt (k := k) (i := i) (sound_reached hfits hcompile steps)
  rw [schema_reached] at hlt
  exact hlt hfilled hsection

/-- Whatever is done to a record, each change is sent once, and nothing else is. -/
theorem sendsChanges_reached (hfits : FitsSize table)
    (hcompile : Schema.compile settings name table = .ok schema) (steps : List Step) :
    SendsChanges schema steps where
  changed_spans := (spans_encode _ _).trans <|
    congrArg (List.map Section.span) (chosen_reached hfits hcompile)
  all_spans := (spans_encode _ _).trans <|
    congrArg (fun s => s.sections.map Section.span) (schema_reached schema steps)
  ascending onlyDirty := by
    rw [takePart, spans_encode]
    exact List.pairwise_map.2 (pairwise_start_chosen hfits hcompile steps onlyDirty)
  length_data := length_data_encode (sound_reached hfits hcompile steps)
  slots_eq _ := rfl
  getAt_eq _ _ _ _ := rfl
  cleared _ := ⟨DirtySet.Sound.indices_eq_nil fun _ => DirtySet.holds_clear, rfl⟩
  nothing_left onlyDirty := by
    have hstep : ((reached schema steps).takePart onlyDirty).2 =
        reached schema (steps ++ [.takePart onlyDirty]) := by
      rw [reached, reached, List.foldl_concat]
      rfl
    rw [hstep, marshal_reached_eq_empty_iff hfits hcompile]
    exact chosen_of_clears hfits hcompile steps rfl
  isDirty_iff hfilled := by
    have hlt (i : Nat) (hheld : (reached schema steps).dirty.holds i = true) :
        i < (reached schema steps).schema.sections.length := by
      rw [schema_reached]
      exact lt_of_holds_reached hfits hcompile hfilled hheld
    rw [Ne, marshal_reached_eq_empty_iff hfits hcompile]
    exact isDirty_iff_chosen (sound_reached hfits hcompile steps) hlt

/-- A change that is sent, one behind it, and what has no element or name to change. -/
theorem sendsChanges_reached_again :
    let table : List Field := [.scalar "a" .u32, .padding .u32 1, .array "b" .u16 2]
    FitsSize table ∧ ∃ schema, Schema.compile {} "T" table = .ok schema ∧
      SendsChanges schema [.edit (.set 0 (.u32 7)), .marshal true, .edit (.setAt 2 1 (.u16 9)),
        .edit (.setAt 2 2 (.u16 9)), .edit (.flagField 1), .flagName "c"] := by
  obtain ⟨schema, hcompile⟩ : ∃ schema, Schema.compile {} "T"
      [.scalar "a" .u32, .padding .u32 1, .array "b" .u16 2] = .ok schema := ⟨_, rfl⟩
  have hfits : FitsSize [.scalar "a" .u32, .padding .u32 1, .array "b" .u16 2] := by decide
  exact ⟨hfits, schema, hcompile, sendsChanges_reached hfits hcompile _⟩

/-- In a table that is wider than any size, fields are left behind the last section. A record with
such a field flagged is dirty, and has nothing to send. -/
theorem not_sendsChanges_of_wrap :
    ∃ schema, Schema.compile {} "T"
        [.scalar "a" .u32, .array "b" .u8 9223372036854775808,
          .array "c" .u8 9223372036854775808] = .ok schema ∧
      ¬SendsChanges schema [.edit (.flagField 1)] := by
  have hrun : (Schema.compile {} "T" [.scalar "a" .u32, .array "b" .u8 9223372036854775808,
        .array "c" .u8 9223372036854775808]).toOption.map (fun schema =>
      (decide (∀ p ∈ schema.placements, p.field.isPadding = false → 0 < p.field.length.toNat),
        (reached schema [.edit (.flagField 1)]).isDirty,
        ((reached schema [.edit (.flagField 1)]).marshal true).value.1)) =
      some (true, true, [0]) := by decide +kernel
  cases hcompile : Schema.compile {} "T" [.scalar "a" .u32, .array "b" .u8 9223372036854775808,
      .array "c" .u8 9223372036854775808] with
  | error fault =>
    rw [hcompile] at hrun
    cases hrun
  | ok schema =>
    rw [hcompile] at hrun
    refine ⟨schema, rfl, fun hsends => ?_⟩
    obtain ⟨hfilled, hrest⟩ := Prod.mk.inj (Option.some.inj hrun)
    obtain ⟨hdirty, hmessage⟩ := Prod.mk.inj hrest
    exact (hsends.isDirty_iff (of_decide_eq_true hfilled)).1 hdirty hmessage

end Runs

end Record

end ObjectSync
