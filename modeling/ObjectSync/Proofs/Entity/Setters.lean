import ObjectSync.Proofs.Entity.Fields
import ObjectSync.Proofs.State.LastWrite

/-!
# Typed setters

A typed setter of a part writes elements of one named field. `Setter.writes` lists them, and with
them a run of typed calls is a run of plain operations on a record (`Record.called_eq`). So what an
element holds behind a run of calls is what the last call that writes it has written
(`Call.lastWritten_eq`).

**`Record.localSetters_called`** says what one setter does then: in range it flags the section of its
field and no other, and out of range it does nothing.
-/

namespace ObjectSync

/-- A value for an element of a named field. -/
structure NamedWrite where
  field : String
  index : Nat
  value : Value

namespace NamedWrite

/-- The value, if it is for this element. -/
def at? (field : String) (index : Nat) (write : NamedWrite) : Option Value :=
  if write.field = field ∧ write.index = index then some write.value else none

/-- The write as an operation on the records of a schema, if there is such a field. -/
def step? (schema : Schema) (write : NamedWrite) : Option Record.Step :=
  (schema.fieldNamed? write.field).map fun k => .edit (.setAt k write.index write.value)

/-- Writes the elements one after the other. -/
def apply (record : Record) (writes : List NamedWrite) : Record :=
  writes.foldl (fun record write => record.setNamed write.field write.index write.value) record

end NamedWrite

/-- The elements that an entry is kept in. -/
def EntryArray.writes (array : EntryArray) (index : Nat) (values : List Value) : List NamedWrite :=
  if index < array.size then
    values.zipIdx.map fun item =>
      { field := array.field, index := index * array.width + item.2, value := item.1 }
  else []

theorem EntryArray.put_eq (array : EntryArray) (record : Record) (index : Nat)
    (values : List Value) :
    array.put record index values = NamedWrite.apply record (array.writes index values) := by
  rw [put, writes]
  split
  · rw [NamedWrite.apply, List.foldl_map]
  · rfl

/-- A typed setter of a part, with what it is given. -/
inductive Setter : Part → Type where
  | quest (index : Nat) (entry : Quest) : Setter .player
  | visibleItem (index : Nat) (entry : VisibleItem) : Setter .player
  | skill (index : Nat) (entry : Skill) : Setter .player
  | member (family : UnitFamily) (index : Nat) (value : UInt32) : Setter .unit
  | property {part : Part} (way : Property) (listed : way ∈ part.table.properties)
      (index : Nat) (value : Value) : Setter part

namespace Setter

variable {part : Part}

def apply (record : Record) : Setter part → Record
  | .quest index entry => record.setQuest index entry
  | .visibleItem index entry => record.setVisibleItem index entry
  | .skill index entry => record.setSkill index entry
  | .member family index value => family.put record index value
  | .property way _ index value => way.put record index value

def writes : Setter part → List NamedWrite
  | .quest index entry => Quest.log.writes index entry.values
  | .visibleItem index entry => VisibleItem.slots.writes index entry.values
  | .skill index entry => Skill.list.writes index entry.values
  | .member family index value =>
    (family.fields[index]?).toList.map fun name =>
      { field := name, index := 0, value := .u32 value }
  | .property way _ index value =>
    [{ field := way.field, index := if way.isElement then index else 0, value }]

/-- The field that is written, if the setter is in range. -/
def target? : Setter part → Option String
  | .quest index _ => if index < Quest.log.size then some Quest.log.field else none
  | .visibleItem index _ =>
    if index < VisibleItem.slots.size then some VisibleItem.slots.field else none
  | .skill index _ => if index < Skill.list.size then some Skill.list.field else none
  | .member family index _ => family.fields[index]?
  | .property way _ index _ =>
    if (if way.isElement then index else 0) < part.lengthOf way.field then some way.field else none

theorem apply_eq (record : Record) (setter : Setter part) :
    setter.apply record = NamedWrite.apply record setter.writes := by
  cases setter with
  | quest index entry => exact EntryArray.put_eq ..
  | visibleItem index entry => exact EntryArray.put_eq ..
  | skill index entry => exact EntryArray.put_eq ..
  | member family index value =>
    rw [apply, UnitFamily.put, writes]
    cases family.fields[index]? <;> rfl
  | property way listed index value => rfl

end Setter

/-! ## Runs of calls -/

theorem NamedWrite.apply_eq_foldl {schema : Schema} (writes : List NamedWrite) {record : Record}
    (h : record.schema = schema) :
    apply record writes = (writes.filterMap (step? schema)).foldl Record.step record := by
  induction writes generalizing record with
  | nil => rfl
  | cons write rest ih =>
    rw [apply, List.foldl_cons, ← apply, List.filterMap_cons, Record.setNamed, step?, h]
    cases schema.fieldNamed? write.field with
    | none => exact ih h
    | some k => exact ih (Record.schema_setAt.trans h)

/-- What is done to a part: a typed setter is called, or one of the operations of its record. -/
inductive Call (part : Part) where
  | set (setter : Setter part)
  | plain (operation : Record.Step)

namespace Call

variable {part : Part}

def apply (record : Record) : Call part → Record
  | .set setter => setter.apply record
  | .plain operation => record.step operation

/-- The operations that the call comes down to. -/
def steps (schema : Schema) : Call part → List Record.Step
  | .set setter => setter.writes.filterMap (NamedWrite.step? schema)
  | .plain operation => [operation]

theorem apply_eq (call : Call part) {record : Record} {schema : Schema}
    (h : record.schema = schema) :
    call.apply record = (call.steps schema).foldl Record.step record := by
  cases call with
  | set setter => exact (setter.apply_eq record).trans (NamedWrite.apply_eq_foldl _ h)
  | plain operation => rfl

/-- What the call writes to element `index` of a field, given by its name and its number. -/
def written? (field : String) (k index : Nat) : Call part → Option Value
  | .set setter => lastArg (NamedWrite.at? field index) setter.writes
  | .plain operation => operation.written? k index

end Call

namespace Record

variable {part : Part} {schema : Schema}

/-- The record that the calls make of a blank one. -/
def called (schema : Schema) (calls : List (Call part)) : Record :=
  calls.foldl Call.apply (blank schema)

/-- A run of calls is a run of operations. -/
theorem called_eq (schema : Schema) (calls : List (Call part)) :
    called schema calls = reached schema (calls.flatMap (Call.steps schema)) := by
  induction calls using List.reverseRecOn with
  | nil => rfl
  | append_singleton calls call ih =>
    rw [called, List.foldl_append, ← called, ih, List.flatMap_append, List.flatMap_singleton]
    refine (call.apply_eq (schema_reached schema _)).trans ?_
    rw [reached, reached, List.foldl_append]

end Record

namespace Call

variable {part : Part} {settings : Settings} {name field : String} {table : List Field}
  {schema : Schema} {k : Nat}

/-- What an element holds behind a run of calls is what was written last by one of them. -/
theorem lastWritten_eq (hcompile : Schema.compile settings name table = .ok schema)
    (hk : schema.fieldNamed? field = some k) (index : Nat) (calls : List (Call part)) :
    Record.lastWritten k index (calls.flatMap (Call.steps schema)) =
      lastArg (Call.written? field k index) calls := by
  obtain ⟨p, hp, hnamed, rfl⟩ := (Schema.fieldNamed?_eq_some_iff hcompile).1 hk
  -- a write is for the field with its name, and for no other
  have hwrite (write : NamedWrite) :
      (write.step? schema).bind (Record.Step.written? k index) =
        write.at? p.field.name index := by
    rw [NamedWrite.step?, NamedWrite.at?]
    by_cases hname : write.field = p.field.name
    · rw [hname, hk]
      show (if k = k ∧ write.index = index then _ else _) = _
      simp
    · cases hother : schema.fieldNamed? write.field with
      | none => rw [if_neg fun h => hname h.1]; rfl
      | some k' =>
        have hne : k' ≠ k := by
          rintro rfl
          obtain ⟨p', hp', -, hname'⟩ := (Schema.fieldNamed?_eq_some_iff hcompile).1 hother
          cases hp.symm.trans hp'
          exact hname hname'.symm
        show (if k' = k ∧ write.index = index then _ else _) = _
        rw [if_neg fun h => hne h.1, if_neg fun h => hname h.1]
  rw [Record.lastWritten, lastArg_flatMap]
  refine lastArg_congr fun call _ => ?_
  cases call with
  | set setter =>
    rw [steps, written?, lastArg_filterMap]
    exact lastArg_congr fun write _ => hwrite write
  | plain operation => exact (lastArg_concat _ [] operation).trans Option.or_none

end Call

/-- An element of a declared field has the bits of what was written last to it. -/
theorem Record.bitsAt_called {part : Part} {settings : Settings} {schema : Schema} {name : String}
    (hcompile : Schema.compile settings part.name part.fields = .ok schema) {k index : Nat}
    {p : Placement} (hlocates : part.Locates schema name k p) (hindex : index < part.lengthOf name)
    (calls : List (Call part)) :
    (called schema calls).bitsAt k index =
      ((lastArg (Call.written? name k index) calls).map Value.bits).getD 0 := by
  have hslotted := (Schema.compile_sound part.fitsSize_fields hcompile).1.slotted
  rw [called_eq, bitsAt_reached hslotted, hlocates.hasElement hindex, if_pos rfl,
    Call.lastWritten_eq hcompile hlocates.fieldNamed?_eq]

@[simp] theorem Record.schema_called {part : Part} (schema : Schema) (calls : List (Call part)) :
    (called schema calls).schema = schema := by
  rw [called_eq, schema_reached]

/-! ## One setter -/

@[simp] theorem Record.schema_setNamed (record : Record) (name : String) (index : Nat)
    (value : Value) : (record.setNamed name index value).schema = record.schema := by
  rw [setNamed]
  split
  · exact schema_setAt
  · rfl

namespace Setter

variable {part : Part} {settings : Settings} {schema : Schema} {record : Record}
  {setter : Setter part} {name : String}

/-- A setter that is out of range writes nothing that its field has. -/
theorem length_le_of_target (h : setter.target? = none) :
    ∀ write ∈ setter.writes, part.lengthOf write.field ≤ write.index := by
  intro write hwrite
  cases setter with
  | quest index entry | visibleItem index entry | skill index entry =>
    rw [target?, ite_eq_right_iff] at h
    rw [writes, EntryArray.writes, if_neg fun hlt => Option.some_ne_none _ (h hlt)] at hwrite
    cases hwrite
  | member family index value =>
    rw [writes, show family.fields[index]? = none from h] at hwrite
    cases hwrite
  | property way listed index value =>
    rw [target?, ite_eq_right_iff] at h
    obtain rfl := List.mem_singleton.1 hwrite
    exact Nat.le_of_not_lt fun hlt => Option.some_ne_none _ (h hlt)

/-- An entry that is there is written to elements that are there. -/
theorem writes_array {array : EntryArray} {kind : FieldKind} {block index : Nat}
    {values : List Value} (h : Part.Keeps array kind block) (hindex : index < array.size)
    (hlength : values.length = array.width) :
    array.writes index values ≠ [] ∧ ∀ write ∈ array.writes index values,
      write.field = array.field ∧ write.index < Part.player.lengthOf array.field := by
  rw [EntryArray.writes, if_pos hindex]
  refine ⟨?_, fun write hwrite => ?_⟩
  · rw [ne_eq, List.map_eq_nil_iff, List.zipIdx_eq_nil_iff]
    exact List.ne_nil_of_length_pos (hlength ▸ h.width_pos)
  · obtain ⟨item, hitem, rfl⟩ := List.mem_map.1 hwrite
    have hlt : item.2 < 0 + values.length := (List.mem_zipIdx hitem).2.1
    exact ⟨rfl, h.lt_lengthOf hindex (by omega)⟩

/-- A setter that is in range writes elements of its field. -/
theorem lt_length_of_target (h : setter.target? = some name) : setter.writes ≠ [] ∧
    ∀ write ∈ setter.writes, write.field = name ∧ write.index < part.lengthOf name := by
  cases setter with
  | quest index entry =>
    obtain ⟨hindex, ⟨⟩⟩ := Option.ite_none_right_eq_some.1 h
    exact writes_array Part.keeps_log hindex rfl
  | visibleItem index entry =>
    obtain ⟨hindex, ⟨⟩⟩ := Option.ite_none_right_eq_some.1 h
    exact writes_array Part.keeps_slots hindex rfl
  | skill index entry =>
    obtain ⟨hindex, ⟨⟩⟩ := Option.ite_none_right_eq_some.1 h
    exact writes_array Part.keeps_list hindex rfl
  | member family index value =>
    have hname : family.fields[index]? = some name := h
    rw [writes, hname]
    refine ⟨List.cons_ne_nil _ _, fun write hwrite => ?_⟩
    obtain rfl := List.mem_singleton.1 hwrite
    exact ⟨rfl, Part.lengthOf_of_mem (List.mem_of_getElem? hname) ▸ Nat.one_pos⟩
  | property way listed index value =>
    obtain ⟨hindex, ⟨⟩⟩ := Option.ite_none_right_eq_some.1 h
    refine ⟨List.cons_ne_nil _ _, fun write hwrite => ?_⟩
    obtain rfl := List.mem_singleton.1 hwrite
    exact ⟨rfl, hindex⟩

/-- No setter goes to padding. -/
theorem isPadding_of_target (h : setter.target? = some name) :
    (name == Field.paddingName) = false := by
  cases setter with
  | quest index entry | visibleItem index entry | skill index entry =>
    obtain ⟨-, ⟨⟩⟩ := Option.ite_none_right_eq_some.1 h
    decide
  | member family index value =>
    exact (Part.numbers family).isPadding_eq name (List.mem_of_getElem? h)
  | property way listed index value =>
    obtain ⟨-, ⟨⟩⟩ := Option.ite_none_right_eq_some.1 h
    exact part.wellFormed_table.property_ne_padding way listed

/-! ### Out of range -/

/-- A write to an element that its field does not have does nothing. -/
theorem setNamed_of_length_le
    (hcompile : Schema.compile settings part.name part.fields = .ok schema)
    (hschema : record.schema = schema) {index : Nat} (h : part.lengthOf name ≤ index)
    (value : Value) : record.setNamed name index value = record := by
  rw [Record.setNamed, hschema]
  cases hk : schema.fieldNamed? name with
  | none => rfl
  | some k =>
    obtain ⟨p, hlocates⟩ := Part.locates_of_fieldNamed? hcompile hk
    have hslot : record.slot? k index = none := by
      rw [Record.slot?, hschema, hlocates.placement?_eq]
      simp [hlocates.length_eq, h]
    show record.setAt k index value = record
    rw [Record.setAt, hslot]

/-- Out of range, a setter does nothing. -/
theorem apply_of_target_none (hcompile : Schema.compile settings part.name part.fields = .ok schema)
    (hschema : record.schema = schema) (h : setter.target? = none) :
    setter.apply record = record := by
  rw [apply_eq]
  have hwrites := length_le_of_target h
  generalize setter.writes = writes at *
  induction writes with
  | nil => rfl
  | cons write rest ih =>
    obtain ⟨hfirst, hrest⟩ := List.forall_mem_cons.1 hwrites
    rw [NamedWrite.apply, List.foldl_cons, setNamed_of_length_le hcompile hschema hfirst]
    exact ih hrest

/-! ### In range -/

/-- A write to an element that is there flags the section of its field. -/
theorem dirty_setNamed (hcompile : Schema.compile settings part.name part.fields = .ok schema)
    (hschema : record.schema = schema) {k i index : Nat} {p : Placement}
    (hlocates : part.Locates schema name k p) (hhome : p.home = some i)
    (h : index < part.lengthOf name) (value : Value) :
    (record.setNamed name index value).dirty = record.dirty.flagSection i := by
  have hslotted := (Schema.compile_sound part.fitsSize_fields hcompile).1.slotted
  have hslot : record.slot? k index = some (p.slot.toNat + index) :=
    (Record.slot?_eq_some_iff_of_slotted (hschema.symm ▸ hslotted)).2
      ⟨p, hschema.symm ▸ hlocates.placement?_eq, hlocates.isPadding_eq,
        hlocates.length_eq.symm ▸ h, rfl⟩
  have hsection : schema.sectionOf? k = some i := by
    rw [Schema.sectionOf?, hlocates.placement?_eq]
    exact hhome
  rw [Record.setNamed, hschema, hlocates.fieldNamed?_eq]
  show (record.setAt k index value).dirty = _
  rw [Record.setAt, hslot]
  show record.dirty.flagField record.schema k = _
  rw [DirtySet.flagField, hschema, hsection]

/-- The section of a field is the only one that a setter flags. -/
structure FlagsOne (schema : Schema) (record next : Record) (name : String) (k i : Nat)
    (listing : Section) : Prop where
  fieldNamed?_eq : schema.fieldNamed? name = some k
  section_eq : schema.sections[i]? = some listing
  listed : k ∈ listing.fields
  unique : ∀ (j : Nat) (other : Section), schema.sections[j]? = some other → k ∈ other.fields →
    j = i
  dirty_eq : next.dirty = record.dirty.flagSection i
  holds_iff : ∀ j, next.dirty.holds j = true ↔ j = i ∨ record.dirty.holds j = true

theorem dirty_apply (hcompile : Schema.compile settings part.name part.fields = .ok schema)
    (hschema : record.schema = schema) {k i : Nat} {p : Placement}
    (hlocates : part.Locates schema name k p) (hhome : p.home = some i)
    {writes : List NamedWrite} (hne : writes ≠ [])
    (hwrites : ∀ write ∈ writes, write.field = name ∧ write.index < part.lengthOf name) :
    (NamedWrite.apply record writes).dirty = record.dirty.flagSection i := by
  induction writes generalizing record with
  | nil => exact absurd rfl hne
  | cons write rest ih =>
    obtain ⟨⟨rfl, hindex⟩, hrest⟩ := List.forall_mem_cons.1 hwrites
    have hfirst := dirty_setNamed hcompile hschema hlocates hhome hindex write.value
    rw [NamedWrite.apply, List.foldl_cons, ← NamedWrite.apply]
    -- the other elements flag the section again, which changes nothing
    by_cases hlast : rest = []
    · rw [hlast]
      exact hfirst
    · rw [ih ((Record.schema_setNamed ..).trans hschema) hlast hrest, hfirst,
        DirtySet.flagSection_flagSection]

/-- In range, a setter flags the section of its field, and no other. -/
theorem apply_of_target_some (hcompile : Schema.compile settings part.name part.fields = .ok schema)
    (hschema : record.schema = schema) (hshaped : record.Shaped)
    (h : setter.target? = some name) :
    ∃ k i listing, FlagsOne schema record (setter.apply record) name k i listing := by
  have hsound := (Schema.compile_sound part.fitsSize_fields hcompile).1
  obtain ⟨hne, hwrites⟩ := lt_length_of_target h
  obtain ⟨write, hwrite⟩ := List.exists_mem_of_ne_nil _ hne
  have hlt := (hwrites write hwrite).2
  obtain ⟨field, hfield⟩ := Part.exists_field?_of_lt hlt
  obtain ⟨k, p, hlocates, -⟩ := Part.locates hcompile hfield (isPadding_of_target h)
  obtain ⟨i, hhome, hi⟩ := hlocates.home_of_sound hsound (Nat.zero_lt_of_lt hlt)
  have hdirty : (setter.apply record).dirty = record.dirty.flagSection i := by
    rw [apply_eq, dirty_apply hcompile hschema hlocates hhome hne hwrites]
  have hroom : record.dirty.HasRoom i := hshaped.dirty.room (hschema.symm ▸ hi)
  refine ⟨k, i, schema.sections[i], {
    fieldNamed?_eq := hlocates.fieldNamed?_eq
    section_eq := List.getElem?_eq_getElem hi
    listed := ((hsound.arranged.gathered i _ (List.getElem?_eq_getElem hi)).mem_iff k).2
      ⟨p, hlocates.placement?_eq, hhome⟩
    unique := ?_
    dirty_eq := hdirty
    holds_iff := ?_ }⟩
  · intro j other hother hlisted
    obtain ⟨p', hp', hhome', -⟩ := hsound.arranged.field_of_section hother hlisted
    cases hp'.symm.trans hlocates.placement?_eq
    exact Option.some.inj (hhome'.symm.trans hhome)
  · intro j
    rw [hdirty, DirtySet.holds_flagSection hroom, Bool.or_eq_true, decide_eq_true_eq]

end Setter

/-- What the setters of a part do to a record. -/
structure Record.LocalSetters (part : Part) (schema : Schema) (record : Record) : Prop where
  ignored : ∀ setter : Setter part, setter.target? = none → setter.apply record = record
  flags : ∀ (setter : Setter part) (name : String), setter.target? = some name →
    ∃ k i listing, Setter.FlagsOne schema record (setter.apply record) name k i listing

/-- Behind every run of calls, a setter that is in range flags the section of its field alone, and
the others do nothing. -/
theorem Record.localSetters_called {part : Part} {settings : Settings} {schema : Schema}
    (hcompile : Schema.compile settings part.name part.fields = .ok schema)
    (calls : List (Call part)) : LocalSetters part schema (called schema calls) where
  ignored _ h := Setter.apply_of_target_none hcompile (schema_called schema calls) h
  flags _ _ h := Setter.apply_of_target_some hcompile (schema_called schema calls)
    (called_eq schema calls ▸ Shaped.reached schema _) h

end ObjectSync
