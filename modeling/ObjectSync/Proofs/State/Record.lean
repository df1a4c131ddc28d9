import ObjectSync.Proofs.Blocks.Strip
import ObjectSync.Proofs.Declaration.Slots
import ObjectSync.Proofs.State.DirtySet
import ObjectSync.Proofs.State.ValuesBlock
import ObjectSync.State.Record

/-!
# What a record sends

A record is `Sound` when its schema is and it has the slots and flags that the schema asks for. The
blank record is, and every operation keeps it so (`Sound.step`).

A sound record sends the words of its chosen sections and nothing else (`Sound.marshal_eq`): the
spans of a section and its words are a stretch, and the sections lie one behind the other. What the
words say is found bit by bit (`Sound.bit_strip`): a bit of a section is set exactly when one of its
fields lies there and has it set.
-/

namespace ObjectSync

/-- An operation on a field. -/
inductive Edit where
  | set (field : Nat) (value : Value)
  | setAt (field index : Nat) (value : Value)
  | flagField (field : Nat)

namespace Edit

/-- The field that is changed. -/
def field : Edit → Nat
  | set field _ | setAt field _ _ | flagField field => field

/-- The same operation on a field further down in the table. -/
def moved (offset : Nat) : Edit → Edit
  | set field value => set (field + offset) value
  | setAt field index value => setAt (field + offset) index value
  | flagField field => flagField (field + offset)

end Edit

namespace Record

def edit (record : Record) : Edit → Record
  | .set field value => record.set field value
  | .setAt field index value => record.setAt field index value
  | .flagField field => record.flagField field

inductive Step where
  | edit (edit : Edit)
  | flagName (name : String)
  | clearDirty
  | takePart (onlyDirty : Bool)
  | marshal (onlyDirty : Bool)

def step (record : Record) : Step → Record
  | .edit edit => record.edit edit
  | .flagName name => (record.flagName name).value.2
  | .clearDirty => record.clearDirty
  | .takePart onlyDirty => (record.takePart onlyDirty).2
  | .marshal onlyDirty => (record.marshal onlyDirty).value.2

/-- The record that the operations make of a blank one. -/
def reached (schema : Schema) (steps : List Step) : Record := steps.foldl step (blank schema)

/-- The slots and the flags are those that the schema asks for, whatever the schema is. -/
structure Shaped (record : Record) : Prop where
  size_slots : record.slots.size = record.schema.slotCount
  dirty : record.dirty.Sound record.schema.sections.length

/-- The slots and the flags are those that the schema asks for. -/
structure Sound (record : Record) : Prop where
  schema : record.schema.Sound
  size_slots : record.slots.size = record.schema.slotCount
  dirty : record.dirty.Sound record.schema.sections.length

theorem Sound.shaped {record : Record} (h : record.Sound) : record.Shaped :=
  ⟨h.size_slots, h.dirty⟩

theorem Shaped.sound {record : Record} (h : record.Shaped) (hschema : record.schema.Sound) :
    record.Sound :=
  ⟨hschema, h.size_slots, h.dirty⟩

/-! ## Operations -/

section Operations

variable {record : Record} {field index i j : Nat} {value : Value}

@[simp] theorem schema_setAt : (record.setAt field index value).schema = record.schema := by
  rw [setAt]
  split <;> rfl

@[simp] theorem schema_edit (edit : Edit) : (record.edit edit).schema = record.schema := by
  cases edit with
  | set | setAt => exact schema_setAt
  | flagField => rfl

@[simp] theorem schema_step (step : Step) : (record.step step).schema = record.schema := by
  cases step with
  | edit edit => exact schema_edit edit
  | _ => rfl

namespace Shaped

theorem blank (schema : Schema) : (blank schema).Shaped where
  size_slots := Array.size_replicate
  dirty := .blank _

theorem flagField (h : record.Shaped) (field : Nat) : (record.flagField field).Shaped where
  size_slots := h.size_slots
  dirty := by
    rw [Record.flagField, DirtySet.flagField]
    cases record.schema.sectionOf? field with
    | none => exact h.dirty
    | some i => exact h.dirty.flagSection i

theorem flagName (h : record.Shaped) (name : String) :
    (record.flagName name).value.2.Shaped where
  size_slots := h.size_slots
  dirty := by
    show ((record.dirty.flagName record.schema name).value.2).Sound _
    rw [DirtySet.flagName]
    cases record.schema.sectionNamed? name with
    | none => exact h.dirty
    | some i => exact h.dirty.flagSection i

theorem setAt (h : record.Shaped) (field index : Nat) (value : Value) :
    (record.setAt field index value).Shaped := by
  rw [Record.setAt]
  cases record.slot? field index with
  | none => exact h
  | some slot =>
    exact {
      size_slots := by rw [← h.size_slots]; exact Array.size_setIfInBounds
      dirty := (h.flagField field).dirty }

theorem edit (h : record.Shaped) (edit : Edit) : (record.edit edit).Shaped := by
  cases edit with
  | set field value => exact h.setAt field 0 value
  | setAt field index value => exact h.setAt field index value
  | flagField field => exact h.flagField field

theorem clearDirty (h : record.Shaped) : record.clearDirty.Shaped where
  size_slots := h.size_slots
  dirty := h.dirty.clear

theorem step (h : record.Shaped) (step : Step) : (record.step step).Shaped := by
  cases step with
  | edit edit => exact h.edit edit
  | flagName name => exact h.flagName name
  | clearDirty | takePart | marshal => exact h.clearDirty

theorem foldl_step (h : record.Shaped) (steps : List Step) :
    (steps.foldl Record.step record).Shaped := by
  induction steps generalizing record with
  | nil => exact h
  | cons step rest ih => exact ih (h.step step)

/-- Whatever is done to a record, it keeps its slots and the room for its flags. -/
theorem reached (schema : Schema) (steps : List Step) : (reached schema steps).Shaped :=
  (blank schema).foldl_step steps

end Shaped

@[simp] theorem schema_foldl_step (steps : List Step) :
    (steps.foldl step record).schema = record.schema := by
  induction steps generalizing record with
  | nil => rfl
  | cons step rest ih => rw [List.foldl_cons, ih, schema_step]

/-- Whatever is done to a record, it keeps its schema. -/
theorem schema_reached (schema : Schema) (steps : List Step) :
    (reached schema steps).schema = schema :=
  schema_foldl_step steps

namespace Sound

theorem blank {schema : Schema} (h : schema.Sound) : (blank schema).Sound :=
  (Shaped.blank schema).sound h

theorem flagField (h : record.Sound) (field : Nat) : (record.flagField field).Sound :=
  (h.shaped.flagField field).sound h.schema

theorem flagName (h : record.Sound) (name : String) : (record.flagName name).value.2.Sound :=
  (h.shaped.flagName name).sound h.schema

theorem setAt (h : record.Sound) (field index : Nat) (value : Value) :
    (record.setAt field index value).Sound :=
  (h.shaped.setAt field index value).sound (by rw [schema_setAt]; exact h.schema)

theorem edit (h : record.Sound) (edit : Edit) : (record.edit edit).Sound :=
  (h.shaped.edit edit).sound (by rw [schema_edit]; exact h.schema)

theorem clearDirty (h : record.Sound) : record.clearDirty.Sound :=
  h.shaped.clearDirty.sound h.schema

theorem foldl_step (h : record.Sound) (steps : List Step) :
    (steps.foldl Record.step record).Sound :=
  (h.shaped.foldl_step steps).sound (by rw [schema_foldl_step]; exact h.schema)

end Sound

/-! ## Flags -/

theorem holds_flagField_of_holds (h : record.dirty.holds i = true) (field : Nat) :
    (record.flagField field).dirty.holds i = true :=
  DirtySet.holds_flagField_iff.2 (.inr h)

namespace Sound

/-- Flagging a field flags the section that the field lies in. -/
theorem holds_flagField (h : record.Sound)
    (hlt : ∀ i, record.schema.sectionOf? field = some i → i < record.schema.sections.length) :
    (record.flagField field).dirty.holds j =
      (decide (record.schema.sectionOf? field = some j) || record.dirty.holds j) := by
  rw [Bool.eq_iff_iff, Bool.or_eq_true, decide_eq_true_eq]
  refine DirtySet.holds_flagField_iff.trans (or_congr_left (and_iff_right_of_imp ?_))
  exact fun hsection => h.dirty.room (hlt j hsection)

theorem isDirty_iff (h : record.Sound) :
    record.isDirty = true ↔ ∃ i, record.dirty.holds i = true := by
  rw [isDirty, Bool.not_eq_true', ← Bool.not_eq_true, h.dirty.isEmpty_iff, not_forall]
  simp only [Bool.not_eq_false]

end Sound

end Operations

/-! ## Sections -/

/-- Section `i` of the schema is among those to send. -/
def Sends (record : Record) (onlyDirty : Bool) (i : Nat) : Prop :=
  i < record.schema.sections.length ∧ (onlyDirty = true → record.dirty.isFlagged i = true)

def strip (record : Record) (part : Section) : Strip :=
  part.fields.foldl (record.layField part.span.start) (Strip.blank part.span.count.toNat)

/-- The blocks of a section with their words. -/
def stretch (record : Record) (part : Section) : Stretch where
  span := part.span
  words := (record.strip part).words.toList

/-- The blocks that are sent, with their words. -/
def entries (record : Record) (onlyDirty : Bool) : List (Nat × UInt32) :=
  ((record.chosen onlyDirty).map record.stretch).flatMap Stretch.entries

/-- Sections follow each other, and none depends on what the strip held before it. -/
theorem foldl_takeSection (record : Record) (sections : List Section)
    (taken : Strip × EncodedPart) :
    (sections.foldl record.takeSection taken).2 = {
      spans := taken.2.spans ++ sections.map Section.span
      data := taken.2.data ++ sections.flatMap fun part => (record.strip part).bytes } := by
  induction sections generalizing taken with
  | nil => simp
  | cons part rest ih =>
    have hstrip : record.laySection taken.1 part = record.strip part := by
      rw [laySection, Strip.reset_eq_blank, strip]
    rw [List.foldl_cons, ih, takeSection, hstrip]
    simp

theorem spans_encode (record : Record) (onlyDirty : Bool) :
    (record.encode onlyDirty).spans = (record.chosen onlyDirty).map Section.span := by
  rw [encode, foldl_takeSection]
  rfl

theorem encode_eq (record : Record) (onlyDirty : Bool) :
    record.encode onlyDirty = .ofStretches ((record.chosen onlyDirty).map record.stretch) := by
  rw [encode, foldl_takeSection, EncodedPart.ofStretches, List.map_map, List.flatMap_map]
  rfl

@[simp] theorem size_layField (record : Record) (start : Size) (strip : Strip) (field : Nat) :
    (record.layField start strip field).words.size = strip.words.size := by
  rw [layField]
  split
  · exact Strip.size_words_writeAll ..
  · rfl

@[simp] theorem size_foldl_layField (record : Record) (start : Size) (fields : List Nat)
    (strip : Strip) :
    (fields.foldl (record.layField start) strip).words.size = strip.words.size := by
  induction fields generalizing strip with
  | nil => rfl
  | cons field rest ih => rw [List.foldl_cons, ih, size_layField]

theorem size_strip (record : Record) (part : Section) :
    (record.strip part).words.size = part.span.count.toNat := by
  rw [strip, size_foldl_layField]
  exact Array.size_replicate

section Chosen

variable {record : Record} {onlyDirty : Bool} {part : Section}

theorem Shaped.mem_chosen (h : record.Shaped) :
    part ∈ record.chosen onlyDirty ↔
      ∃ i, record.schema.sections[i]? = some part ∧ record.Sends onlyDirty i := by
  cases onlyDirty with
  | false =>
    show part ∈ record.schema.sections ↔ _
    rw [List.mem_iff_getElem?]
    constructor
    · rintro ⟨i, hi⟩
      exact ⟨i, hi, (List.getElem?_eq_some_iff.1 hi).1, nofun⟩
    · rintro ⟨i, hi, _⟩
      exact ⟨i, hi⟩
  | true =>
    show part ∈ record.dirty.indices.filterMap (record.schema.sections[·]?) ↔ _
    rw [List.mem_filterMap]
    constructor
    · rintro ⟨i, hmem, hi⟩
      have hlt := (List.getElem?_eq_some_iff.1 hi).1
      exact ⟨i, hi, hlt, fun _ => (h.dirty.isFlagged_eq hlt).trans (DirtySet.mem_indices.1 hmem)⟩
    · rintro ⟨i, hi, hlt, hdirty⟩
      exact ⟨i, DirtySet.mem_indices.2 ((h.dirty.isFlagged_eq hlt).symm.trans (hdirty rfl)), hi⟩

theorem mem_chosen (h : record.Sound) :
    part ∈ record.chosen onlyDirty ↔
      ∃ i, record.schema.sections[i]? = some part ∧ record.Sends onlyDirty i :=
  h.shaped.mem_chosen

/-- Whichever sections are sent, they lie one behind the other. -/
theorem pairwise_chosen (h : record.Sound) :
    (record.chosen onlyDirty).Pairwise fun part next =>
      part.span.stop.toNat ≤ next.span.start.toNat := by
  cases onlyDirty with
  | false => exact h.schema.arranged.apart
  | true =>
    refine List.Pairwise.filterMap _ ?_ (DirtySet.pairwise_indices record.dirty)
    intro i j hlt part hpart next hnext
    obtain ⟨hi, rfl⟩ := List.getElem?_eq_some_iff.1 hpart
    obtain ⟨hj, rfl⟩ := List.getElem?_eq_some_iff.1 hnext
    exact List.pairwise_iff_getElem.1 h.schema.arranged.apart i j hi hj hlt

theorem mem_sections_of_mem_chosen (h : record.Sound) (hpart : part ∈ record.chosen onlyDirty) :
    part ∈ record.schema.sections := by
  obtain ⟨i, hi, _⟩ := (mem_chosen h).1 hpart
  exact List.mem_of_getElem? hi

namespace Sound

theorem stretch (h : record.Sound) (hpart : part ∈ record.schema.sections) :
    (record.stretch part).Sound where
  stop_eq := h.schema.arranged.stop_eq part hpart
  length_eq := by
    show (record.strip part).words.toList.length = _
    rw [Array.length_toList, size_strip]
    rfl

theorem laid (h : record.Sound) (onlyDirty : Bool) :
    Laid ((record.chosen onlyDirty).map record.stretch) record.schema.blocks where
  sound s hs := by
    obtain ⟨part, hpart, rfl⟩ := List.mem_map.1 hs
    exact h.stretch (mem_sections_of_mem_chosen h hpart)
  stop_le s hs := by
    obtain ⟨part, hpart, rfl⟩ := List.mem_map.1 hs
    exact h.schema.arranged.stop_le part (mem_sections_of_mem_chosen h hpart)
  apart := List.pairwise_map.2 (pairwise_chosen h)

/-- A record sends the words of its chosen sections, without dropping one. -/
theorem marshal_eq (h : record.Sound) (onlyDirty : Bool) :
    ∃ block : ValuesBlock, record.marshal onlyDirty = pure (block.bytes, record.clearDirty) ∧
      block.Carries (record.entries onlyDirty) := by
  obtain ⟨block, hpush, hcarries, _⟩ := (ValuesBlock.Carries.empty record.schema.blocks).push
    (h.laid onlyDirty) (Nat.le_of_eq (Nat.zero_add _)) h.schema.blocks_le
  refine ⟨block, ?_, ?_⟩
  · rw [marshal, takePart, encode_eq]
    show ValuesBlock.push { capacity := record.schema.blocks } (.ofNat 0) _ >>= _ = _
    rw [hpush]
    rfl
  · rwa [List.nil_append, moved_zero, List.map_id] at hcarries

theorem entry_lt (h : record.Sound) (onlyDirty : Bool) :
    ∀ entry ∈ record.entries onlyDirty, entry.1 < record.schema.blocks :=
  (h.laid onlyDirty).fst_lt

theorem pairwise_entries (h : record.Sound) (onlyDirty : Bool) :
    ((record.entries onlyDirty).map Prod.fst).Pairwise (· < ·) :=
  (h.laid onlyDirty).pairwise_entries

/-- What is sent is read back. -/
theorem reads_marshal (h : record.Sound) (onlyDirty : Bool) :
    Reads ValuesBlock.reader (record.marshal onlyDirty).value.1 (record.entries onlyDirty) := by
  obtain ⟨block, hmarshal, hcarries⟩ := h.marshal_eq onlyDirty
  rw [hmarshal]
  exact hcarries.reads (h.pairwise_entries onlyDirty) fun entry hentry =>
    Nat.lt_of_lt_of_le (h.entry_lt onlyDirty entry hentry) h.schema.blocks_le

/-- What is sent is a values block. -/
theorem encoded_marshal (h : record.Sound) (onlyDirty : Bool) :
    ValuesBlock.Encoded (record.marshal onlyDirty).value.1 := by
  obtain ⟨block, hmarshal, hcarries⟩ := h.marshal_eq onlyDirty
  rw [hmarshal]
  exact hcarries.encoded (h.pairwise_entries onlyDirty) fun entry hentry =>
    Nat.lt_of_lt_of_le (h.entry_lt onlyDirty entry hentry) h.schema.blocks_le

end Sound

end Chosen

/-! ## Bits -/

/-- The field has bit `i` of the record set. -/
def Lays (record : Record) (p : Placement) (i : Nat) : Prop :=
  p.offset.toNat ≤ i ∧
    Strip.bitOf (record.elements p) p.field.kind.bits (i - p.offset.toNat) = true

section Bits

variable {record : Record} {part : Section} {p : Placement} {i k : Nat}

theorem bit_layField {start : Size} (strip : Strip) (hk : record.schema.placement? k = some p)
    (hstop : p.field.isStop = false) (hstart : start.toNat * blockBits ≤ p.offset.toNat)
    {x : Nat} (hx : x < strip.words.size * blockBits) :
    (record.layField start strip k).bit x = true ↔
      strip.bit x = true ∨ record.Lays p (start.toNat * blockBits + x) := by
  have hfirst : (start * .ofNat blockBits).toNat = start.toNat * blockBits := by
    rw [UInt64.toNat_mul]
    exact Nat.mod_eq_of_lt (Nat.lt_of_le_of_lt hstart p.offset.toNat_lt)
  have hcursor : (p.offset - start * .ofNat blockBits).toNat =
      p.offset.toNat - start.toNat * blockBits := by
    rw [UInt64.toNat_sub_of_le, hfirst]
    rw [UInt64.le_iff_toNat_le, hfirst]
    exact hstart
  have hplace : start.toNat * blockBits + x - p.offset.toNat =
      x - (p.offset.toNat - start.toNat * blockBits) := by omega
  rw [layField, hk]
  simp only [Strip.bit_writeAll _ _ (Field.bits_pos hstop) (Field.bits_le p.field), Strip.seek,
    hcursor, decide_eq_true hx, Bool.true_and, Bool.or_eq_true, Bool.and_eq_true,
    decide_eq_true_eq, Lays, hplace]
  refine or_congr_right (and_congr_left fun _ => ?_)
  omega

/-- Fields of a section are laid down one after the other, each beside the others. -/
theorem bit_foldl_layField (h : record.Sound) (hpart : record.schema.sections[i]? = some part)
    {fields : List Nat} (hfields : ∀ k ∈ fields, k ∈ part.fields) (strip : Strip) {x : Nat}
    (hx : x < strip.words.size * blockBits) :
    (fields.foldl (record.layField part.span.start) strip).bit x = true ↔
      strip.bit x = true ∨ ∃ k ∈ fields, ∃ p, record.schema.placement? k = some p ∧
        record.Lays p (part.span.start.toNat * blockBits + x) := by
  have hgathered := h.schema.arranged.gathered i part hpart
  induction fields generalizing strip with
  | nil => simp
  | cons k rest ih =>
    obtain ⟨p, hp, hhome⟩ := (hgathered.mem_iff k).1 (hfields k List.mem_cons_self)
    have hmem := List.mem_of_getElem? hp
    have hlaid := bit_layField strip hp (h.schema.arranged.isStop_field p hmem)
      (hgathered.inside p hmem hhome).1 hx
    -- a field lies inside its section, so its bits stay below the end of the strip
    rw [List.foldl_cons]
    refine (ih (fun k' hk' => hfields k' (List.mem_cons_of_mem k hk')) _
      (by rwa [size_layField])).trans ?_
    rw [hlaid, or_assoc]
    refine or_congr_right ?_
    constructor
    · rintro (hlays | ⟨k', hk', rest⟩)
      · exact ⟨k, List.mem_cons_self, p, hp, hlays⟩
      · exact ⟨k', List.mem_cons_of_mem k hk', rest⟩
    · rintro ⟨k', hk', p', hp', hlays⟩
      rcases List.mem_cons.1 hk' with rfl | hk'
      · cases hp.symm.trans hp'
        exact .inl hlays
      · exact .inr ⟨k', hk', p', hp', hlays⟩

theorem bit_strip (h : record.Sound) (hpart : record.schema.sections[i]? = some part) {x : Nat}
    (hx : x < part.span.count.toNat * blockBits) :
    (record.strip part).bit x = true ↔
      ∃ k p, record.schema.placement? k = some p ∧ p.home = some i ∧
        record.Lays p (part.span.start.toNat * blockBits + x) := by
  have hgathered := h.schema.arranged.gathered i part hpart
  have hsize : (Strip.blank part.span.count.toNat).words.size = part.span.count.toNat :=
    Array.size_replicate
  rw [strip, bit_foldl_layField h hpart (fun _ hk => hk) _ (hsize.symm ▸ hx), Strip.bit_blank]
  constructor
  · rintro (hfalse | ⟨k, hk, p, hp, hlays⟩)
    · cases hfalse
    · obtain ⟨p', hp', hhome⟩ := (hgathered.mem_iff k).1 hk
      cases hp.symm.trans hp'
      exact ⟨k, p, hp, hhome, hlays⟩
  · rintro ⟨k, p, hp, hhome, hlays⟩
    exact .inr ⟨k, (hgathered.mem_iff k).2 ⟨p, hp, hhome⟩, p, hp, hlays⟩

/-! ## Elements -/

/-- Only named fields lie in a section. -/
theorem named_of_home (h : record.Sound) (hp : p ∈ record.schema.placements)
    (hhome : p.home = some i) : p.field.isPadding = false := by
  have hsome := h.schema.arranged.isSome_home p hp
  rw [hhome, Option.isSome_some] at hsome
  rwa [← Bool.not_eq_true', eq_comm]

/-- The elements of a named field are its slots. -/
theorem getElem?_elements (h : record.Sound) (hp : p ∈ record.schema.placements)
    (hnamed : p.field.isPadding = false) (j : Nat) :
    (record.elements p)[j]? =
      if j < p.field.length.toNat then record.slots[p.slot.toNat + j]? else none := by
  have hslots := h.schema.arranged.slots_le p hp
  have hcount := h.schema.slotCount_lt
  have hlength := Field.slots_of_named hnamed
  have hstop : (p.slot + p.field.length).toNat = p.slot.toNat + p.field.length.toNat := by
    rw [UInt64.toNat_add]
    exact Nat.mod_eq_of_lt (by omega)
  rw [elements, Array.getElem?_toList, Array.getElem?_extract, hstop, h.size_slots]
  refine if_congr ?_ rfl rfl
  omega

/-- An element has the slot behind those in front of it. -/
theorem slot?_eq_some_iff_of_slotted (h : record.schema.Slotted) {j slot : Nat} :
    record.slot? k j = some slot ↔ ∃ p, record.schema.placement? k = some p ∧
      p.field.isPadding = false ∧ j < p.field.length.toNat ∧ slot = p.slot.toNat + j := by
  rw [slot?]
  cases hk : record.schema.placement? k with
  | none => simp
  | some p =>
    have hslots := h.slots_le p (List.mem_of_getElem? hk)
    have hcount := h.slotCount_lt
    show (if p.field.isPadding || p.field.length.toNat ≤ j then none
      else some (p.slot + .ofNat j).toNat) = some slot ↔ _
    simp only [Bool.or_eq_true, decide_eq_true_eq]
    by_cases hnone : p.field.isPadding = true ∨ p.field.length.toNat ≤ j
    · rw [if_pos hnone]
      constructor
      · rintro ⟨⟩
      · rintro ⟨_, ⟨⟩, hnamed, hj, _⟩
        rcases hnone with hpadding | hle
        · rw [hnamed] at hpadding
          cases hpadding
        · omega
    · rw [if_neg hnone]
      rw [not_or, Bool.not_eq_true] at hnone
      rw [Field.slots_of_named hnone.1] at hslots
      have hslot : (p.slot + .ofNat j).toNat = p.slot.toNat + j := by
        rw [UInt64.toNat_add, UInt64.toNat_ofNat', Nat.mod_eq_of_lt (show j < 2 ^ 64 by omega)]
        exact Nat.mod_eq_of_lt (by omega)
      rw [hslot]
      constructor
      · rintro ⟨⟩
        exact ⟨p, rfl, hnone.1, by omega, rfl⟩
      · rintro ⟨_, ⟨⟩, _, _, rfl⟩
        rfl

theorem slot?_eq_some_iff (h : record.Sound) {j slot : Nat} :
    record.slot? k j = some slot ↔ ∃ p, record.schema.placement? k = some p ∧
      p.field.isPadding = false ∧ j < p.field.length.toNat ∧ slot = p.slot.toNat + j :=
  slot?_eq_some_iff_of_slotted h.schema.slotted

theorem slot_lt_of_slotted (hshaped : record.Shaped) (h : record.schema.Slotted) {j slot : Nat}
    (hslot : record.slot? k j = some slot) : slot < record.slots.size := by
  obtain ⟨p, hp, hnamed, hj, rfl⟩ := (slot?_eq_some_iff_of_slotted h).1 hslot
  have hslots := h.slots_le p (List.mem_of_getElem? hp)
  rw [Field.slots_of_named hnamed] at hslots
  rw [hshaped.size_slots]
  omega

theorem slot_lt (h : record.Sound) {j slot : Nat} (hslot : record.slot? k j = some slot) :
    slot < record.slots.size :=
  slot_lt_of_slotted h.shaped h.schema.slotted hslot

/-- A field with elements lies in one of the sections. -/
theorem section_lt (h : record.Sound)
    (hfilled : ∀ p ∈ record.schema.placements,
      p.field.isPadding = false → 0 < p.field.length.toNat)
    (hsection : record.schema.sectionOf? k = some i) : i < record.schema.sections.length := by
  rw [Schema.sectionOf?] at hsection
  cases hp : record.schema.placement? k with
  | none => rw [hp] at hsection; cases hsection
  | some p =>
    rw [hp] at hsection
    have hmem := List.mem_of_getElem? hp
    have hroom : 0 < p.field.room :=
      Nat.mul_pos (Field.bits_pos (h.schema.arranged.isStop_field p hmem))
        (hfilled p hmem (named_of_home h hmem hsection))
    exact h.schema.housed p hmem hroom i hsection

end Bits

/-- Two records lay down the same words for two sections, if they do so field by field. -/
theorem strip_congr {record record' : Record} {part part' : Section} (f : Nat → Nat)
    (hfields : part'.fields = part.fields.map f) (hcount : part'.span.count = part.span.count)
    (hlay : ∀ k ∈ part.fields, ∀ strip,
      record'.layField part'.span.start strip (f k) = record.layField part.span.start strip k) :
    record'.strip part' = record.strip part := by
  have fold (fields : List Nat) (hmem : ∀ k ∈ fields, k ∈ part.fields) (strip : Strip) :
      (fields.map f).foldl (record'.layField part'.span.start) strip =
        fields.foldl (record.layField part.span.start) strip := by
    induction fields generalizing strip with
    | nil => rfl
    | cons k rest ih =>
      rw [List.map_cons, List.foldl_cons, List.foldl_cons, hlay k (hmem k List.mem_cons_self),
        ih fun k' hk' => hmem k' (List.mem_cons_of_mem k hk')]
  rw [strip, strip, hfields, hcount, fold part.fields fun _ hk => hk]

end Record

end ObjectSync
