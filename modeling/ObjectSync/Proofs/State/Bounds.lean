import ObjectSync.Proofs.Blocks.Number
import ObjectSync.Proofs.Lists
import ObjectSync.Proofs.State.Decoding

/-!
# The encoder stays in bounds

The encoder looks up fields and slots by number, takes the start of a section from the places of its
fields, and writes to the blocks of the section. `Record.encode` is defined even where one of these
is not there: a size wraps, a slice is cut short, a bit behind the last block is dropped. Here stands
an encoder beside it that gives up in all these places (`Record.encode?`).

**`Record.bounded_reached`** says that the two agree on every record that operations can make,
whichever numbers its dirty set holds. Those that name no section are passed over.
-/

namespace ObjectSync

/-! ## An encoder that gives up -/

namespace Size

/-- The sum, unless it is behind the largest size. -/
def add? (a b : Size) : Option Size := if a.toNat + b.toNat < 2 ^ 64 then some (a + b) else none

/-- The difference, unless it is below zero. -/
def sub? (a b : Size) : Option Size := if b.toNat ≤ a.toNat then some (a - b) else none

/-- The product, unless it is behind the largest size. -/
def mul? (a b : Size) : Option Size := if a.toNat * b.toNat < 2 ^ 64 then some (a * b) else none

end Size

/-- Writes several values as `writeAll` does, and gives up where a write is not safe. -/
def Strip.writeAll? (s : Strip) (values : List UInt64) (width : Nat) : Option Strip :=
  values.foldlM (fun s value => s.write? value width) s

namespace Record

/-- The slots of a field, if the record has all of them. -/
def elements? (record : Record) (p : Placement) : Option (List UInt64) := do
  let stop ← Size.add? p.slot p.field.length
  if stop.toNat ≤ record.slots.size then some (record.elements p) else none

/-- Lays one field down on the strip of the section that starts at block `start`, if the field is
there, does not lie in front of the section and ends on the strip. -/
def layField? (record : Record) (start : Size) (strip : Strip) (k : Nat) : Option Strip := do
  let p ← record.schema.placement? k
  let base ← Size.mul? start (.ofNat blockBits)
  let first ← Size.sub? p.offset base
  let elements ← record.elements? p
  (strip.seek first.toNat).writeAll? elements p.field.kind.bits

def strip? (record : Record) (part : Section) : Option Strip :=
  part.fields.foldlM (record.layField? part.span.start) (Strip.blank part.span.count.toNat)

def encode? (record : Record) (onlyDirty : Bool) : Option EncodedPart := do
  let strips ← (record.chosen onlyDirty).mapM record.strip?
  return {
    spans := (record.chosen onlyDirty).map Section.span
    data := strips.flatMap Strip.bytes }

end Record

/-- Below the end of the strip, several values are written as safely as one. -/
theorem Strip.writeAll?_eq_some {s : Strip} {values : List UInt64} {width : Nat}
    (hwidth : width ≤ 64) (hstop : s.cursor + values.length * width ≤ s.words.size * blockBits) :
    s.writeAll? values width = some (s.writeAll values width) := by
  induction values generalizing s with
  | nil => rfl
  | cons value rest ih =>
    have hlength : (value :: rest).length * width = width + rest.length * width := by
      rw [List.length_cons, Nat.succ_mul, Nat.add_comm]
    rw [writeAll?, List.foldlM_cons, write?_eq_some hwidth (by omega)]
    refine @ih (s.write value width) ?_
    rw [size_words_write, cursor_write]
    omega

namespace Record

variable {record : Record} {part : Section} {p : Placement} {k : Nat}

/-! ## Fields within their section -/

/-- The field is there, it lies within the section, and the record has its slots. -/
structure Within (record : Record) (part : Section) (k : Nat) (p : Placement) : Prop where
  placement_eq : record.schema.placement? k = some p
  start_le : part.span.start.toNat * blockBits ≤ p.offset.toNat
  stop_le : p.offset.toNat + p.field.room ≤
    (part.span.start.toNat + part.span.count.toNat) * blockBits
  slots_le : p.slot.toNat + p.field.length.toNat ≤ record.slots.size
  size_lt : record.slots.size < 2 ^ 64

theorem Sound.within (h : record.Sound) (hpart : part ∈ record.schema.sections)
    (hk : k ∈ part.fields) : ∃ p, record.Within part k p := by
  obtain ⟨i, hi⟩ := List.mem_iff_getElem?.1 hpart
  obtain ⟨p, hp, hhome, hnamed⟩ := h.schema.arranged.field_of_section hi hk
  have hmem := List.mem_of_getElem? hp
  obtain ⟨hstart, hstop⟩ := (h.schema.arranged.gathered i part hi).inside p hmem hhome
  have hslots := h.schema.arranged.slots_le p hmem
  rw [Field.slots_of_named hnamed] at hslots
  exact ⟨p, {
    placement_eq := hp
    start_le := hstart
    stop_le := h.schema.arranged.stop_eq part hpart ▸ hstop
    slots_le := h.size_slots ▸ hslots
    size_lt := h.size_slots ▸ h.schema.slotCount_lt }⟩

namespace Within

theorem toNat_stop (h : record.Within part k p) :
    (p.slot + p.field.length).toNat = p.slot.toNat + p.field.length.toNat := by
  have hslots := h.slots_le
  have hsize := h.size_lt
  rw [UInt64.toNat_add]
  exact Nat.mod_eq_of_lt (by omega)

theorem length_elements (h : record.Within part k p) :
    (record.elements p).length = p.field.length.toNat := by
  have hslots := h.slots_le
  rw [elements, Array.length_toList, Array.size_extract, h.toNat_stop]
  omega

theorem elements?_eq (h : record.Within part k p) :
    record.elements? p = some (record.elements p) := by
  have hslots := h.slots_le
  have hsize := h.size_lt
  rw [elements?, Size.add?, if_pos (by omega)]
  show (if (p.slot + p.field.length).toNat ≤ record.slots.size then _ else _) = _
  rw [if_pos (h.toNat_stop ▸ hslots)]

/-- A field that lies within its section is laid down without leaving it. -/
theorem layField?_eq (h : record.Within part k p) {strip : Strip}
    (hsize : strip.words.size = part.span.count.toNat) :
    record.layField? part.span.start strip k =
      some (record.layField part.span.start strip k) := by
  have hstart := h.start_le
  have hstop := h.stop_le
  have hoffset := p.offset.toNat_lt
  have hbase : (part.span.start * .ofNat blockBits).toNat = part.span.start.toNat * blockBits := by
    rw [UInt64.toNat_mul]
    exact Nat.mod_eq_of_lt (Nat.lt_of_le_of_lt hstart hoffset)
  have hle : (part.span.start * .ofNat blockBits).toNat ≤ p.offset.toNat := hbase ▸ hstart
  have hfirst : (p.offset - part.span.start * .ofNat blockBits).toNat =
      p.offset.toNat - part.span.start.toNat * blockBits := by
    rw [UInt64.toNat_sub_of_le _ _ (UInt64.le_iff_toNat_le.2 hle), hbase]
  have hmul : Size.mul? part.span.start (.ofNat blockBits) =
      some (part.span.start * .ofNat blockBits) := if_pos (Nat.lt_of_le_of_lt hstart hoffset)
  have hsub : Size.sub? p.offset (part.span.start * .ofNat blockBits) =
      some (p.offset - part.span.start * .ofNat blockBits) := if_pos hle
  rw [layField?, layField, h.placement_eq]
  simp only [Option.bind_eq_bind, Option.bind_some, hmul, hsub, h.elements?_eq]
  refine Strip.writeAll?_eq_some p.field.bits_le ?_
  -- the field ends within the section, so its last element ends on the strip
  show (p.offset - part.span.start * .ofNat blockBits).toNat +
      (record.elements p).length * p.field.kind.bits ≤ strip.words.size * blockBits
  rw [Field.room, Nat.mul_comm] at hstop
  rw [hfirst, hsize, h.length_elements]
  rw [Nat.add_mul] at hstop
  omega

end Within

theorem foldlM_layField? {fields : List Nat} (h : ∀ k ∈ fields, ∃ p, record.Within part k p)
    {strip : Strip} (hsize : strip.words.size = part.span.count.toNat) :
    fields.foldlM (record.layField? part.span.start) strip =
      some (fields.foldl (record.layField part.span.start) strip) := by
  induction fields generalizing strip with
  | nil => rfl
  | cons k rest ih =>
    obtain ⟨⟨p, hp⟩, hrest⟩ := List.forall_mem_cons.1 h
    rw [List.foldlM_cons, hp.layField?_eq hsize]
    exact ih hrest (by rw [size_layField, hsize])

/-! ## Whole records -/

/-- The encoder stays in bounds, whichever sections are flagged. -/
structure Bounded (record : Record) : Prop where
  /-- What a section lists is there and lies within it. -/
  within : ∀ part ∈ record.schema.sections, ∀ k ∈ part.fields, ∃ p, record.Within part k p
  strip?_eq : ∀ part ∈ record.schema.sections, record.strip? part = some (record.strip part)
  size_strip : ∀ part ∈ record.schema.sections,
    (record.strip part).words.size = part.span.count.toNat
  /-- No message makes it give up. The record's own dirty set is among the sets. -/
  encode?_eq : ∀ (dirty : DirtySet) (onlyDirty : Bool),
    { record with dirty }.encode? onlyDirty = some ({ record with dirty }.encode onlyDirty)
  /-- What is sent as changed are the sections at the numbers that are held, in their order. -/
  chosen_eq : ∀ dirty : DirtySet, { record with dirty }.chosen true =
    (record.schema.sections.zipIdx.filter fun part => dirty.holds part.2).map Prod.fst
  /-- A number that names no section is passed over. -/
  encode_flagSection : ∀ (dirty : DirtySet) (i : Nat), record.schema.sections.length ≤ i →
    ∀ onlyDirty, { record with dirty := dirty.flagSection i }.encode onlyDirty =
      { record with dirty }.encode onlyDirty

theorem Sound.strip?_eq (h : record.Sound) (hpart : part ∈ record.schema.sections) :
    record.strip? part = some (record.strip part) :=
  foldlM_layField? (fun _ hk => h.within hpart hk) Array.size_replicate

theorem chosen_true_eq (record : Record) : record.chosen true =
    (record.schema.sections.zipIdx.filter fun part => record.dirty.holds part.2).map Prod.fst := by
  show record.dirty.indices.filterMap (record.schema.sections[·]?) = _
  rw [filterMap_getElem?_eq record.dirty.pairwise_indices]
  refine congrArg (List.map Prod.fst) (List.filter_congr fun part _ => ?_)
  rw [Bool.eq_iff_iff, decide_eq_true_eq, DirtySet.mem_indices]

/-- A message has only sections of the schema, whatever the dirty set holds. -/
theorem chosen_subset (record : Record) (onlyDirty : Bool) :
    record.chosen onlyDirty ⊆ record.schema.sections := by
  intro part hpart
  cases onlyDirty with
  | false => exact hpart
  | true =>
    obtain ⟨i, _, hi⟩ := List.mem_filterMap.1 hpart
    exact List.mem_of_getElem? hi

theorem mapM_eq_some_map {α β : Type} {f : α → Option β} {g : α → β} {items : List α}
    (h : ∀ a ∈ items, f a = some (g a)) : items.mapM f = some (items.map g) := by
  induction items with
  | nil => rfl
  | cons a rest ih =>
    obtain ⟨hfirst, hrest⟩ := List.forall_mem_cons.1 h
    rw [List.mapM_cons, hfirst, ih hrest]
    rfl

theorem encode?_eq_some (h : ∀ part ∈ record.schema.sections,
    record.strip? part = some (record.strip part)) (onlyDirty : Bool) :
    record.encode? onlyDirty = some (record.encode onlyDirty) := by
  have hstrips : (record.chosen onlyDirty).mapM record.strip? =
      some ((record.chosen onlyDirty).map record.strip) :=
    mapM_eq_some_map fun part hpart => h part (record.chosen_subset onlyDirty hpart)
  rw [encode?, hstrips, encode, foldl_takeSection, ← List.flatMap_map]
  rfl

theorem Sound.bounded (h : record.Sound) : record.Bounded where
  within _ hpart _ hk := h.within hpart hk
  strip?_eq _ hpart := h.strip?_eq hpart
  size_strip part _ := record.size_strip part
  encode?_eq dirty :=
    @encode?_eq_some { record with dirty } fun _ hpart => h.strip?_eq hpart
  chosen_eq dirty := chosen_true_eq { record with dirty }
  encode_flagSection dirty i hi onlyDirty := by
    have hchosen : { record with dirty := dirty.flagSection i }.chosen onlyDirty =
        { record with dirty }.chosen onlyDirty := by
      cases onlyDirty with
      | false => rfl
      | true =>
        rw [chosen_true_eq, chosen_true_eq]
        refine congrArg (List.map Prod.fst) (List.filter_congr fun part hpart => ?_)
        have hlt : part.2 < 0 + record.schema.sections.length := (List.mem_zipIdx hpart).2.1
        rw [Bool.eq_iff_iff, DirtySet.holds_flagSection_iff]
        exact or_iff_right fun hflagged => by omega
    rw [encode, encode, hchosen]
    rfl

variable {settings : Settings} {name : String} {table : List Field} {schema : Schema}

/-- No record that operations can make is encoded out of bounds. -/
theorem bounded_reached (hfits : FitsSize table)
    (hcompile : Schema.compile settings name table = .ok schema) (steps : List Step) :
    (reached schema steps).Bounded :=
  (sound_reached hfits hcompile steps).bounded

/-- A field without elements behind the last section: it is told a section that is not there, and to
flag it sets a bit that names none. -/
theorem bounded_reached_trailing :
    let table : List Field :=
      [.array "a" .u8 2, .padding .u16 1, .array "b" .u64 2, .array "c" .u8 0]
    FitsSize table ∧ ∃ schema, Schema.compile {} "T" table = .ok schema ∧
      (reached schema [.edit (.setAt 2 1 (.u64 9)), .flagName "c"]).Bounded := by
  intro table
  have hfits : FitsSize table := by decide
  obtain ⟨schema, hcompile⟩ : ∃ schema, Schema.compile {} "T" table = .ok schema := ⟨_, rfl⟩
  exact ⟨hfits, schema, hcompile, bounded_reached hfits hcompile _⟩

end Record

end ObjectSync
