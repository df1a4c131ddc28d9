import ObjectSync.Declaration.Layout
import ObjectSync.Proofs.Declaration.Homes

/-!
# Tables one behind the other

Two tables that compile, written as one, compile to the schemas of the two, one behind the other
(`Schema.compile_append_of_listed`). The first table ends at a cut with no field left over, if each
of its named fields has its section; so the compiler goes on behind it as it would from the start,
only further up: `Scan.after` says what it knows then, and every step of the compiler commutes with
it.

`Schema.append` is that schema. A `Shift` tells how far everything moves. **`Schema.appended`** says
what this means for a single field: what was declared first stays where it is. A field that is left
over behind the last cut does not: it is joined to the fields that are appended
(`Schema.not_appended_of_wrap`).
-/

namespace ObjectSync

/-- How far a schema moves when another one is put in front of it. -/
structure Shift where
  fields : Nat
  sections : Nat
  slots : Size
  blocks : Size

/-- The first bit behind the schema in front. -/
def Shift.bits (s : Shift) : Size := s.blocks * .ofNat blockBits

def Placement.moved (s : Shift) (p : Placement) : Placement where
  field := p.field
  offset := p.offset + s.bits
  slot := p.slot + s.slots
  home := p.home.map (· + s.sections)

def Section.moved (s : Shift) (part : Section) : Section where
  span := part.span.shift s.blocks
  fields := part.fields.map (· + s.fields)

/-! ## Sizes -/

namespace Size

theorem add_right_comm (a b c : Size) : a + b + c = a + c + b := by
  rw [UInt64.add_assoc, UInt64.add_comm b, UInt64.add_assoc]

theorem add_sub_add_right (a b c : Size) : a + c - (b + c) = a - b := by
  rw [UInt64.sub_eq_add_neg, UInt64.neg_add, UInt64.add_assoc, UInt64.sub_eq_add_neg,
    UInt64.add_comm (-b), ← UInt64.add_assoc c, UInt64.add_right_neg, UInt64.zero_add,
    ← UInt64.sub_eq_add_neg]

/-- Bits and blocks that move up together keep their distance. -/
theorem add_mul_sub_add_mul (a b c bits : Size) : a + c * bits - (b + c) * bits = a - b * bits := by
  rw [UInt64.add_mul, add_sub_add_right]

end Size

/-! ## Scanning on -/

namespace Scan

/-- How far a scan moves that goes on behind this one. -/
def shift (scan : Scan) : Shift where
  fields := scan.placements.length
  sections := scan.sections.length
  slots := scan.slot
  blocks := scan.block

/-- A scan that goes on behind another one which ended at a cut. -/
def after (before scan : Scan) : Scan where
  placements := before.placements ++ scan.placements.map (.moved before.shift)
  sections := before.sections ++ scan.sections.map (.moved before.shift)
  padding := before.padding ++ scan.padding.map (·.shift before.block)
  uncut := scan.uncut.map (· + before.placements.length)
  run := scan.run
  block := scan.block + before.block
  offset := scan.offset + before.shift.bits
  slot := scan.slot + before.slot

variable {before scan scan' : Scan} {field : Field} {name name' : String}

/-- A scan that ended at a cut counts no bits, so the next field starts at the cut. -/
theorem after_start (hcounted : before.Counted) (hrun : before.run = 0)
    (huncut : before.uncut = []) : before.after {} = before := by
  have hoffset : before.shift.bits = before.offset := by
    rw [← UInt64.sub_add_cancel before.offset before.shift.bits]
    show _ = before.offset - before.block * .ofNat blockBits + _
    rw [← hcounted, hrun, UInt64.zero_add]
  have hzero (size : Size) : (0 : Size) + size = size := UInt64.zero_add size
  simp only [after, List.map_nil, List.append_nil, hzero, hoffset]
  rw [← huncut, ← hrun]

theorem run_after (before scan : Scan) : (before.after scan).run = scan.run := rfl

theorem toNat_block_after (h : before.block.toNat + scan.block.toNat < 2 ^ 64) :
    (before.after scan).block.toNat = before.block.toNat + scan.block.toNat := by
  show (scan.block + before.block).toNat = _
  rw [UInt64.toNat_add, Nat.add_comm]
  exact Nat.mod_eq_of_lt h

/-! ### Steps -/

theorem after_put (before scan : Scan) (field : Field) :
    before.after (scan.put field) = (before.after scan).put field := by
  cases hp : field.isPadding with
  | true =>
    rw [put, if_pos hp, put, if_pos hp]
    simp only [after, List.map_append, List.append_assoc, Size.add_right_comm]
    rfl
  | false =>
    rw [put, if_neg (by rw [hp]; decide), put, if_neg (by rw [hp]; decide)]
    simp only [after, List.map_append, List.append_assoc, List.length_append, List.length_map,
      Size.add_right_comm, Nat.add_comm before.placements.length,
      Nat.add_comm before.sections.length]
    rfl

theorem after_closed (before scan : Scan) :
    before.after scan.closed = (before.after scan).closed := by
  have hempty : (before.after scan).uncut.isEmpty = scan.uncut.isEmpty := List.isEmpty_map
  rw [closed, closed, run_after, hempty]
  split
  · simp only [after, Span.stop, Size.add_right_comm, List.map_append, List.append_assoc]
    rfl
  · simp only [after, Span.stop, Size.add_right_comm, List.map_append, List.append_assoc]
    rfl

theorem declares_after (before scan : Scan) (name : String) :
    (before.after scan).declares name = (before.declares name || scan.declares name) := by
  rw [declares, declares, declares, after, List.any_append, List.any_map]
  rfl

/-- A field with a name that is not declared in front is taken as it is without what is in front. -/
theorem place_after (hname : field.isPadding = true ∨ before.declares field.name = false)
    (hplace : scan.place name field = .ok scan') :
    (before.after scan).place name' field = .ok (before.after scan') := by
  obtain ⟨hnew, hcases⟩ := place_eq_ok_iff.1 hplace
  refine place_eq_ok_iff.2 ⟨?_, ?_⟩
  · rw [declares_after]
    rcases hname with hpadding | hbefore
    · exact .inl hpadding
    · rw [hbefore, Bool.false_or]
      exact hnew
  · rw [← after_put, run_after]
    rcases hcases with ⟨hrun, rfl⟩ | ⟨hrun, hspill, rfl⟩
    · exact .inl ⟨hrun, rfl⟩
    · exact .inr ⟨hrun, hspill, after_closed _ _⟩

/-- What every step commutes with, the scan of a table commutes with. -/
theorem foldlM_commute {fields : List Field} (f : Scan → Scan)
    (hplace : ∀ field ∈ fields, ∀ {scan scan' : Scan}, scan.place name field = .ok scan' →
      (f scan).place name' field = .ok (f scan'))
    (hfold : fields.foldlM (Scan.place name) scan = .ok scan') :
    fields.foldlM (Scan.place name') (f scan) = .ok (f scan') := by
  induction fields generalizing scan with
  | nil =>
    cases hfold
    rfl
  | cons field rest ih =>
    obtain ⟨next, hnext, hfold⟩ := foldlM_cons_eq_ok_iff.1 hfold
    have hrest := ih (fun field' hfield' => hplace field' (List.mem_cons_of_mem field hfield')) hfold
    exact foldlM_cons_eq_ok_iff.2 ⟨f next, hplace field List.mem_cons_self hnext, hrest⟩

/-- The name of a schema is only read by its faults. -/
theorem foldlM_rename {fields : List Field} (name' : String)
    (hfold : fields.foldlM (Scan.place name) scan = .ok scan') :
    fields.foldlM (Scan.place name') scan = .ok scan' :=
  foldlM_commute id (fun _ _ _ _ h => place_eq_ok_iff.2 (place_eq_ok_iff.1 h)) hfold

/-- The compiler takes a second table as it would from the start, only further up. -/
theorem foldlM_after {fields fields' : List Field}
    (hbefore : fields.foldlM (Scan.place name) {} = .ok before) (hrun : before.run = 0)
    (huncut : before.uncut = [])
    (hnew : ∀ field ∈ fields', field.isPadding = true ∨ before.declares field.name = false)
    (hfold' : fields'.foldlM (Scan.place name) {} = .ok scan) :
    (fields ++ fields').foldlM (Scan.place name) {} = .ok (before.after scan) := by
  have hafter : fields'.foldlM (Scan.place name) (before.after {}) = .ok (before.after scan) :=
    foldlM_commute before.after (fun field hfield _ _ h => place_after (hnew field hfield) h) hfold'
  rw [after_start (.foldlM hbefore) hrun huncut] at hafter
  rw [List.foldlM_append, hbefore]
  exact hafter

/-- A field is new behind a table that does not have its name. -/
theorem new_of_names {fields : List Field} (hplaced : scan.placements.map Placement.field = fields)
    (hnames : ∀ field' ∈ fields,
      field'.isPadding = false → field.isPadding = false → field'.name ≠ field.name) :
    field.isPadding = true ∨ scan.declares field.name = false := by
  subst hplaced
  cases hpadding : field.isPadding with
  | true => exact .inl rfl
  | false =>
    refine .inr (declares_eq_false_iff.2 fun field' hfield' => ?_)
    cases hpadding' : field'.isPadding with
    | true => exact .inl rfl
    | false => exact .inr (hnames field' hfield' hpadding' hpadding)

/-- No field is left over where all of them are listed. -/
theorem Housed.uncut_eq_nil (h : scan.Housed)
    (hlisted : ∀ k p, scan.placements[k]? = some p → p.field.isPadding = false →
      ∃ part ∈ scan.sections, k ∈ part.fields) : scan.uncut = [] := by
  refine List.eq_nil_iff_forall_not_mem.2 fun k hk => ?_
  obtain ⟨p, hp, hhome⟩ := (h.uncut k).1 hk
  have hnamed := h.isSome_home p (List.mem_of_getElem? hp)
  rw [hhome, Option.isSome_some, eq_comm, Bool.not_eq_true'] at hnamed
  obtain ⟨part, hpart, hmem⟩ := hlisted k p hp hnamed
  obtain ⟨i, hi⟩ := List.getElem?_of_mem hpart
  obtain ⟨p', hp', hhome'⟩ := (h.listed i part hi k).1 hmem
  cases hp.symm.trans hp'
  have hlt := (List.getElem?_eq_some_iff.1 hi).1
  rw [hhome, Option.some_inj] at hhome'
  exact absurd hhome' (Nat.ne_of_gt hlt)

end Scan

/-! ## Schemas -/

namespace Schema

/-- How far a schema moves that comes behind this one. -/
def shift (schema : Schema) : Shift where
  fields := schema.placements.length
  sections := schema.sections.length
  slots := .ofNat schema.slotCount
  blocks := .ofNat schema.blocks

def append (name : String) (first rest : Schema) : Schema where
  name
  placements := first.placements ++ rest.placements.map (.moved first.shift)
  sections := first.sections ++ rest.sections.map (.moved first.shift)
  padding := first.padding ++ rest.padding.map (·.shift first.shift.blocks)
  blocks := first.blocks + rest.blocks
  slotCount := first.slotCount + rest.slotCount
  onMiss := rest.onMiss

theorem declared_append {table table' : List Field} (h : ∀ field ∈ table, field.isStop = false) :
    declared (table ++ table') = table ++ declared table' := by
  refine List.takeWhile_append_of_pos fun field hfield => ?_
  rw [h field hfield]
  rfl

theorem declared_eq_self {table : List Field} (h : ∀ field ∈ table, field.isStop = false) :
    declared table = table := by
  have happend : declared (table ++ []) = table ++ declared [] := declared_append h
  rwa [show declared [] = [] from rfl, List.append_nil] at happend

/-- The placements are those of the fields of the table. -/
theorem map_field_of_compile {settings : Settings} {name : String} {table : List Field}
    {schema : Schema} (hcompile : compile settings name table = .ok schema) :
    schema.placements.map Placement.field = declared table := by
  obtain ⟨scan, hfold, _, _, rfl⟩ := compile_eq_ok_iff.1 hcompile
  exact Scan.map_field_of_foldlM hfold

/-- What is true of all fields of the table is true of those that were placed. -/
theorem forall_field_of_compile {settings : Settings} {name : String} {table : List Field}
    {schema : Schema} {P : Field → Prop} (hcompile : compile settings name table = .ok schema)
    (h : ∀ field ∈ table, P field) : ∀ p ∈ schema.placements, P p.field := by
  intro p hp
  have hmem := List.mem_map_of_mem (f := Placement.field) hp
  rw [map_field_of_compile hcompile] at hmem
  exact h p.field ((List.takeWhile_sublist _).subset hmem)

variable {settings : Settings} {name name' : String} {table table' : List Field}
  {first rest : Schema}

/-- Two tables, the first with a section for each of its named fields, compile to their schemas, one
behind the other. Slots are counted modulo the number of sizes. -/
theorem compile_append_of_listed (whole : String)
    (hstop : ∀ field ∈ table, field.isStop = false)
    (hlisted : ∀ k p, first.placement? k = some p → p.field.isPadding = false →
      ∃ part ∈ first.sections, k ∈ part.fields)
    (hnames : ∀ field ∈ table, ∀ field' ∈ table',
      field.isPadding = false → field'.isPadding = false → field.name ≠ field'.name)
    (hfirst : compile settings name table = .ok first)
    (hrest : compile settings name' table' = .ok rest)
    (hblocks : first.blocks + rest.blocks ≤ settings.maxBlocks) :
    compile settings whole (table ++ table') = .ok { append whole first rest with
      slotCount := (first.slotCount + rest.slotCount) % 2 ^ 64 } := by
  obtain ⟨before, hfold, hrun, _, rfl⟩ := compile_eq_ok_iff.1 hfirst
  obtain ⟨scan, hfold', hrun', _, rfl⟩ := compile_eq_ok_iff.1 hrest
  have huncut : before.uncut = [] := (Scan.Housed.foldlM hfold).uncut_eq_nil hlisted
  rw [declared_eq_self hstop] at hfold
  have hplaced : before.placements.map Placement.field = table := Scan.map_field_of_foldlM hfold
  have hnew : ∀ field ∈ declared table',
      field.isPadding = true ∨ before.declares field.name = false := by
    intro field hfield
    have hmem := (List.takeWhile_sublist _).subset hfield
    exact Scan.new_of_names hplaced fun field' hfield' => hnames field' hfield' field hmem
  -- the first table ends at a cut, so none of its fields waits for a section of the second
  have hwhole : (declared (table ++ table')).foldlM (Scan.place whole) {} =
      .ok (before.after scan) := by
    rw [declared_append hstop]
    exact Scan.foldlM_after (Scan.foldlM_rename whole hfold) hrun huncut hnew
      (Scan.foldlM_rename whole hfold')
  have hblock : (before.after scan).block.toNat = before.block.toNat + scan.block.toNat :=
    Scan.toNat_block_after
      (Nat.lt_of_le_of_lt (Nat.le_trans hblocks settings.maxBlocks_le) (by decide))
  have hslot : (before.after scan).slot.toNat = (before.slot.toNat + scan.slot.toNat) % 2 ^ 64 := by
    rw [Nat.add_comm]
    exact UInt64.toNat_add ..
  have hshift : (before.schema settings name).shift = before.shift := by
    simp only [shift, Scan.schema, Scan.shift, UInt64.ofNat_toNat]
  refine compile_eq_ok_iff.2
    ⟨before.after scan, hwhole, (Scan.run_after _ _).trans hrun', hblock ▸ hblocks, ?_⟩
  rw [append, hshift]
  simp only [Scan.schema, hblock, hslot]
  rfl

/-- Where the width of a table is a size, each of its elements takes a bit. -/
theorem slotCount_le (hfits : FitsSize table) (hcompile : compile settings name table = .ok first) :
    first.slotCount ≤ first.blocks * blockBits := by
  obtain ⟨scan, hfold, hrun, _, rfl⟩ := compile_eq_ok_iff.1 hcompile
  obtain ⟨hsound, _, hend⟩ := scan_sound hfits hfold hrun
  exact hend ▸ hsound.slot_le

/-- Where the width of a table is a size, the fields that have elements have their sections. -/
theorem listed_of_compile (hfits : FitsSize table)
    (hfilled : ∀ field ∈ table, field.isPadding = false → 0 < field.length.toNat)
    (hcompile : compile settings name table = .ok first) :
    ∀ k p, first.placement? k = some p → p.field.isPadding = false →
      ∃ part ∈ first.sections, k ∈ part.fields := by
  intro k p hk hnamed
  have hsound := (compile_sound hfits hcompile).1
  have hmem := List.mem_of_getElem? hk
  have hlength := forall_field_of_compile
    (P := fun field => field.isPadding = false → 0 < field.length.toNat) hcompile hfilled p hmem
  have hroom : 0 < p.field.room :=
    Nat.mul_pos (Field.bits_pos (hsound.arranged.isStop_field p hmem)) (hlength hnamed)
  obtain ⟨i, part, hi, hlisted, _⟩ := hsound.section_of_field hk hnamed hroom
  exact ⟨part, List.mem_of_getElem? hi, hlisted⟩

theorem compile_append (hfits : FitsSize table) (hfits' : FitsSize table')
    (hstop : ∀ field ∈ table, field.isStop = false)
    (hfilled : ∀ field ∈ table, field.isPadding = false → 0 < field.length.toNat)
    (hnames : ∀ field ∈ table, ∀ field' ∈ table',
      field.isPadding = false → field'.isPadding = false → field.name ≠ field'.name)
    (hfirst : compile settings name table = .ok first)
    (hrest : compile settings name' table' = .ok rest)
    (hblocks : first.blocks + rest.blocks ≤ settings.maxBlocks) :
    compile settings name' (table ++ table') = .ok (append name' first rest) := by
  have hslots := slotCount_le hfits hfirst
  have hslots' := slotCount_le hfits' hrest
  have hsum : first.blocks + rest.blocks ≤ maskBlocks :=
    Nat.le_trans hblocks settings.maxBlocks_le
  have hsize : (first.slotCount + rest.slotCount) % 2 ^ 64 = first.slotCount + rest.slotCount := by
    refine Nat.mod_eq_of_lt ?_
    simp only [maskBlocks, maskWords, blockBits] at *
    omega
  rw [compile_append_of_listed name' hstop (listed_of_compile hfits hfilled hfirst) hnames hfirst
    hrest hblocks, hsize]
  rfl

/-- The width of two tables that fit the mask together is a size. -/
theorem fitsSize_append (hfits : FitsSize table) (hfits' : FitsSize table')
    (hstop : ∀ field ∈ table, field.isStop = false)
    (hfirst : compile settings name table = .ok first)
    (hrest : compile settings name' table' = .ok rest)
    (hblocks : first.blocks + rest.blocks ≤ settings.maxBlocks) : FitsSize (table ++ table') := by
  have hroom := (compile_sound hfits hfirst).2
  have hroom' := (compile_sound hfits' hrest).2
  have hsum : first.blocks + rest.blocks ≤ maskBlocks :=
    Nat.le_trans hblocks settings.maxBlocks_le
  rw [declared_eq_self hstop] at hroom
  rw [FitsSize, declared_append hstop, Field.roomOf_append, ← hroom, ← hroom']
  simp only [maskBlocks, maskWords, blockBits] at *
  omega

/-! ## What stays and what moves -/

/-- In the whole the first schema is found as it is, and the other one behind it. -/
structure Appended (first rest whole : Schema) : Prop where
  sections_eq : whole.sections = first.sections ++ rest.sections.map (.moved first.shift)
  padding_eq : whole.padding = first.padding ++ rest.padding.map (·.shift (.ofNat first.blocks))
  blocks_eq : whole.blocks = first.blocks + rest.blocks
  length_eq : whole.placements.length = first.placements.length + rest.placements.length
  /-- A field of the first table stays where it is. -/
  placement_left : ∀ k < first.placements.length, whole.placement? k = first.placement? k
  /-- A field of the other table moves up by the blocks and the slots of the first. -/
  placement_right : ∀ k p, rest.placement? k = some p →
    ∃ q, whole.placement? (k + first.placements.length) = some q ∧ q.field = p.field ∧
      q.offset = p.offset + .ofNat first.blocks * .ofNat blockBits ∧
      q.slot = p.slot + .ofNat first.slotCount
  sectionOf_left : ∀ k < first.placements.length, whole.sectionOf? k = first.sectionOf? k
  sectionOf_right : ∀ k, whole.sectionOf? (k + first.placements.length) =
    (rest.sectionOf? k).map (· + first.sections.length)
  sectionNamed_left : ∀ fieldName i, first.sectionNamed? fieldName = some i →
    whole.sectionNamed? fieldName = some i
  sectionNamed_right : ∀ fieldName i, rest.sectionNamed? fieldName = some i →
    whole.sectionNamed? fieldName = some (i + first.sections.length)

section Lookups

variable (name) {k : Nat}

theorem placement?_append_left (hk : k < first.placements.length) :
    (append name first rest).placement? k = first.placement? k :=
  List.getElem?_append_left hk

theorem placement?_append_right :
    (append name first rest).placement? (k + first.placements.length) =
      (rest.placement? k).map (.moved first.shift) := by
  show (first.placements ++ _)[k + first.placements.length]? = _
  rw [List.getElem?_append_right (Nat.le_add_left _ _), Nat.add_sub_cancel, List.getElem?_map]
  rfl

theorem sectionOf?_append_left (hk : k < first.placements.length) :
    (append name first rest).sectionOf? k = first.sectionOf? k := by
  rw [sectionOf?, placement?_append_left name hk, sectionOf?]

theorem sectionOf?_append_right :
    (append name first rest).sectionOf? (k + first.placements.length) =
      (rest.sectionOf? k).map (· + first.sections.length) := by
  rw [sectionOf?, placement?_append_right, sectionOf?]
  cases rest.placement? k <;> rfl

/-- A name is looked for in the first table, and then in the other one. -/
theorem fieldNamed?_append (fieldName : String) :
    (append name first rest).fieldNamed? fieldName = (first.fieldNamed? fieldName).or
      ((rest.fieldNamed? fieldName).map (· + first.placements.length)) := by
  show (first.placements ++ rest.placements.map (Placement.moved first.shift)).findIdx? _ = _
  rw [List.findIdx?_append, List.findIdx?_map]
  rfl

/-- A name of the first table is a name of one of its fields. -/
theorem exists_of_fieldNamed? {fieldName : String} (h : first.fieldNamed? fieldName = some k) :
    ∃ p, first.placement? k = some p ∧ p.field.isPadding = false ∧ p.field.name = fieldName := by
  obtain ⟨hk, hfound, _⟩ := List.findIdx?_eq_some_iff_getElem.1 h
  rw [Bool.and_eq_true, Bool.not_eq_true', beq_iff_eq] at hfound
  exact ⟨_, List.getElem?_eq_getElem hk, hfound⟩

theorem sectionNamed?_append_left {fieldName : String} {i : Nat}
    (h : first.sectionNamed? fieldName = some i) :
    (append name first rest).sectionNamed? fieldName = some i := by
  obtain ⟨k, hk, hi⟩ := Option.bind_eq_some_iff.1 h
  obtain ⟨p, hp, _⟩ := exists_of_fieldNamed? hk
  rw [sectionNamed?, fieldNamed?_append, hk]
  exact (sectionOf?_append_left name (List.getElem?_eq_some_iff.1 hp).1).trans hi

theorem sectionNamed?_append_right {fieldName : String} {i : Nat}
    (hnone : first.fieldNamed? fieldName = none) (h : rest.sectionNamed? fieldName = some i) :
    (append name first rest).sectionNamed? fieldName = some (i + first.sections.length) := by
  obtain ⟨k, hk, hi⟩ := Option.bind_eq_some_iff.1 h
  rw [sectionNamed?, fieldNamed?_append, hnone, hk, Option.none_or, Option.map_some]
  show (append name first rest).sectionOf? (k + first.placements.length) = _
  rw [sectionOf?_append_right, hi]
  rfl

end Lookups

/-- Appending fields to a table in which each named field has its section leaves the table as it is,
and the fields as they would be alone, only further up. -/
theorem appended {whole : String} (hstop : ∀ field ∈ table, field.isStop = false)
    (hlisted : ∀ k p, first.placement? k = some p → p.field.isPadding = false →
      ∃ part ∈ first.sections, k ∈ part.fields)
    (hnames : ∀ field ∈ table, ∀ field' ∈ table',
      field.isPadding = false → field'.isPadding = false → field.name ≠ field'.name)
    (hfirst : compile settings name table = .ok first)
    (hrest : compile settings name' table' = .ok rest)
    (hblocks : first.blocks + rest.blocks ≤ settings.maxBlocks) :
    ∃ schema, compile settings whole (table ++ table') = .ok schema ∧
      Appended first rest schema := by
  have hcompile := compile_append_of_listed whole hstop hlisted hnames hfirst hrest hblocks
  refine ⟨_, hcompile, {
    sections_eq := rfl
    padding_eq := rfl
    blocks_eq := rfl
    length_eq := by
      show (first.placements ++ _).length = _
      rw [List.length_append, List.length_map]
    placement_left := fun k hk => placement?_append_left whole hk
    placement_right := fun k p hk => ?_
    sectionOf_left := fun k hk => sectionOf?_append_left whole hk
    sectionOf_right := fun k => sectionOf?_append_right whole
    sectionNamed_left := fun _ _ h => sectionNamed?_append_left whole h
    sectionNamed_right := fun fieldName i h => ?_ }⟩
  · refine ⟨p.moved first.shift, ?_, rfl, rfl, rfl⟩
    show (append whole first rest).placement? _ = _
    rw [placement?_append_right, hk]
    rfl
  · refine sectionNamed?_append_right whole (Option.eq_none_iff_forall_ne_some.2 fun k hk => ?_) h
    -- a name that both tables have is the name of a field in each
    obtain ⟨k', hk', _⟩ := Option.bind_eq_some_iff.1 h
    obtain ⟨p, hp, hnamed, rfl⟩ := exists_of_fieldNamed? hk
    obtain ⟨p', hp', hnamed', hname⟩ := exists_of_fieldNamed? hk'
    exact hnames p.field (forall_field_of_compile hfirst (fun _ h => h) p (List.mem_of_getElem? hp))
      p'.field (forall_field_of_compile hrest (fun _ h => h) p' (List.mem_of_getElem? hp'))
      hnamed hnamed' hname.symm

/-- A field that is followed by padding, and an array behind them. -/
theorem appended_padded :
    ∃ first rest, compile {} "A" [.scalar "a" .u32, .padding .u32 1] = .ok first ∧
      compile {} "B" [.array "b" .u16 2] = .ok rest ∧
      (∀ k p, first.placement? k = some p → p.field.isPadding = false →
        ∃ part ∈ first.sections, k ∈ part.fields) ∧
      first.blocks + rest.blocks ≤ Settings.maxBlocks {} ∧
      ∃ schema, compile {} "AB" ([.scalar "a" .u32, .padding .u32 1] ++ [.array "b" .u16 2]) =
        .ok schema ∧ Appended first rest schema := by
  have hrun : (compile {} "A" [.scalar "a" .u32, .padding .u32 1]).toOption.map Schema.blocks =
      some 2 := by decide +kernel
  have hrun' : (compile {} "B" [.array "b" .u16 2]).toOption.map Schema.blocks = some 1 := by
    decide +kernel
  obtain ⟨first, hfirst, htwo⟩ := exists_of_compile hrun
  obtain ⟨rest, hrest, hone⟩ := exists_of_compile hrun'
  have hlisted := listed_of_compile (by decide) (by decide) hfirst
  have hblocks : first.blocks + rest.blocks ≤ Settings.maxBlocks {} := by
    rw [htwo, hone]
    decide
  exact ⟨first, rest, hfirst, hrest, hlisted, hblocks,
    appended (by decide) hlisted (by decide) hfirst hrest hblocks⟩

/-- The fields of a table that is wider than any size may have elements and no section. They are
joined to the first section behind them. -/
theorem not_appended_of_wrap :
    let table : List Field :=
      [.array "b" .u8 9223372036854775808, .array "c" .u8 9223372036854775808]
    (∀ field ∈ table, field.isStop = false ∧ field.isPadding = false ∧ 0 < field.length.toNat) ∧
      ∃ first rest whole, compile {} "A" table = .ok first ∧
        compile {} "B" [.scalar "a" .u32] = .ok rest ∧
        first.blocks + rest.blocks ≤ Settings.maxBlocks {} ∧
        compile {} "AB" (table ++ [.scalar "a" .u32]) = .ok whole ∧
        ¬Appended first rest whole := by
  refine ⟨by decide, ?_⟩
  have hrun : (compile {} "A" [.array "b" .u8 9223372036854775808,
      .array "c" .u8 9223372036854775808]).toOption.map (fun first =>
        (first.sections, first.blocks)) = some ([], 0) := by decide +kernel
  have hrun' : (compile {} "B" [.scalar "a" .u32]).toOption.map (fun rest =>
      (rest.sections, rest.blocks)) = some ([⟨⟨0, 1⟩, [0]⟩], 1) := by decide +kernel
  have hrun'' : (compile {} "AB" ([.array "b" .u8 9223372036854775808,
      .array "c" .u8 9223372036854775808] ++ [.scalar "a" .u32])).toOption.map Schema.sections =
        some [⟨⟨0, 1⟩, [0, 1, 2]⟩] := by decide +kernel
  obtain ⟨first, hfirst, heq⟩ := exists_of_compile hrun
  obtain ⟨rest, hrest, heq'⟩ := exists_of_compile hrun'
  obtain ⟨whole, hwhole, hsections⟩ := exists_of_compile hrun''
  simp only [Prod.mk.injEq] at heq heq'
  refine ⟨first, rest, whole, hfirst, hrest, ?_, hwhole, fun happended => ?_⟩
  · rw [heq.2, heq'.2]
    decide
  · have hjoined := congrArg (List.map fun part => part.fields.length) happended.sections_eq
    rw [hsections, heq.1, heq'.1] at hjoined
    simp [Section.moved] at hjoined

end Schema

end ObjectSync
