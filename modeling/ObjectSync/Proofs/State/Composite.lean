import ObjectSync.Proofs.State.Joined
import ObjectSync.Proofs.State.Parts

/-!
# Composites as one record

A composite of several records could be one record, of the schema that their tables have as one
table. `Flattens` says that one record stands for several: it is the first one, joined with one that
stands for the others. Changes, sending and the question whether anything changed agree on the two
sides, one move after the other, so a composite and its flat record cannot be told apart by what
they send (**`Composed.simulates`**).

The tables have to be sizes. A wide one may compile to fields that belong to no section, and as part
of a longer table these are found in the section that comes next (`flat_dirty_of_wrap`).
-/

namespace ObjectSync

/-! ## Records that stand for several -/

/-- The record stands for all of the records. -/
inductive Flattens : List Record → Record → Prop where
  | nil {flat : Record} (sound : flat.Sound) (sections : flat.schema.sections = [])
      (blocks : flat.schema.blocks = 0) (clean : flat.isDirty = false) : Flattens [] flat
  | cons {part rest flat : Record} {parts : List Record} (joins : part.Joins rest flat)
      (flattens : Flattens parts rest) : Flattens (part :: parts) flat

/-- The first field of a record, when all fields are counted one behind the other. -/
def firstField (lengths : List Nat) (part : Nat) : Nat := (lengths.take part).sum

namespace Edit

theorem moved_zero (edit : Edit) : edit.moved 0 = edit := by
  cases edit <;> rfl

theorem moved_add (edit : Edit) (a b : Nat) : edit.moved (a + b) = (edit.moved b).moved a := by
  have hadd (field : Nat) : field + (a + b) = field + b + a := by omega
  cases edit <;> simp only [moved, hadd]

end Edit

namespace Flattens

variable {parts : List Record} {flat : Record}

theorem sound (h : Flattens parts flat) : flat.Sound := by
  cases h with
  | nil sound => exact sound
  | cons joins => exact joins.flat_sound

theorem blocks_eq (h : Flattens parts flat) :
    flat.schema.blocks = Layout.blocksOf (parts.map (·.schema.blocks)) := by
  induction h with
  | nil sound sections blocks => exact blocks
  | cons joins _ ih =>
    rw [joins.blocks_eq, ih]
    rfl

theorem isDirty_iff (h : Flattens parts flat) :
    flat.isDirty = true ↔ ∃ part ∈ parts, part.isDirty = true := by
  induction h with
  | nil _ _ _ clean => simp [clean]
  | cons joins _ ih => rw [joins.isDirty_iff, ih, List.exists_mem_cons_iff]

theorem clearDirty (h : Flattens parts flat) :
    Flattens (parts.map Record.clearDirty) flat.clearDirty := by
  induction h with
  | nil sound sections blocks => exact .nil sound.clearDirty sections blocks rfl
  | cons joins _ ih => exact .cons joins.clearDirty ih

/-- A change to a field of a part is made to the same field of the record that stands for all. -/
theorem edit (h : Flattens parts flat) {i : Nat} {part : Record} {edit : Edit}
    (hpart : parts[i]? = some part) (hfield : edit.field < part.schema.placements.length) :
    Flattens (parts.modify i (·.edit edit))
      (flat.edit (edit.moved (firstField (parts.map (·.schema.placements.length)) i))) := by
  induction h generalizing i with
  | nil => cases hpart
  | cons joins flattens ih =>
    cases i with
    | zero =>
      cases hpart
      rw [show firstField _ 0 = 0 from rfl, Edit.moved_zero]
      exact .cons (joins.edit_left hfield) flattens
    | succ i =>
      rw [List.getElem?_cons_succ] at hpart
      rw [List.modify_succ_cons, List.map_cons, firstField, List.take_succ_cons, List.sum_cons,
        Edit.moved_add]
      exact .cons (joins.edit_right _) (ih hpart)

/-! ## Sending -/

/-- The parts send what the record that stands for all sends. -/
theorem entriesOf_eq (h : Flattens parts flat) (onlyDirty : Bool) (start : Nat) :
    Layout.entriesOf onlyDirty
        (Layout.taken (Layout.placedFrom start (parts.map (·.schema.blocks))) parts) =
      (flat.entries onlyDirty).map (moved start) := by
  induction h generalizing start with
  | @nil flat sound sections =>
    have hnone : flat.entries onlyDirty = [] := by
      refine List.eq_nil_iff_forall_not_mem.2 fun entry hentry => ?_
      obtain ⟨s, hs, _⟩ := List.mem_flatMap.1 hentry
      obtain ⟨part, hpart, _⟩ := List.mem_map.1 hs
      have hmem := Record.mem_sections_of_mem_chosen sound hpart
      rw [sections] at hmem
      cases hmem
    rw [hnone]
    rfl
  | @cons part rest flat parts joins _ ih =>
    -- the first part is put in at `start`, and the others go behind its blocks
    have hmoved : moved start ∘ moved part.schema.blocks = moved (start + part.schema.blocks) :=
      funext fun entry => moved_moved _ _ entry
    rw [List.map_cons, Layout.placedFrom, Layout.taken_cons_of_match rfl, Layout.entriesOf,
      List.flatMap_cons, joins.entries_eq, List.map_append, List.map_map, hmoved, ← ih]
    rfl

theorem left_eq (parts : List Record) (start : Nat) :
    Layout.left (Layout.placedFrom start (parts.map (·.schema.blocks))) parts =
      parts.map Record.clearDirty := by
  induction parts generalizing start with
  | nil => rfl
  | cons part parts ih =>
    rw [List.map_cons, Layout.placedFrom, Layout.left, if_pos rfl, ih]
    rfl

theorem part_sound (h : Flattens parts flat) : ∀ part ∈ parts, part.Sound := by
  induction h with
  | nil => nofun
  | cons joins _ ih => exact List.forall_mem_cons.2 ⟨joins.part_sound, ih⟩

/-- What the parts send together is what the record that stands for all sends. -/
theorem marshal_eq (h : Flattens parts flat) {layout : Layout} (hsummed : layout.Summed)
    (hlayout : layout.parts = parts.map (·.schema.blocks)) (onlyDirty : Bool) :
    (layout.marshal parts onlyDirty).value =
      ((flat.marshal onlyDirty).value.1, parts.map Record.clearDirty) := by
  have htotal : layout.total = flat.schema.blocks := by
    rw [hsummed, hlayout, h.blocks_eq]
  have hsound : ∀ p ∈ Layout.taken layout.placed parts, p.2.Sound := fun p hp =>
    h.part_sound p.2 (Layout.snd_mem_of_mem_taken hp)
  obtain ⟨block, hmarshal, hcarries⟩ := h.sound.marshal_eq onlyDirty
  obtain ⟨block', hvalue, _, hcarries'⟩ :=
    Layout.marshal_eq ⟨hsummed, htotal ▸ h.sound.schema.blocks_le⟩ hsound onlyDirty
  rw [Layout.placed, hlayout] at hvalue hcarries'
  rw [h.entriesOf_eq, moved_zero, List.map_id] at hcarries'
  rw [hvalue, left_eq, hmarshal, hcarries'.bytes_eq hcarries]
  rfl

end Flattens

/-! ## Moves -/

/-- A table of fields with its name. -/
structure Table where
  name : String
  fields : List Field

/-- What may happen to a composite. -/
inductive Move where
  | edit (part : Nat) (edit : Edit)
  | marshal (onlyDirty : Bool)

namespace Move

/-- A change is made to a field of one of the tables. -/
def InRange (tables : List Table) : Move → Prop
  | .edit part change => ∃ table, tables[part]? = some table ∧ change.field < table.fields.length
  | .marshal _ => True

/-- A move of the parts, with what is sent. -/
def onParts (layout : Layout) (parts : List Record) : Move → List Record × Option Bytes
  | .edit part change => (parts.modify part (·.edit change), none)
  | .marshal onlyDirty =>
    let sent := (layout.marshal parts onlyDirty).value
    (sent.2, some sent.1)

/-- The same move of a record of all tables as one. -/
def onFlat (tables : List Table) (flat : Record) : Move → Record × Option Bytes
  | .edit part change =>
    (flat.edit (change.moved (firstField (tables.map (·.fields.length)) part)), none)
  | .marshal onlyDirty =>
    let sent := (flat.marshal onlyDirty).value
    (sent.2, some sent.1)

end Move

/-- Several moves, with all that is sent. -/
def play {σ : Type} (move : σ → Move → σ × Option Bytes) : List Move → σ → σ × List Bytes
  | [], state => (state, [])
  | next :: moves, state =>
    let (state, sent) := move state next
    let (state, rest) := play move moves state
    (state, sent.toList ++ rest)

/-- The flat record stands for the parts, and these fit the tables and the layout. -/
structure Tracks (tables : List Table) (layout : Layout) (parts : List Record) (flat : Record) :
    Prop where
  flattens : Flattens parts flat
  lengths : parts.map (·.schema.placements.length) = tables.map (·.fields.length)
  summed : layout.Summed
  blocks : layout.parts = parts.map (·.schema.blocks)

namespace Tracks

variable {tables : List Table} {layout : Layout} {parts : List Record} {flat : Record}

/-- A change to a part leaves all schemas. -/
theorem map_schema_modify {α : Type} (f : Schema → α) {i : Nat} {edit : Edit} :
    (parts.modify i (·.edit edit)).map (fun part => f part.schema) =
      parts.map fun part => f part.schema := by
  refine List.ext_getElem? fun j => ?_
  rw [List.getElem?_map, List.getElem?_map, List.getElem?_modify]
  cases parts[j]? with
  | none => rfl
  | some part =>
    simp only [Option.map_some, Option.map_eq_map]
    split
    · rw [Record.schema_edit]
    · rfl

theorem move (h : Tracks tables layout parts flat) {move : Move} (hmove : move.InRange tables) :
    (move.onParts layout parts).2 = (move.onFlat tables flat).2 ∧
      Tracks tables layout (move.onParts layout parts).1 (move.onFlat tables flat).1 := by
  cases move with
  | edit i edit =>
    obtain ⟨table, htable, hfield⟩ := hmove
    have hlength : (parts.map (·.schema.placements.length))[i]? = some table.fields.length := by
      rw [h.lengths, List.getElem?_map, htable]
      rfl
    rw [List.getElem?_map] at hlength
    obtain ⟨part, hpart, heq⟩ := Option.map_eq_some_iff.1 hlength
    refine ⟨rfl, ?_, ?_, h.summed, ?_⟩
    · show Flattens _ (flat.edit (edit.moved (firstField (tables.map _) i)))
      rw [← h.lengths]
      exact h.flattens.edit hpart (heq ▸ hfield)
    · exact (map_schema_modify fun schema => schema.placements.length).trans h.lengths
    · exact h.blocks.trans (map_schema_modify Schema.blocks).symm
  | marshal onlyDirty =>
    have hsent := h.flattens.marshal_eq h.summed h.blocks onlyDirty
    obtain ⟨block, hmarshal, _⟩ := h.flattens.sound.marshal_eq onlyDirty
    have hclear : (flat.marshal onlyDirty).value.2 = flat.clearDirty := by
      rw [hmarshal]
      rfl
    have hparts : (Move.onParts layout parts (.marshal onlyDirty)).1 =
        parts.map Record.clearDirty := by
      rw [Move.onParts, hsent]
    have hflat : (Move.onFlat tables flat (.marshal onlyDirty)).1 = flat.clearDirty := hclear
    refine ⟨?_, ?_⟩
    · rw [Move.onParts, hsent]
      rfl
    · rw [hparts, hflat]
      exact {
        flattens := h.flattens.clearDirty
        lengths := by rw [List.map_map]; exact h.lengths
        summed := h.summed
        blocks := by rw [List.map_map]; exact h.blocks }

theorem play (h : Tracks tables layout parts flat) {moves : List Move}
    (hmoves : ∀ move ∈ moves, move.InRange tables) :
    (play (Move.onParts layout) moves parts).2 = (play (Move.onFlat tables) moves flat).2 ∧
      Tracks tables layout (play (Move.onParts layout) moves parts).1
        (play (Move.onFlat tables) moves flat).1 := by
  induction moves generalizing parts flat with
  | nil => exact ⟨rfl, h⟩
  | cons next moves ih =>
    obtain ⟨hsent, hnext⟩ := h.move (hmoves next List.mem_cons_self)
    obtain ⟨hrest, hlast⟩ := ih hnext fun move hmove => hmoves move (List.mem_cons_of_mem next hmove)
    refine ⟨?_, hlast⟩
    rw [ObjectSync.play, ObjectSync.play]
    simp only [hsent, hrest]

end Tracks

/-! ## Tables -/

/-- The tables compile, one by one, and the layout takes all of them. They run to their end, no named
field is without elements, and no name is declared by two of them. -/
structure Composed (settings : Settings) (tables : List Table) (schemas : List Schema)
    (layout : Layout) : Prop where
  compiled : List.Forall₂ (fun table schema =>
    Schema.compile settings table.name table.fields = .ok schema) tables schemas
  endless : ∀ table ∈ tables, ∀ field ∈ table.fields, field.isStop = false
  filled : ∀ table ∈ tables, ∀ field ∈ table.fields,
    field.isPadding = false → 0 < field.length.toNat
  distinct : tables.Pairwise fun table next => ∀ field ∈ table.fields, ∀ field' ∈ next.fields,
    field.isPadding = false → field'.isPadding = false → field.name ≠ field'.name
  accepted : ∃ name, Layout.ofSchemas settings name schemas = .ok layout

/-- The parts and the record of all tables as one send the same and change at the same time. -/
def Simulates (tables : List Table) (schemas : List Schema) (layout : Layout) (flat : Schema) :
    Prop :=
  ∀ moves : List Move, (∀ move ∈ moves, move.InRange tables) →
    let parts := play (Move.onParts layout) moves (schemas.map Record.blank)
    let whole := play (Move.onFlat tables) moves (Record.blank flat)
    parts.2 = whole.2 ∧ (whole.1.isDirty = true ↔ ∃ part ∈ parts.1, part.isDirty = true)

namespace Composed

variable {settings : Settings} {tables : List Table} {schemas : List Schema} {layout : Layout}

/-- Tables that fit the mask together compile as one, and its record stands for theirs. -/
theorem flattens (name : String)
    (hcompiled : List.Forall₂ (fun table schema =>
      Schema.compile settings table.name table.fields = .ok schema) tables schemas)
    (hfits : ∀ table ∈ tables, FitsSize table.fields)
    (hendless : ∀ table ∈ tables, ∀ field ∈ table.fields, field.isStop = false)
    (hfilled : ∀ table ∈ tables, ∀ field ∈ table.fields,
      field.isPadding = false → 0 < field.length.toNat)
    (hdistinct : tables.Pairwise fun table next => ∀ field ∈ table.fields, ∀ field' ∈ next.fields,
      field.isPadding = false → field'.isPadding = false → field.name ≠ field'.name)
    (hblocks : Layout.blocksOf (schemas.map Schema.blocks) ≤ settings.maxBlocks) :
    ∃ flat, Schema.compile settings name (tables.flatMap Table.fields) = .ok flat ∧
      FitsSize (tables.flatMap Table.fields) ∧
      Flattens (schemas.map Record.blank) (.blank flat) := by
  induction hcompiled with
  | nil =>
    have hcompile : Schema.compile settings name [] = .ok (Scan.schema {} settings name) :=
      Schema.compile_eq_ok_iff.2 ⟨{}, rfl, rfl, Nat.zero_le _, rfl⟩
    have hfits : FitsSize [] := by decide
    exact ⟨_, hcompile, hfits,
      .nil (.blank (Schema.compile_sound hfits hcompile).1) rfl rfl rfl⟩
  | @cons table first tables schemas hfirst _ ih =>
    obtain ⟨hfit, hfits⟩ := List.forall_mem_cons.1 hfits
    obtain ⟨hend, hendless⟩ := List.forall_mem_cons.1 hendless
    obtain ⟨hfill, hrests⟩ := List.forall_mem_cons.1 hfilled
    obtain ⟨hapart, hdistinct⟩ := List.pairwise_cons.1 hdistinct
    have hsum : first.blocks + Layout.blocksOf (schemas.map Schema.blocks) ≤ settings.maxBlocks :=
      hblocks
    obtain ⟨rest, hrest, hfits', hflattens⟩ := ih hfits hendless hrests hdistinct (by omega)
    have hrestBlocks : rest.blocks = Layout.blocksOf (schemas.map Schema.blocks) := by
      have hblocks := hflattens.blocks_eq
      rw [List.map_map] at hblocks
      exact hblocks
    rw [← hrestBlocks] at hsum
    have hnames : ∀ field ∈ table.fields, ∀ field' ∈ tables.flatMap Table.fields,
        field.isPadding = false → field'.isPadding = false → field.name ≠ field'.name := by
      intro field hfield field' hfield'
      obtain ⟨next, hnext, hmem⟩ := List.mem_flatMap.1 hfield'
      exact hapart next hnext field hfield field' hmem
    have hfilled' : ∀ field ∈ table.fields ++ tables.flatMap Table.fields,
        field.isPadding = false → 0 < field.length.toNat := by
      intro field hfield
      rcases List.mem_append.1 hfield with hmem | hmem
      · exact hfill field hmem
      · obtain ⟨next, hnext, hmem⟩ := List.mem_flatMap.1 hmem
        exact hrests next hnext field hmem
    obtain ⟨hcompile, hwhole, hjoins⟩ :=
      Record.Joins.of_compile hfit hfits' hend hfilled' hnames hfirst hrest hsum
    exact ⟨_, hcompile, hwhole, .cons hjoins hflattens⟩

/-- Every field of a table has its placement. -/
theorem lengths_eq
    (hcompiled : List.Forall₂ (fun table schema =>
      Schema.compile settings table.name table.fields = .ok schema) tables schemas)
    (hendless : ∀ table ∈ tables, ∀ field ∈ table.fields, field.isStop = false) :
    schemas.map (·.placements.length) = tables.map (·.fields.length) := by
  induction hcompiled with
  | nil => rfl
  | @cons table schema tables schemas hcompile _ ih =>
    obtain ⟨hend, hendless⟩ := List.forall_mem_cons.1 hendless
    have hfields := Schema.map_field_of_compile hcompile
    rw [Schema.declared_eq_self hend] at hfields
    rw [List.map_cons, List.map_cons, ih hendless, ← hfields, List.length_map]

/-- The tables compile as one, and no run tells the parts from their flat record. -/
theorem simulates (h : Composed settings tables schemas layout)
    (hfits : ∀ table ∈ tables, FitsSize table.fields) (name : String) :
    ∃ flat, Schema.compile settings name (tables.flatMap Table.fields) = .ok flat ∧
      Simulates tables schemas layout flat := by
  obtain ⟨layoutName, haccepted⟩ := h.accepted
  obtain ⟨hblocks, rfl⟩ := Layout.ofSchemas_eq_ok_iff.1 haccepted
  obtain ⟨flat, hcompile, _, hflattens⟩ :=
    flattens name h.compiled hfits h.endless h.filled h.distinct hblocks
  refine ⟨flat, hcompile, fun moves hmoves => ?_⟩
  have htracks : Tracks tables _ (schemas.map Record.blank) (.blank flat) := {
    flattens := hflattens
    lengths := by
      rw [List.map_map]
      exact lengths_eq h.compiled h.endless
    summed := Layout.Accepted.summed (.several haccepted)
    blocks := by rw [List.map_map]; rfl }
  obtain ⟨hsent, hlast⟩ := htracks.play hmoves
  exact ⟨hsent, hlast.flattens.isDirty_iff⟩

/-- Two tables, the second with padding between its fields. -/
theorem simulates_padded :
    let tables : List Table := [⟨"Object", [.scalar "guid" .u64, .scalar "type" .u32]⟩,
      ⟨"Unit", [.array "power" .u16 2, .padding .u32 1, .scalar "level" .u32]⟩]
    ∃ schemas layout, Composed {} tables schemas layout ∧
      (∀ table ∈ tables, FitsSize table.fields) ∧
      ∃ flat, Schema.compile {} "Flat" (tables.flatMap Table.fields) = .ok flat ∧
        Simulates tables schemas layout flat := by
  intro tables
  obtain ⟨schemas, layout, hcompiled, hlayout⟩ : ∃ schemas layout,
      List.Forall₂ (fun table schema =>
        Schema.compile {} table.name table.fields = .ok schema) tables schemas ∧
      Layout.ofSchemas {} "Both" schemas = .ok layout :=
    ⟨[_, _], _, .cons rfl (.cons rfl .nil), rfl⟩
  have hcomposed : Composed {} tables schemas layout := {
    compiled := hcompiled
    endless := by decide
    filled := by decide
    distinct := by decide
    accepted := ⟨"Both", hlayout⟩ }
  have hfits : ∀ table ∈ tables, FitsSize table.fields := by decide
  exact ⟨schemas, layout, hcomposed, hfits, simulates hcomposed hfits "Flat"⟩

/-- A table that is wider than any size and ends where it starts, in front of a small one. -/
def wrappedTables : List Table :=
  [⟨"Wide", [.array "b" .u8 9223372036854775808, .array "c" .u8 9223372036854775808]⟩,
    ⟨"Small", [.scalar "a" .u32]⟩]

/-- The fields of the wide table belong to no section. In one table with the small one they are
found in its section, and flagging one of them makes the flat record dirty, but not the parts. -/
theorem flat_dirty_of_wrap :
    ∃ schemas layout flat, Composed {} wrappedTables schemas layout ∧
      Schema.compile {} "Flat" (wrappedTables.flatMap Table.fields) = .ok flat ∧
      ¬Simulates wrappedTables schemas layout flat := by
  obtain ⟨schemas, layout, flat, hcompiled, hlayout, hflat, hparts, hwhole⟩ :
      ∃ schemas layout flat,
        List.Forall₂ (fun table schema =>
          Schema.compile {} table.name table.fields = .ok schema) wrappedTables schemas ∧
        Layout.ofSchemas {} "Both" schemas = .ok layout ∧
        Schema.compile {} "Flat" (wrappedTables.flatMap Table.fields) = .ok flat ∧
        (play (Move.onParts layout) [.edit 0 (.flagField 0)]
          (schemas.map Record.blank)).1.any Record.isDirty = false ∧
        (play (Move.onFlat wrappedTables) [.edit 0 (.flagField 0)]
          (Record.blank flat)).1.isDirty = true :=
    ⟨[_, _], _, _, .cons rfl (.cons rfl .nil), rfl, rfl, rfl, rfl⟩
  refine ⟨schemas, layout, flat, ?_, hflat, fun hsimulates => ?_⟩
  · exact {
      compiled := hcompiled
      endless := by decide
      filled := by decide
      distinct := by decide
      accepted := ⟨"Both", hlayout⟩ }
  · have hrange : ∀ move ∈ [Move.edit 0 (.flagField 0)], move.InRange wrappedTables := by
      intro move hmove
      obtain rfl := List.mem_singleton.1 hmove
      exact ⟨_, rfl, by decide⟩
    obtain ⟨part, hpart, hdirty⟩ := (hsimulates _ hrange).2.1 hwhole
    rw [← Bool.not_eq_true, List.any_eq_true] at hparts
    exact hparts ⟨part, hpart, hdirty⟩

end Composed

end ObjectSync
