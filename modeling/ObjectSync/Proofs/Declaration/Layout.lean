import ObjectSync.Declaration.Layout
import ObjectSync.Proofs.Declaration.Tiling

/-!
# The parts of a composite tile its blocks

Where a part starts is found in two ways: by the sum of the parts in front of it
(`Layout.offset?`), and by placing one part behind the other as the encoder does
(`Layout.placed`). A third sum, that of all parts, is taken when a layout is built, and says whether
they fit the mask. A layout that keeps this sum (`Layout.Summed`) is found to be tiled: the three
agree, also where parts have no blocks or there is no part at all, and a block below the total is in
one part and no other (`Layout.tiled`).

Every layout that is built keeps the sum (`Layout.Accepted.fits`). **`Layout.tiled_or_tooLarge`**
says which layouts there are: a list of schemas has one if its blocks do not exceed the limit of the
settings, and is refused with the number of its blocks if they do, and a schema that compiled has
one for itself.
-/

namespace ObjectSync

namespace Layout

variable {settings : Settings} {name : String} {schemas : List Schema} {layout : Layout}
  {part start blocks : Nat}

/-! ## Places -/

/-- Where the parts start, one by one. -/
theorem getElem?_placedFrom (start : Nat) (parts : List Nat) (i : Nat) :
    (placedFrom start parts)[i]? =
      parts[i]?.map fun blocks => (start + blocksOf (parts.take i), blocks) := by
  induction parts generalizing start i with
  | nil => rfl
  | cons blocks parts ih =>
    cases i with
    | zero => rfl
    | succ i =>
      rw [placedFrom, List.getElem?_cons_succ, List.getElem?_cons_succ, ih, List.take_succ_cons,
        Nat.add_assoc]
      rfl

theorem length_placedFrom (start : Nat) (parts : List Nat) :
    (placedFrom start parts).length = parts.length := by
  induction parts generalizing start with
  | nil => rfl
  | cons blocks parts ih => rw [placedFrom, List.length_cons, List.length_cons, ih]

theorem abutting_placedFrom (start : Nat) (parts : List Nat) :
    Abutting start (placedFrom start parts) (start + blocksOf parts) := by
  induction parts generalizing start with
  | nil => rfl
  | cons blocks parts ih =>
    refine ⟨rfl, ?_⟩
    have hrest := ih (start + blocks)
    rwa [Nat.add_assoc] at hrest

/-- The total that the layout keeps is the number of blocks of its parts. -/
def Summed (layout : Layout) : Prop := layout.total = blocksOf layout.parts

/-- The parts follow one another from the first block to the last. -/
theorem Summed.abutting_placed (h : layout.Summed) : Abutting 0 layout.placed layout.total := by
  have hplaced := abutting_placedFrom 0 layout.parts
  rwa [Nat.zero_add, ← h] at hplaced

theorem Summed.le_total (h : layout.Summed) {place : Nat × Nat} (hplace : place ∈ layout.placed) :
    place.1 + place.2 ≤ layout.total :=
  h.abutting_placed.le_last place hplace

theorem offset?_of_lt (h : part < layout.parts.length) :
    layout.offset? part = some (blocksOf (layout.parts.take part)) :=
  if_pos h

/-- Placing the parts one behind the other gives each of them the sum of those in front. -/
theorem getElem?_placed_eq_some_iff :
    layout.placed[part]? = some (start, blocks) ↔
      layout.blocks? part = some blocks ∧ layout.offset? part = some start := by
  rw [placed, getElem?_placedFrom, Nat.zero_add, blocks?, Option.map_eq_some_iff]
  constructor
  · rintro ⟨blocks', hblocks, hplace⟩
    cases hplace
    exact ⟨hblocks, offset?_of_lt (List.getElem?_eq_some_iff.1 hblocks).1⟩
  · rintro ⟨hblocks, hoffset⟩
    rw [offset?_of_lt (List.getElem?_eq_some_iff.1 hblocks).1] at hoffset
    exact ⟨blocks, hblocks, by rw [Option.some.inj hoffset]⟩

theorem blocksOf_take_succ (hblocks : layout.blocks? part = some blocks) :
    blocksOf (layout.parts.take (part + 1)) = blocksOf (layout.parts.take part) + blocks := by
  rw [blocks?] at hblocks
  rw [List.take_add_one, hblocks]
  exact List.sum_append

/-- A part ends at the sum of the parts up to it. -/
theorem add_eq_blocksOf (hoffset : layout.offset? part = some start)
    (hblocks : layout.blocks? part = some blocks) :
    start + blocks = blocksOf (layout.parts.take (part + 1)) := by
  rw [offset?_of_lt (List.getElem?_eq_some_iff.1 hblocks).1] at hoffset
  rw [blocksOf_take_succ hblocks, Option.some.inj hoffset]

/-! ## Tiled layouts -/

/-- The block is one of those of the part. -/
def Holds (layout : Layout) (part block : Nat) : Prop :=
  ∃ start blocks, layout.offset? part = some start ∧ layout.blocks? part = some blocks ∧
    start ≤ block ∧ block < start + blocks

theorem holds_iff {block : Nat} :
    layout.Holds part block ↔ ∃ place, layout.placed[part]? = some place ∧
      place.1 ≤ block ∧ block < place.1 + place.2 := by
  constructor
  · rintro ⟨start, blocks, hoffset, hblocks, hblock⟩
    exact ⟨(start, blocks), getElem?_placed_eq_some_iff.2 ⟨hblocks, hoffset⟩, hblock⟩
  · rintro ⟨⟨start, blocks⟩, hplace, hblock⟩
    obtain ⟨hblocks, hoffset⟩ := getElem?_placed_eq_some_iff.1 hplace
    exact ⟨start, blocks, hoffset, hblocks, hblock⟩

/-- All ways to find a part agree, and the parts divide up the blocks. -/
structure Tiled (layout : Layout) : Prop where
  length_placed : layout.placed.length = layout.parts.length
  placed : ∀ part < layout.parts.length, ∃ start blocks,
    layout.placed[part]? = some (start, blocks) ∧
      layout.offset? part = some start ∧ layout.blocks? part = some blocks
  missing : ∀ part, layout.parts.length ≤ part →
    layout.offset? part = none ∧ layout.blocks? part = none
  first : 0 < layout.parts.length → layout.offset? 0 = some 0
  /-- A part starts where the one in front of it ends. -/
  next : ∀ part start blocks, part + 1 < layout.parts.length →
    layout.offset? part = some start → layout.blocks? part = some blocks →
    layout.offset? (part + 1) = some (start + blocks)
  last : ∀ part start blocks, part + 1 = layout.parts.length →
    layout.offset? part = some start → layout.blocks? part = some blocks →
    start + blocks = layout.total
  total_eq : layout.total = layout.parts.sum
  unique : ∀ block < layout.total, ∃! part, layout.Holds part block
  lt_total : ∀ part block, layout.Holds part block → block < layout.total

theorem tiled (h : layout.Summed) : layout.Tiled where
  length_placed := length_placedFrom 0 layout.parts
  placed part hpart := by
    have hblocks : layout.blocks? part = some layout.parts[part] :=
      List.getElem?_eq_getElem hpart
    have hoffset := offset?_of_lt hpart
    exact ⟨_, _, getElem?_placed_eq_some_iff.2 ⟨hblocks, hoffset⟩, hoffset, hblocks⟩
  missing part hpart := ⟨if_neg (Nat.not_lt.2 hpart), List.getElem?_eq_none hpart⟩
  first hpos := offset?_of_lt hpos
  next part start blocks hpart hoffset hblocks := by
    rw [offset?_of_lt hpart, add_eq_blocksOf hoffset hblocks]
  last part start blocks hpart hoffset hblocks := by
    rw [add_eq_blocksOf hoffset hblocks, hpart, List.take_length, h]
  total_eq := h
  unique block hblock := by
    simp only [holds_iff]
    exact h.abutting_placed.existsUnique_range (Nat.zero_le block) hblock
  lt_total part block hholds := by
    obtain ⟨place, hplace, _, hlt⟩ := holds_iff.1 hholds
    exact Nat.lt_of_lt_of_le hlt (h.le_total (List.mem_of_getElem? hplace))

/-! ## Accepted layouts -/

theorem ofSchemas_eq_ok_iff :
    ofSchemas settings name schemas = .ok layout ↔
      (schemas.map Schema.blocks).sum ≤ settings.maxBlocks ∧
        layout = {
          name
          parts := schemas.map Schema.blocks
          total := (schemas.map Schema.blocks).sum } := by
  rw [ofSchemas]
  split
  · next hlarge =>
    constructor
    · rintro ⟨⟩
    · rintro ⟨hsmall, _⟩
      exact absurd hsmall (Nat.not_le.2 hlarge)
  · next hsmall =>
    constructor
    · rintro ⟨⟩
      exact ⟨Nat.le_of_not_lt hsmall, rfl⟩
    · rintro ⟨_, rfl⟩
      rfl

theorem ofSchemas_eq_error_iff {fault : SchemaFault} :
    ofSchemas settings name schemas = .error fault ↔
      settings.maxBlocks < (schemas.map Schema.blocks).sum ∧
        fault = .tooLarge name (schemas.map Schema.blocks).sum settings.maxBlocks := by
  rw [ofSchemas]
  split
  · next hlarge =>
    constructor
    · rintro ⟨⟩
      exact ⟨hlarge, rfl⟩
    · rintro ⟨_, rfl⟩
      rfl
  · next hsmall =>
    constructor
    · rintro ⟨⟩
    · rintro ⟨hlarge, _⟩
      exact absurd hlarge hsmall

/-- The layout was found to fit the mask: as that of several schemas, or because its one schema
compiled. -/
inductive Accepted (settings : Settings) : Layout → Prop where
  | several {name : String} {schemas : List Schema} {layout : Layout}
      (h : ofSchemas settings name schemas = .ok layout) : Accepted settings layout
  | single {name : String} {table : List Field} {schema : Schema}
      (h : Schema.compile settings name table = .ok schema) : Accepted settings (.single schema)

/-- However a layout is built, it keeps the sum of its parts. -/
theorem Accepted.summed (h : layout.Accepted settings) : layout.Summed := by
  cases h with
  | several h =>
    obtain ⟨_, rfl⟩ := ofSchemas_eq_ok_iff.1 h
    rfl
  | single h => rfl

theorem Accepted.total_le (h : layout.Accepted settings) : layout.total ≤ settings.maxBlocks := by
  cases h with
  | several h =>
    obtain ⟨hsmall, rfl⟩ := ofSchemas_eq_ok_iff.1 h
    exact hsmall
  | single h => exact Schema.blocks_le_of_compile h

/-- The total is that of the parts, and the mask has a bit for each block. -/
structure Fits (layout : Layout) : Prop where
  summed : layout.Summed
  total_le : layout.total ≤ maskBlocks

theorem Accepted.fits (h : layout.Accepted settings) : layout.Fits where
  summed := h.summed
  total_le := Nat.le_trans h.total_le settings.maxBlocks_le

/-- Schemas are laid out one behind the other if they fit the mask together, and refused with their
number of blocks if not. A schema that compiled is laid out alone. -/
theorem tiled_or_tooLarge (settings : Settings) :
    (∀ name schemas layout, ofSchemas settings name schemas = .ok layout →
      layout.parts = schemas.map Schema.blocks ∧ layout.Tiled ∧
        layout.total ≤ settings.maxBlocks) ∧
    (∀ name schemas fault, ofSchemas settings name schemas = .error fault ↔
      settings.maxBlocks < (schemas.map Schema.blocks).sum ∧
        fault = .tooLarge name (schemas.map Schema.blocks).sum settings.maxBlocks) ∧
    ∀ name table schema, Schema.compile settings name table = .ok schema →
      (single schema).parts = [schema.blocks] ∧ (single schema).Tiled ∧
        (single schema).total ≤ settings.maxBlocks := by
  refine ⟨?_, ?_, ?_⟩
  · intro name schemas layout hlayout
    obtain ⟨_, hparts⟩ := ofSchemas_eq_ok_iff.1 hlayout
    have haccepted : layout.Accepted settings := .several hlayout
    exact ⟨by rw [hparts], tiled haccepted.summed, haccepted.total_le⟩
  · intro name schemas fault
    exact ofSchemas_eq_error_iff
  · intro name table schema hcompile
    have haccepted : (single schema).Accepted settings := .single hcompile
    exact ⟨rfl, tiled haccepted.summed, haccepted.total_le⟩

/-- Two parts that fill the mask with one between them that has no blocks, and the same with one
block too many. -/
theorem tiled_or_tooLarge_full :
    let settings : Settings := { maxMaskWords := 1 }
    ∃ large none small layout,
      Schema.compile settings "Large" [.array "a" .u32 20] = .ok large ∧
      Schema.compile settings "None" [] = .ok none ∧
      Schema.compile settings "Small" [.array "b" .u32 12] = .ok small ∧
      ofSchemas settings "Full" [large, none, small] = .ok layout ∧
      layout.placed = [(0, 20), (20, 0), (20, 12)] ∧ layout.Tiled ∧
      layout.total ≤ settings.maxBlocks ∧
      ofSchemas settings "Over" [large, small, small] = .error (.tooLarge "Over" 44 32) ∧
      (single large).Tiled ∧ (single large).total ≤ settings.maxBlocks := by
  intro settings
  obtain ⟨large, none, small, layout, hlarge, hnone, hsmall, hlayout, hplaced, hsum⟩ :
      ∃ large none small layout,
        Schema.compile settings "Large" [.array "a" .u32 20] = .ok large ∧
        Schema.compile settings "None" [] = .ok none ∧
        Schema.compile settings "Small" [.array "b" .u32 12] = .ok small ∧
        ofSchemas settings "Full" [large, none, small] = .ok layout ∧
        layout.placed = [(0, 20), (20, 0), (20, 12)] ∧
        ([large, small, small].map Schema.blocks).sum = 44 :=
    ⟨_, _, _, _, rfl, rfl, rfl, rfl, rfl, rfl⟩
  obtain ⟨hseveral, hrefused, hsingle⟩ := tiled_or_tooLarge settings
  obtain ⟨_, htiled, htotal⟩ := hseveral "Full" [large, none, small] layout hlayout
  obtain ⟨_, htiled', htotal'⟩ := hsingle "Large" _ large hlarge
  have hover : ofSchemas settings "Over" [large, small, small] =
      .error (.tooLarge "Over" 44 32) := by
    refine (hrefused "Over" [large, small, small] _).2 ?_
    rw [hsum]
    exact ⟨by decide, rfl⟩
  exact ⟨large, none, small, layout, hlarge, hnone, hsmall, hlayout, hplaced, htiled, htotal, hover,
    htiled', htotal'⟩

end Layout

end ObjectSync
