import ObjectSync.Blocks.Span
import ObjectSync.Declaration.Fault
import ObjectSync.Declaration.Field
import ObjectSync.Settings.Basic

/-!
# Schemas

A schema is a compiled table of fields. The fields are placed one behind the other, and whenever the
fields placed since the last cut fill a block or more, they are cut off as a *section*, the unit in
which changes are tracked and sent. A cut has to fall on the end of a block. Fields that are nothing
but padding make no section: their blocks are only skipped. Widths and places are sizes, so only the
room that a table takes modulo 2⁶⁴ bits counts.

```text
guid:u64 | type:u32 | entry:u32 | scale:f32 | _:u32
[ 0  1 ] |   [2]    |   [3]     |   [4]     | (5)      (5) is padding
```

`Scan` is the state between two fields, `Scan.place` takes one field, and `Schema.compile` folds it
over the table.
-/

namespace ObjectSync

/-- Where a field of a compiled schema lies. -/
structure Placement where
  field : Field
  /-- The first bit of the field, from the start of the schema. -/
  offset : Size
  /-- The first value slot of the field, one for each element. Padding has none of its own. -/
  slot : Size
  /-- The section that holds the field, counted from zero. Padding has none. -/
  home : Option Nat
deriving DecidableEq, Repr, Inhabited

/-- Fields that together fill whole blocks. -/
structure Section where
  span : Span
  /-- The fields by their place in the table, padding left out. -/
  fields : List Nat
deriving DecidableEq, Repr, Inhabited

/-- A compiled table of fields. -/
structure Schema where
  name : String
  placements : List Placement
  /-- The sections, in ascending block order. -/
  sections : List Section
  /-- The blocks of nothing but padding, in ascending order. -/
  padding : List Span
  /-- The blocks that the schema takes, padding included. -/
  blocks : Nat
  /-- The value slots that a record of the schema holds. -/
  slotCount : Nat
  onMiss : MissReport
deriving DecidableEq, Repr, Inhabited

/-! ## Compiling -/

/-- What is known between two fields of a table. -/
structure Scan where
  placements : List Placement := []
  sections : List Section := []
  padding : List Span := []
  /-- The fields since the last cut by their place in the table, padding left out. -/
  uncut : List Nat := []
  /-- The number of bits since the last cut. -/
  run : Size := 0
  /-- The first block behind the last cut. -/
  block : Size := 0
  /-- The first bit behind the fields so far. -/
  offset : Size := 0
  /-- The first slot behind those of the fields so far. -/
  slot : Size := 0
deriving DecidableEq, Repr, Inhabited

namespace Scan

/-- Whether a field so far has this name. Padding has no name to repeat. -/
def declares (scan : Scan) (name : String) : Bool :=
  scan.placements.any fun placement => !placement.field.isPadding && placement.field.name == name

/-- Puts a field behind the fields so far. -/
def put (scan : Scan) (field : Field) : Scan :=
  if field.isPadding then
    { scan with
      placements := scan.placements ++
        [{ field, offset := scan.offset, slot := scan.slot, home := none }]
      run := scan.run + field.bits
      offset := scan.offset + field.bits }
  else
    { scan with
      placements := scan.placements ++
        [{ field, offset := scan.offset, slot := scan.slot, home := some scan.sections.length }]
      uncut := scan.uncut ++ [scan.placements.length]
      run := scan.run + field.bits
      offset := scan.offset + field.bits
      slot := scan.slot + field.length }

/-- Cuts behind the fields so far. The count of bits starts again. -/
def cut (schema : String) (scan : Scan) : Except SchemaFault Scan :=
  let spill := scan.run % .ofNat blockBits
  let span : Span := { start := scan.block, count := scan.run / .ofNat blockBits }
  if spill ≠ 0 then
    .error (.misaligned schema scan.block.toNat spill.toNat)
  else if scan.uncut.isEmpty then
    .ok { scan with run := 0, block := span.stop, padding := scan.padding ++ [span] }
  else
    .ok { scan with
      run := 0
      block := span.stop
      sections := scan.sections ++ [{ span, fields := scan.uncut }]
      uncut := [] }

/-- Puts a field behind the fields so far, and cuts behind it once they fill a block. A repeated
name is a fault before a cut in the wrong place is. -/
def place (schema : String) (scan : Scan) (field : Field) : Except SchemaFault Scan :=
  if !field.isPadding && scan.declares field.name then
    .error (.duplicateField schema field.name)
  else
    let scan := scan.put field
    if scan.run.toNat < blockBits then .ok scan else scan.cut schema

/-- Cuts behind the last field, unless a cut is there already. -/
def finish (schema : String) (scan : Scan) : Except SchemaFault Scan :=
  if scan.run = 0 then .ok scan else scan.cut schema

end Scan

namespace Schema

/-- The part of a table that is read. -/
def declared (table : List Field) : List Field := table.takeWhile (! ·.isStop)

/-- Compiles a table of fields under the given settings. -/
def compile (settings : Settings) (name : String) (table : List Field) :
    Except SchemaFault Schema := do
  let scan ← (declared table).foldlM (Scan.place name) {}
  let scan ← scan.finish name
  if settings.maxBlocks < scan.block.toNat then
    throw (.tooLarge name scan.block.toNat settings.maxBlocks)
  return {
    name
    placements := scan.placements
    sections := scan.sections
    padding := scan.padding
    blocks := scan.block.toNat
    slotCount := scan.slot.toNat
    onMiss := settings.onMiss }

/-! ## Looking up -/

/-- The placement of a field, by its place in the table. -/
def placement? (schema : Schema) (field : Nat) : Option Placement := schema.placements[field]?

/-- The section that holds a field, by the field's place in the table. -/
def sectionOf? (schema : Schema) (field : Nat) : Option Nat :=
  schema.placement? field >>= Placement.home

/-- The place in the table of the field with the given name. -/
def fieldNamed? (schema : Schema) (name : String) : Option Nat :=
  schema.placements.findIdx? fun placement =>
    !placement.field.isPadding && placement.field.name == name

/-- The section that holds the field with the given name. -/
def sectionNamed? (schema : Schema) (name : String) : Option Nat :=
  schema.fieldNamed? name >>= schema.sectionOf?

end Schema

end ObjectSync
