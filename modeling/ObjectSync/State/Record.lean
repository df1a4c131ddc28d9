import ObjectSync.Blocks.Strip
import ObjectSync.State.DirtySet
import ObjectSync.State.Value
import ObjectSync.State.ValuesBlock

/-!
# Records

A record is the state of one part of an entity under one schema: a slot of 64 bits for each element
of each field, and the set of sections that changed. Writing an element flags its section; sending
the record, whole or in part, takes all flags away and changes no slot.

The operations that a schema leaves no room for do nothing: a write to padding, past the end of an
array or past the table is ignored, and a read there gives zero bits.
-/

namespace ObjectSync

/-- The state of one part of an entity. -/
structure Record where
  schema : Schema
  slots : Array UInt64
  dirty : DirtySet
deriving DecidableEq, Repr, Inhabited

namespace Record

/-- The record of a schema with every bit zero and no section changed. -/
def blank (schema : Schema) : Record where
  schema
  slots := Array.replicate schema.slotCount 0
  dirty := .blank schema.sections.length

/-! ## Reading and writing -/

def slot? (record : Record) (field index : Nat) : Option Nat :=
  match record.schema.placement? field with
  | some placement =>
    if placement.field.isPadding || placement.field.length.toNat ≤ index then none
    else some (placement.slot + .ofNat index).toNat
  | none => none

/-- Writes an element and flags the section of its field. -/
def setAt (record : Record) (field index : Nat) (value : Value) : Record :=
  match record.slot? field index with
  | some slot =>
    { record with
      slots := record.slots.setIfInBounds slot value.bits
      dirty := record.dirty.flagField record.schema field }
  | none => record

def set (record : Record) (field : Nat) (value : Value) : Record := record.setAt field 0 value

/-- The bits of an element. -/
def bitsAt (record : Record) (field index : Nat) : UInt64 :=
  match record.slot? field index with
  | some slot => record.slots[slot]?.getD 0
  | none => 0

/-- Reads an element as a value of the given type. -/
def getAt (record : Record) (type : ValueType) (field index : Nat) : Value :=
  type.read (record.bitsAt field index)

def get (record : Record) (type : ValueType) (field : Nat) : Value := record.getAt type field 0

/-! ## Changed sections -/

def flagField (record : Record) (field : Nat) : Record :=
  { record with dirty := record.dirty.flagField record.schema field }

/-- Flags the section of the named field, and says whether there is one. -/
def flagName (record : Record) (name : String) : Logged (Bool × Record) := do
  let (known, dirty) ← record.dirty.flagName record.schema name
  return (known, { record with dirty })

/-- Whether a section changed. -/
def isDirty (record : Record) : Bool := !record.dirty.isEmpty

def clearDirty (record : Record) : Record := { record with dirty := record.dirty.clear }

/-! ## Encoding -/

def elements (record : Record) (placement : Placement) : List UInt64 :=
  (record.slots.extract placement.slot.toNat
    (placement.slot + placement.field.length).toNat).toList

/-- Lays one field down on the strip of the section that starts at block `start`. -/
def layField (record : Record) (start : Size) (strip : Strip) (field : Nat) : Strip :=
  match record.schema.placement? field with
  | some placement =>
    (strip.seek (placement.offset - start * .ofNat blockBits).toNat).writeAll
      (record.elements placement) placement.field.kind.bits
  | none => strip

/-- Lays the fields of a section down in a new run of the strip. Padding between them stays zero. -/
def laySection (record : Record) (strip : Strip) (part : Section) : Strip :=
  part.fields.foldl (record.layField part.span.start) (strip.reset part.span.count.toNat)

/-- Takes a section with its words behind those taken before, by way of the strip used for these. -/
def takeSection (record : Record) (taken : Strip × EncodedPart) (part : Section) :
    Strip × EncodedPart :=
  let strip := record.laySection taken.1 part
  (strip, { spans := taken.2.spans ++ [part.span], data := taken.2.data ++ strip.bytes })

/-- The sections to send: the changed ones, or all. -/
def chosen (record : Record) (onlyDirty : Bool) : List Section :=
  if onlyDirty then record.dirty.sections record.schema else record.schema.sections

/-- The chosen sections with their words. -/
def encode (record : Record) (onlyDirty : Bool) : EncodedPart :=
  ((record.chosen onlyDirty).foldl record.takeSection (.blank 0, {})).2

/-- The chosen sections with their words, and the record after they were sent. -/
def takePart (record : Record) (onlyDirty : Bool) : EncodedPart × Record :=
  (record.encode onlyDirty, record.clearDirty)

/-- The record alone as a values block, and the record after it was sent. -/
def marshal (record : Record) (onlyDirty : Bool) : Logged (Bytes × Record) := do
  let (part, record) := record.takePart onlyDirty
  let block ← ValuesBlock.push { capacity := record.schema.blocks } 0 part
  return (block.bytes, record)

end Record

/-! ## Composites -/

namespace ValuesBlock

/-- Takes records as the parts at the given places, and gives the records after they were sent.
A record of another size than its part is passed over, and so are records that have no part. -/
def takeRecords (onlyDirty : Bool) :
    List (Nat × Nat) → List Record → ValuesBlock → Logged (ValuesBlock × List Record)
  | (offset, blocks) :: parts, record :: records, block =>
    if record.schema.blocks = blocks then do
      let (part, sent) := record.takePart onlyDirty
      let block ← block.push (.ofNat offset) part
      let (block, rest) ← takeRecords onlyDirty parts records block
      return (block, sent :: rest)
    else do
      Logged.note .recordMismatch
      let (block, rest) ← takeRecords onlyDirty parts records block
      return (block, record :: rest)
  | _, records, block => pure (block, records)

end ValuesBlock

/-- The records as one values block under a layout, and the records after they were sent. -/
def Layout.marshal (layout : Layout) (records : List Record) (onlyDirty : Bool) :
    Logged (Bytes × List Record) := do
  let (block, records) ←
    ValuesBlock.takeRecords onlyDirty layout.placed records (.ofLayout layout)
  return (block.bytes, records)

end ObjectSync
