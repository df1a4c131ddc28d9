import ObjectSync.Blocks.Mask
import ObjectSync.Declaration.Layout
import ObjectSync.Notice

/-!
# Values blocks

A values block carries some of the blocks of an entity: the mask that says which, then their words
in ascending order. It is put together from the parts of the entity, each encoded on its own as
spans with their data (`EncodedPart`) and moved up behind the parts before it.

Of a part that does not fit, only the spans that do are taken, each with its own data, so that mask
and data stay in step. A span that stops before its start is the exception: it marks no block, and
its data are taken all the same.
-/

namespace ObjectSync

/-- Spans and their data, without a mask. -/
structure EncodedPart where
  spans : List Span := []
  /-- The words of the spans, one span behind the other. -/
  data : Bytes := []
deriving DecidableEq, Repr, Inhabited

namespace EncodedPart

def isEmpty (part : EncodedPart) : Bool := part.spans.isEmpty

/-- The `count` bytes from `cursor` on, or none where they do not all lie within the data. -/
def bytesAt (data : Array UInt8) (cursor count : Size) : Bytes :=
  let stop := cursor + count
  if cursor ≤ stop ∧ stop.toNat ≤ data.size then
    (data.extract cursor.toNat stop.toNat).toList
  else []

/-- Each span with the bytes at its place, when those of the first span start at `cursor`. -/
def divide (data : Array UInt8) (cursor : Size) : List Span → List (Span × Bytes)
  | [] => []
  | span :: rest =>
    (span, bytesAt data cursor span.byteCount) :: divide data (cursor + span.byteCount) rest

/-- The spans of a part with their data. -/
def pieces (part : EncodedPart) : List (Span × Bytes) := divide part.data.toArray 0 part.spans

end EncodedPart

structure ValuesBlock where
  mask : BlockMask := ∅
  data : Bytes := []
  /-- The first block that may not be taken. The mask can announce every block below it. -/
  capacity : Nat
deriving DecidableEq, Repr, Inhabited

namespace ValuesBlock

/-- The empty values block of a layout. -/
def ofLayout (layout : Layout) : ValuesBlock := { capacity := layout.total }

/-- Whether a span moved up by `offset` ends below the capacity and has all its data. -/
def fits (block : ValuesBlock) (offset : Size) (piece : Span × Bytes) : Bool :=
  (piece.1.shift offset).stop.toNat ≤ block.capacity &&
    piece.2.length == piece.1.byteCount.toNat

/-- Takes the spans of a part that fit, moved up by `offset`. -/
def push (block : ValuesBlock) (offset : Size) (part : EncodedPart) : Logged ValuesBlock :=
  let kept := part.pieces.filter (block.fits offset)
  { value := { block with
      mask := kept.foldl (fun mask piece => mask.markSpan (piece.1.shift offset)) block.mask
      data := block.data ++ kept.flatMap (·.2) }
    notices := List.replicate (part.pieces.length - kept.length) .spanDropped }

def isEmpty (block : ValuesBlock) : Bool := block.mask.isEmpty

/-- The mask, then the data. -/
def bytes (block : ValuesBlock) : Bytes := block.mask.bytes ++ block.data

end ValuesBlock

end ObjectSync
