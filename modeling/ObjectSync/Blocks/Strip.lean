import ObjectSync.Bytes.Basic
import ObjectSync.Blocks.Span

/-!
# Strips of blocks

A `Strip` is a run of blocks being filled bit by bit. One strip is used for many runs, each of which
starts blank (`reset_eq_blank`). Bits are numbered from the low bit of the first block upwards, so a
value that crosses the end of a block goes on in the low bits of the next, and a 64-bit value takes
two blocks with its low half first.

A write is the union of its pieces, one for each block under it: `wordsUnder` lists the blocks and
`chunk` gives the bits that one of them receives. Writing only ever adds bits, so bits in different
places may be written in any order.
-/

namespace ObjectSync

/-- A run of blocks with a cursor that counts bits from the start of the run. -/
structure Strip where
  words : Array UInt32
  cursor : Nat
deriving DecidableEq, Repr, Inhabited

namespace Strip

/-- A strip of `count` zero blocks with the cursor at its start. -/
def blank (count : Nat) : Strip := { words := Array.replicate count 0, cursor := 0 }

/-- Starts a run of `count` zero blocks in place of the blocks that are there. -/
def reset (s : Strip) (count : Nat) : Strip :=
  let cleared := s.words.take 0
  { words := cleared ++ Array.replicate (count - cleared.size) 0, cursor := 0 }

/-- Of what was there before a new run, nothing is left. -/
theorem reset_eq_blank (s : Strip) (count : Nat) : s.reset count = blank count := by
  simp [reset, blank]

def seek (s : Strip) (bit : Nat) : Strip := { s with cursor := bit }

/-- The blocks that hold one of the `width` bits from `cursor` on, ascending. -/
def wordsUnder (cursor width : Nat) : List Nat :=
  if width = 0 then []
  else
    List.range' (cursor / blockBits) ((cursor + width - 1) / blockBits + 1 - cursor / blockBits)

/-- The `width` low bits of a value. A width past 64 counts modulo 64, as shift amounts do. -/
def lowBits (value : UInt64) (width : Nat) : Nat :=
  if width = 64 then value.toNat else value.toNat % (1 <<< (width % 64))

/-- The bits of block `word` when `value` is laid down on the `width` bits from `cursor` on. -/
def chunk (value cursor width word : Nat) : UInt32 :=
  let first := max cursor (word * blockBits)
  let last := min (cursor + width) (word * blockBits + blockBits)
  let bits := (value >>> (first - cursor)) % (1 <<< (last - first))
  UInt32.ofNat (bits <<< (first - word * blockBits))

/-- Adds the `width` low bits of `value` at the cursor and moves the cursor past them. -/
def write (s : Strip) (value : UInt64) (width : Nat) : Strip where
  words := (wordsUnder s.cursor width).foldl
    (fun words word =>
      words.modify word (· ||| chunk (lowBits value width) s.cursor width word))
    s.words
  cursor := s.cursor + width

/-- Writes several values of one width, one after the other. -/
def writeAll (s : Strip) (values : List UInt64) (width : Nat) : Strip :=
  values.foldl (fun s value => s.write value width) s

/-- The blocks in order, each little-endian. -/
def bytes (s : Strip) : Bytes := s.words.toList.flatMap Bytes.u32

@[simp] theorem cursor_write (s : Strip) (value : UInt64) (width : Nat) :
    (s.write value width).cursor = s.cursor + width := rfl

@[simp] theorem size_words_write (s : Strip) (value : UInt64) (width : Nat) :
    (s.write value width).words.size = s.words.size := by
  have fold (f : Nat → UInt32 → UInt32) (under : List Nat) (words : Array UInt32) :
      (under.foldl (fun words word => words.modify word (f word)) words).size = words.size := by
    induction under generalizing words with
    | nil => rfl
    | cons word rest ih => rw [List.foldl_cons, ih, Array.size_modify]
  exact fold (fun word => (· ||| chunk (lowBits value width) s.cursor width word)) _ _

end Strip

end ObjectSync
