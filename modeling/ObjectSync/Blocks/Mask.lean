import ObjectSync.Bytes.Basic
import ObjectSync.Blocks.Span

/-!
# Block masks

The set of blocks that a values block carries, as it is sent: a count byte and that many 32-bit
words, in which bit `b` of word `w` stands for block `32 * w + b`.

```text
[word count][word 0]...[word n-1]
```

The words only grow to take a bit, so the last one is never zero, and the empty mask is the single
byte `0x00`. A block from `maskBlocks` on cannot be marked: the operations that may meet one say
whether they took what they were given, and return the mask either way.
-/

namespace ObjectSync

/-- A set of blocks below `maskBlocks`. -/
structure BlockMask where
  words : List UInt32
deriving DecidableEq, Repr, Inhabited

namespace BlockMask

instance : EmptyCollection BlockMask := ⟨⟨[]⟩⟩

/-- The words with `bits` added to word `word`, grown by zero words as far as needed. -/
def addTo : List UInt32 → Nat → UInt32 → List UInt32
  | [], 0, bits => [bits]
  | [], word + 1, bits => 0 :: addTo [] word bits
  | w :: rest, 0, bits => (w ||| bits) :: rest
  | w :: rest, word + 1, bits => w :: addTo rest word bits

/-- Marks one block, wherever it lies. -/
def mark (m : BlockMask) (block : Nat) : BlockMask where
  words := addTo m.words (block / blockBits) (1 <<< UInt32.ofNat (block % blockBits))

/-- Marks one block, if the mask can announce it, and says whether it can. -/
def insert (m : BlockMask) (block : Nat) : Bool × BlockMask :=
  if block < maskBlocks then (true, m.mark block) else (false, m)

/-- Marks every block of a span, wherever it lies. -/
def markSpan (m : BlockMask) (span : Span) : BlockMask := span.blocks.foldl mark m

/-- Marks every block of a span moved up by `offset`, if the mask can announce them all, and says
whether it can. -/
def insertSpan (m : BlockMask) (span : Span) (offset : Size) : Bool × BlockMask :=
  let span := span.shift offset
  if span.stop.toNat ≤ maskBlocks then (true, m.markSpan span) else (false, m)

/-- The bits of either list of words. -/
def union : List UInt32 → List UInt32 → List UInt32
  | [], right => right
  | left, [] => left
  | l :: left, r :: right => (l ||| r) :: union left right

instance : Union BlockMask where
  union a b := { words := union a.words b.words }

instance : Membership Nat BlockMask where
  mem m block := ((m.words[block / blockBits]?).getD 0).toNat.testBit (block % blockBits) = true

instance (m : BlockMask) (block : Nat) : Decidable (block ∈ m) :=
  inferInstanceAs (Decidable (_ = true))

def isEmpty (m : BlockMask) : Bool := m.words.isEmpty

/-- The number of bits set in a word. -/
def popCount (w : UInt32) : Nat := (List.range blockBits).countP w.toNat.testBit

def blockCount (m : BlockMask) : Nat := (m.words.map popCount).foldr (· + ·) 0

/-- The number of bytes that the mask takes. -/
def byteCount (m : BlockMask) : Nat := 1 + m.words.length * 4

/-- The count byte and the words. -/
def bytes (m : BlockMask) : Bytes :=
  UInt8.ofNat (min m.words.length maskWords) :: m.words.flatMap Bytes.u32

@[simp] theorem length_bytes (m : BlockMask) : m.bytes.length = m.byteCount := by
  simp [bytes, byteCount, Bytes.u32, List.length_flatMap, List.map_const', Nat.add_comm]

end BlockMask

end ObjectSync
