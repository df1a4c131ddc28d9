import ObjectSync.Blocks.Size

/-!
# Blocks and spans

The state of an entity is cut into 32-bit blocks, numbered from zero. A values block announces with
one mask bit per block which of them follow, and since the number of mask words is a single byte,
no block from `maskBlocks` on can be announced.

A span is told by its first block and its number of blocks, both of them sizes. One that would go on
behind the largest size stops at a block before its start, and has no blocks at all.
-/

namespace ObjectSync

/-- Bits in a block. -/
def blockBits : Nat := 32

/-- Bytes in a block. -/
def blockBytes : Nat := 4

/-- The most mask words that the one-byte count can announce. -/
def maskWords : Nat := 255

/-- The first block that no mask can announce. -/
def maskBlocks : Nat := maskWords * blockBits

/-- A run of consecutive blocks. -/
structure Span where
  start : Size
  count : Size
deriving DecidableEq, Repr, Inhabited

namespace Span

/-- The first block past the run. -/
def stop (s : Span) : Size := s.start + s.count

/-- The same run moved up by `offset` blocks. -/
def shift (s : Span) (offset : Size) : Span := { s with start := s.start + offset }

/-- The blocks of the run, ascending. A run that stops before its start has none. -/
def blocks (s : Span) : List Nat :=
  List.range' s.start.toNat (s.stop.toNat - s.start.toNat)

/-- The number of bytes that the run takes. -/
def byteCount (s : Span) : Size := s.count * .ofNat blockBytes

instance : Membership Nat Span where
  mem s block := s.start.toNat ≤ block ∧ block < s.stop.toNat

instance (s : Span) (block : Nat) : Decidable (block ∈ s) :=
  inferInstanceAs (Decidable (s.start.toNat ≤ block ∧ block < s.stop.toNat))

@[simp] theorem stop_shift (s : Span) (offset : Size) :
    (s.shift offset).stop = s.stop + offset := by
  simp only [stop, shift, UInt64.add_assoc, UInt64.add_comm offset]

theorem mem_blocks {s : Span} {block : Nat} : block ∈ s.blocks ↔ block ∈ s := by
  have bounds : block ∈ s ↔ s.start.toNat ≤ block ∧ block < s.stop.toNat := Iff.rfl
  rw [bounds, blocks, List.mem_range'_1]
  omega

end Span

end ObjectSync
