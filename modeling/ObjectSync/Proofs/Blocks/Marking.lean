import Mathlib.Data.Finset.Card
import Mathlib.Order.Interval.Finset.Nat
import ObjectSync.Declaration.Schema
import ObjectSync.Proofs.Blocks.Mask

/-!
# Block masks as sets

A `Marking` says how a mask is built: blocks, spans and sections are put in one after the other, and
masks that were built so are united. What cannot be announced is refused, and changes nothing. The
mask stands for the set of the blocks that were not refused (`Marking.mem_mask`), and since its last
word is never zero (`Marking.trimmed_mask`), it is determined by this set, whichever way it was
built (**`Marking.canonical`**).
-/

namespace ObjectSync

namespace Span

/-- The first block behind the span when it is moved up by `offset`, if that is a size. -/
def stopAt (s : Span) (offset : Size) : Nat := s.start.toNat + offset.toNat + s.count.toNat

variable {s : Span} {offset : Size}

theorem toNat_start_shift_of_lt (h : s.stopAt offset < 2 ^ 64) :
    (s.shift offset).start.toNat = s.start.toNat + offset.toNat := by
  rw [stopAt] at h
  rw [shift, UInt64.toNat_add, Nat.mod_eq_of_lt (by omega)]

theorem toNat_stop_shift_of_lt (h : s.stopAt offset < 2 ^ 64) :
    (s.shift offset).stop.toNat = s.stopAt offset := by
  rw [stop, UInt64.toNat_add, toNat_start_shift_of_lt h]
  exact Nat.mod_eq_of_lt h

theorem mem_blocks_shift (h : s.stopAt offset < 2 ^ 64) {k : Nat} :
    k ∈ (s.shift offset).blocks ↔
      k ∈ Finset.Ico (s.start.toNat + offset.toNat) (s.stopAt offset) := by
  rw [mem_blocks, Finset.mem_Ico, ← toNat_start_shift_of_lt h, ← toNat_stop_shift_of_lt h]
  exact Iff.rfl

end Span

namespace BlockMask

/-! ## Unions -/

theorem getD_union (left right : List UInt32) (n : Nat) :
    (union left right)[n]?.getD 0 = left[n]?.getD 0 ||| right[n]?.getD 0 := by
  fun_induction union left right generalizing n with
  | case1 right => rw [List.getElem?_nil, Option.getD_none, UInt32.zero_or]
  | case2 left => rw [List.getElem?_nil, Option.getD_none, UInt32.or_zero]
  | case3 l left r right ih =>
    cases n with
    | zero => rfl
    | succ n => exact ih n

theorem mem_union {a b : BlockMask} {k : Nat} : k ∈ a ∪ b ↔ k ∈ a ∨ k ∈ b := by
  rw [mem_iff, mem_iff, mem_iff, bitAt, bitAt, bitAt, show (a ∪ b).words = union a.words b.words
    from rfl, getD_union, UInt32.toNat_or, Nat.testBit_or, Bool.or_eq_true]

theorem union_eq_nil {left right : List UInt32} (h : union left right = []) :
    left = [] ∧ right = [] := by
  cases left with
  | nil => exact ⟨rfl, h⟩
  | cons l left =>
    cases right with
    | nil => exact ⟨h, rfl⟩
    | cons r right => cases h

theorem getLast?_union {left right : List UInt32} (hleft : left.getLast? ≠ some 0)
    (hright : right.getLast? ≠ some 0) : (union left right).getLast? ≠ some 0 := by
  fun_induction union left right with
  | case1 right => exact hright
  | case2 left => exact hleft
  | case3 l left r right ih =>
    refine getLast?_cons_ne (ih (getLast?_ne_of_cons hleft) (getLast?_ne_of_cons hright)) ?_
    -- the last words of both sides meet here, and neither of them is zero
    intro hnil hzero
    obtain ⟨rfl, rfl⟩ := union_eq_nil hnil
    exact hleft (congrArg some (UInt32.or_eq_zero_iff.1 hzero).1)

theorem Trimmed.union {a b : BlockMask} (ha : a.Trimmed) (hb : b.Trimmed) : (a ∪ b).Trimmed :=
  getLast?_union ha hb

/-! ## What a trimmed mask is determined by -/

theorem exists_testBit {w : UInt32} (h : w ≠ 0) : ∃ i < blockBits, w.toNat.testBit i = true := by
  obtain ⟨i, hi⟩ := Nat.exists_testBit_of_ne_zero (mt (UInt32.toNat.inj (b := 0)) h)
  refine ⟨i, ?_, hi⟩
  have hle : 2 ^ i ≤ w.toNat := Nat.ge_two_pow_of_testBit hi
  exact (Nat.pow_lt_pow_iff_right (by decide)).1 (Nat.lt_of_le_of_lt hle w.toNat_lt)

variable {m m' : BlockMask}

/-- The last word has a block. -/
theorem Trimmed.exists_mem (h : m.Trimmed) (hwords : m.words ≠ []) :
    ∃ k ∈ m, m.words.length ≤ k / blockBits + 1 := by
  have hlast : m.words.getLast hwords ≠ 0 := by
    rw [Trimmed, List.getLast?_eq_some_getLast hwords] at h
    exact mt (congrArg some) h
  obtain ⟨i, hi, hbit⟩ := exists_testBit hlast
  refine ⟨(m.words.length - 1) * blockBits + i, ?_, ?_⟩
  · rw [mem_iff, bitAt_mul_add _ _ hi, ← List.getLast?_eq_getElem?,
      List.getLast?_eq_some_getLast hwords]
    exact hbit
  · simp only [blockBits]
    omega

theorem Trimmed.length_le (h : m.Trimmed) {words : Nat} (hlt : ∀ k ∈ m, k < words * blockBits) :
    m.words.length ≤ words := by
  by_cases hwords : m.words = []
  · rw [hwords]
    exact Nat.zero_le words
  · obtain ⟨k, hk, hlength⟩ := h.exists_mem hwords
    have hdiv : k / blockBits < words := Nat.div_lt_of_lt_mul (Nat.mul_comm _ _ ▸ hlt k hk)
    omega

theorem Trimmed.isEmpty_iff (h : m.Trimmed) : m.isEmpty = true ↔ ∀ k, k ∉ m := by
  rw [isEmpty, List.isEmpty_iff]
  constructor
  · intro hwords k hk
    have hlt := lt_of_mem hk
    rw [hwords, List.length_nil, Nat.zero_mul] at hlt
    exact Nat.not_lt_zero k hlt
  · intro hnone
    by_contra hwords
    obtain ⟨k, hk, -⟩ := h.exists_mem hwords
    exact hnone k hk

/-- No two of them have the same blocks. -/
theorem Trimmed.eq_iff (h : m.Trimmed) (h' : m'.Trimmed) : m = m' ↔ ∀ k, k ∈ m ↔ k ∈ m' := by
  refine ⟨fun heq k => heq ▸ Iff.rfl, fun hmem => ?_⟩
  have hlength : m.words.length = m'.words.length :=
    Nat.le_antisymm (h.length_le fun k hk => lt_of_mem ((hmem k).1 hk))
      (h'.length_le fun k hk => lt_of_mem ((hmem k).2 hk))
  have hwords : m.words = m'.words :=
    eq_of_bitAt hlength fun k => Bool.eq_iff_iff.2 (hmem k)
  cases m
  cases m'
  exact congrArg mk hwords

/-- Masks are told apart by their bytes. -/
theorem bytes_inj (hm : m.words.length ≤ maskWords) (hm' : m'.words.length ≤ maskWords) :
    m.bytes = m'.bytes ↔ m = m' := by
  refine ⟨fun hbytes => ?_, congrArg bytes⟩
  have hread := Reads.mask hm []
  rw [hbytes, Reads.mask hm' []] at hread
  cases hread
  rfl

theorem blockCount_eq_card {blocks : Finset Nat} (h : ∀ k, k ∈ m ↔ k ∈ blocks) :
    m.blockCount = blocks.card := by
  have hnodup : m.blocks.Nodup := (pairwise_blocks m).imp Nat.ne_of_lt
  have heq : m.blocks.toFinset = blocks :=
    Finset.ext fun k => by rw [List.mem_toFinset, mem_blocks, h]
  rw [← length_blocks, ← List.toFinset_card_of_nodup hnodup, heq]

/-! ## Refusals -/

variable {span : Span} {offset : Size}

theorem insert_fst_iff {k : Nat} : (m.insert k).1 = true ↔ k < maskBlocks := by
  rw [insert]
  split
  · next hk => exact iff_of_true rfl hk
  · next hk => exact iff_of_false Bool.false_ne_true hk

theorem insertSpan_fst_iff (h : span.stopAt offset < 2 ^ 64) :
    (m.insertSpan span offset).1 = true ↔ span.stopAt offset ≤ maskBlocks := by
  rw [insertSpan, Span.toNat_stop_shift_of_lt h]
  split
  · next hstop => exact iff_of_true rfl hstop
  · next hstop => exact iff_of_false Bool.false_ne_true hstop

/-- What is refused leaves the mask as it was. -/
theorem insert_snd_of_refused {k : Nat} (h : (m.insert k).1 = false) : (m.insert k).2 = m := by
  rw [insert] at h ⊢
  split
  · next hk =>
    rw [if_pos hk] at h
    cases h
  · rfl

theorem insertSpan_snd_of_refused (h : (m.insertSpan span offset).1 = false) :
    (m.insertSpan span offset).2 = m := by
  rw [insertSpan] at h ⊢
  split
  · next hstop =>
    rw [if_pos hstop] at h
    cases h
  · rfl

end BlockMask

/-! ## Markings -/

/-- How a mask is built. -/
inductive Marking where
  | new
  | insert (first : Marking) (block : Nat)
  | insertSpan (first : Marking) (span : Span) (offset : Size)
  | insertSection (first : Marking) (part : Section) (offset : Size)
  | union (first second : Marking)

namespace Marking

/-- The mask that is built. -/
def mask : Marking → BlockMask
  | new => ∅
  | insert first block => (first.mask.insert block).2
  | insertSpan first span offset => (first.mask.insertSpan span offset).2
  | insertSection first part offset => (first.mask.insertSpan part.span offset).2
  | union first second => first.mask ∪ second.mask

/-- The blocks of a span that is moved up by `offset`, if all of them can be announced. -/
def announced (span : Span) (offset : Size) : Finset Nat :=
  if span.stopAt offset ≤ maskBlocks then
    Finset.Ico (span.start.toNat + offset.toNat) (span.stopAt offset)
  else ∅

/-- The blocks that were put in and not refused. -/
def accepted : Marking → Finset Nat
  | new => ∅
  | insert first block =>
    if block < maskBlocks then Insert.insert block first.accepted else first.accepted
  | insertSpan first span offset => first.accepted ∪ announced span offset
  | insertSection first part offset => first.accepted ∪ announced part.span offset
  | union first second => first.accepted ∪ second.accepted

/-- Every span that is put in stops at a size. -/
def Bounded : Marking → Prop
  | new => True
  | insert first _ => first.Bounded
  | insertSpan first span offset => first.Bounded ∧ span.stopAt offset < 2 ^ 64
  | insertSection first part offset => first.Bounded ∧ part.span.stopAt offset < 2 ^ 64
  | union first second => first.Bounded ∧ second.Bounded

theorem lt_of_mem_announced {span : Span} {offset : Size} {k : Nat}
    (hk : k ∈ announced span offset) : k < maskBlocks := by
  rw [announced] at hk
  split at hk
  · next hstop => exact Nat.lt_of_lt_of_le (Finset.mem_Ico.1 hk).2 hstop
  · exact absurd hk (Finset.notMem_empty k)

theorem lt_of_mem_accepted {a : Marking} {k : Nat} (hk : k ∈ a.accepted) : k < maskBlocks := by
  induction a with
  | new => exact absurd hk (Finset.notMem_empty k)
  | insert first block ih =>
    rw [accepted] at hk
    split at hk
    · next hblock =>
      rcases Finset.mem_insert.1 hk with rfl | hk
      · exact hblock
      · exact ih hk
    · exact ih hk
  | insertSpan first span offset ih => exact (Finset.mem_union.1 hk).elim ih lt_of_mem_announced
  | insertSection first part offset ih => exact (Finset.mem_union.1 hk).elim ih lt_of_mem_announced
  | union first second ih ih' => exact (Finset.mem_union.1 hk).elim ih ih'

/-! ### One operation -/

variable {m : BlockMask} {span : Span} {offset : Size}

theorem trimmed_insertSpan (h : m.Trimmed) : (m.insertSpan span offset).2.Trimmed := by
  rw [BlockMask.insertSpan]
  split
  · exact h.foldl_mark _
  · exact h

theorem mem_insertSpan (h : span.stopAt offset < 2 ^ 64) {k : Nat} :
    k ∈ (m.insertSpan span offset).2 ↔ k ∈ m ∨ k ∈ announced span offset := by
  rw [BlockMask.insertSpan, announced, Span.toNat_stop_shift_of_lt h]
  split
  · rw [BlockMask.markSpan, BlockMask.mem_foldl_mark, Span.mem_blocks_shift h]
    exact or_comm
  · exact (or_iff_left (Finset.notMem_empty k)).symm

/-! ### All of them -/

theorem trimmed_mask (a : Marking) : a.mask.Trimmed := by
  induction a with
  | new => exact nofun
  | insert first block ih =>
    rw [mask, BlockMask.insert]
    split
    · exact ih.mark block
    · exact ih
  | insertSpan first span offset ih => exact trimmed_insertSpan ih
  | insertSection first part offset ih => exact trimmed_insertSpan ih
  | union first second ih ih' => exact ih.union ih'

/-- The mask announces the blocks that were not refused. -/
theorem mem_mask {a : Marking} (h : a.Bounded) {k : Nat} : k ∈ a.mask ↔ k ∈ a.accepted := by
  induction a with
  | new => exact iff_of_false BlockMask.not_mem_empty (Finset.notMem_empty k)
  | insert first block ih =>
    rw [mask, accepted, BlockMask.insert]
    split
    · rw [BlockMask.mem_mark, Finset.mem_insert, ih h]
    · exact ih h
  | insertSpan first span offset ih =>
    rw [mask, accepted, mem_insertSpan h.2, Finset.mem_union, ih h.1]
  | insertSection first part offset ih =>
    rw [mask, accepted, mem_insertSpan h.2, Finset.mem_union, ih h.1]
  | union first second ih ih' =>
    rw [mask, accepted, BlockMask.mem_union, Finset.mem_union, ih h.1, ih' h.2]

theorem length_mask_le {a : Marking} (h : a.Bounded) : a.mask.words.length ≤ maskWords :=
  a.trimmed_mask.length_le fun _ hk => lt_of_mem_accepted ((mem_mask h).1 hk)

theorem mask_eq_iff {a b : Marking} (ha : a.Bounded) (hb : b.Bounded) :
    a.mask = b.mask ↔ a.accepted = b.accepted := by
  rw [a.trimmed_mask.eq_iff b.trimmed_mask, Finset.ext_iff]
  exact forall_congr' fun k => iff_congr (mem_mask ha) (mem_mask hb)

/-- The mask is that of the set of its blocks, and of no other set. -/
structure Canonical (a : Marking) : Prop where
  /-- The count byte can measure the mask, and the last word, if there is one, is not zero. -/
  length_le : a.mask.words.length ≤ maskWords
  getLast?_ne : a.mask.words.getLast? ≠ some 0
  mem_iff : ∀ k, k ∈ a.mask ↔ k ∈ a.accepted
  /-- A block is refused where the mask cannot announce it, and the mask stays as it is. -/
  insert_iff : ∀ k, (a.mask.insert k).1 = true ↔ k < maskBlocks
  insert_refused : ∀ k, maskBlocks ≤ k → (a.insert k).mask = a.mask
  /-- A span is refused as a whole. -/
  insertSpan_iff : ∀ span offset, span.stopAt offset < 2 ^ 64 →
    ((a.mask.insertSpan span offset).1 = true ↔ span.stopAt offset ≤ maskBlocks)
  insertSpan_refused : ∀ span offset, span.stopAt offset < 2 ^ 64 →
    maskBlocks < span.stopAt offset → (a.insertSpan span offset).mask = a.mask
  blockCount_eq : a.mask.blockCount = a.accepted.card
  isEmpty_iff : a.mask.isEmpty = true ↔ a.accepted = ∅
  /-- In which order the blocks were put in leaves no trace. -/
  eq_iff : ∀ b : Marking, b.Bounded → (a.mask = b.mask ↔ a.accepted = b.accepted)
  bytes_eq_iff : ∀ b : Marking, b.Bounded → (a.mask.bytes = b.mask.bytes ↔ a.accepted = b.accepted)
  reads : Reads BlockMask.reader a.mask.bytes a.mask

/-- However a mask is built, it is the one mask of the blocks that were not refused. -/
theorem canonical {a : Marking} (h : a.Bounded) : a.Canonical where
  length_le := length_mask_le h
  getLast?_ne := a.trimmed_mask
  mem_iff _ := mem_mask h
  insert_iff _ := BlockMask.insert_fst_iff
  insert_refused k hk := by
    have hrefused := mt (BlockMask.insert_fst_iff (m := a.mask)).1 (Nat.not_lt.2 hk)
    exact BlockMask.insert_snd_of_refused (Bool.eq_false_iff.2 hrefused)
  insertSpan_iff _ _ := BlockMask.insertSpan_fst_iff
  insertSpan_refused span offset hstop hlt := by
    have hrefused := mt (BlockMask.insertSpan_fst_iff (m := a.mask) hstop).1 (Nat.not_le.2 hlt)
    exact BlockMask.insertSpan_snd_of_refused (Bool.eq_false_iff.2 hrefused)
  blockCount_eq := BlockMask.blockCount_eq_card fun _ => mem_mask h
  isEmpty_iff := by
    rw [a.trimmed_mask.isEmpty_iff, Finset.eq_empty_iff_forall_notMem]
    exact forall_congr' fun k => not_congr (mem_mask h)
  eq_iff _ := mask_eq_iff h
  bytes_eq_iff b hb := by
    rw [BlockMask.bytes_inj (length_mask_le h) (length_mask_le hb), mask_eq_iff h hb]
  reads := Reads.mask (length_mask_le h)

/-- The last block that can be announced, and the first that cannot, with a span that is united. -/
theorem canonical_boundary :
    (union ((new.insert 8159).insert 8160) (new.insertSpan ⟨1, 2⟩ 3)).Canonical ∧
      (union ((new.insert 8159).insert 8160) (new.insertSpan ⟨1, 2⟩ 3)).accepted =
        {4, 5, 8159} :=
  ⟨canonical ⟨trivial, trivial, by decide⟩, by decide⟩

end Marking

end ObjectSync
