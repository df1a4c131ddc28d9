import Mathlib.Algebra.Order.BigOperators.Group.List
import Mathlib.Algebra.Order.Group.Nat
import ObjectSync.Proofs.Blocks.Marking
import ObjectSync.Proofs.Lists
import ObjectSync.Proofs.State.Parts

/-!
# Parts of any shape

A part that is pushed may be malformed: its spans may overlap, lie outside the layout or have too
few data. The words of a values block are found by counting the bits of its mask, so a bit without
its word, or a word without its bit, would move every word behind it. `EncodedPart.Accepts` says
which spans of a part are taken, each read off the part alone: the data of a span lie behind those
of all spans in front of it, whether these were taken or not.

**`ValuesBlock.inStep_pushed`** says what any pushes leave behind. One of them adds the blocks and
the data of the spans that it accepts, and nothing else. No block is marked that the layout does not
have. And where the accepted spans come in ascending order, the word of each block is found at the
place that the mask tells.
-/

namespace ObjectSync

/-! ## Parts -/

/-- The number of bytes that spans take. -/
def Span.bytesOf (spans : List Span) : Nat :=
  blockBytes * (spans.map fun span => span.count.toNat).sum

@[simp] theorem Span.bytesOf_nil : Span.bytesOf [] = 0 := rfl

@[simp] theorem Span.bytesOf_cons (span : Span) (spans : List Span) :
    Span.bytesOf (span :: spans) = blockBytes * span.count.toNat + Span.bytesOf spans := by
  simp [Span.bytesOf, Nat.mul_add]

theorem Span.le_bytesOf {span : Span} {spans : List Span} (h : span ∈ spans) :
    blockBytes * span.count.toNat ≤ Span.bytesOf spans :=
  Nat.mul_le_mul_left _ (List.le_sum_of_mem (List.mem_map_of_mem h))

namespace EncodedPart

/-- The place of the data of span `j`, behind those of all spans in front of it. -/
def cursor (part : EncodedPart) (j : Nat) : Nat := Span.bytesOf (part.spans.take j)

/-- The data of a span, which is told with its place among the spans. -/
def own (part : EncodedPart) (item : Span × Nat) : Bytes :=
  (part.data.drop (part.cursor item.2)).take (blockBytes * item.1.count.toNat)

/-- The word of one block of span `j`. -/
def word (part : EncodedPart) (j block : Nat) : Bytes :=
  (part.data.drop (part.cursor j + blockBytes * block)).take blockBytes

/-- The span, moved up by `offset`, ends within the capacity, and all its data are there. -/
def Accepts (part : EncodedPart) (capacity : Nat) (offset : Size) (item : Span × Nat) : Prop :=
  item.1.stopAt offset ≤ capacity ∧ (item.1.count.toNat = 0 ∨
    part.cursor item.2 + blockBytes * item.1.count.toNat ≤ part.data.length)

instance (part : EncodedPart) (capacity : Nat) (offset : Size) (item : Span × Nat) :
    Decidable (part.Accepts capacity offset item) :=
  inferInstanceAs (Decidable (_ ∧ _))

/-- The spans that are taken, each with its place among all spans. -/
def accepted (part : EncodedPart) (capacity : Nat) (offset : Size) : List (Span × Nat) :=
  part.spans.zipIdx.filter (part.Accepts capacity offset ·)

/-- Blocks and bytes can be counted up to the last span. -/
structure Bounded (part : EncodedPart) (offset : Size) : Prop where
  stop_lt : ∀ span ∈ part.spans, span.stopAt offset < 2 ^ 64
  bytes_lt : Span.bytesOf part.spans < 2 ^ 64

/-- The blocks of the accepted spans, moved up by `offset`, with their words. -/
def cells (part : EncodedPart) (capacity : Nat) (offset : Size) : List (Nat × Bytes) :=
  (part.accepted capacity offset).flatMap fun item =>
    (List.range item.1.count.toNat).map fun block =>
      (item.1.start.toNat + offset.toNat + block, part.word item.2 block)

variable {part : EncodedPart} {capacity : Nat} {offset : Size} {item : Span × Nat}

theorem mem_accepted :
    item ∈ part.accepted capacity offset ↔
      part.spans[item.2]? = some item.1 ∧ part.Accepts capacity offset item := by
  rw [accepted, List.mem_filter, decide_eq_true_eq, List.mem_zipIdx_iff_getElem?]

theorem Bounded.of_mem_accepted (h : part.Bounded offset)
    (hitem : item ∈ part.accepted capacity offset) : item.1.stopAt offset < 2 ^ 64 :=
  h.stop_lt item.1 (List.mem_of_getElem? (mem_accepted.1 hitem).1)

/-! ### What the cursor finds -/

theorem length_held_eq_iff {data : Bytes} {start count : Nat} :
    (held data start count).length = count ↔ count = 0 ∨ start + count ≤ data.length := by
  rw [held]
  split
  · next hle =>
    rw [List.length_take, List.length_drop]
    omega
  · next hlt =>
    rw [List.length_nil]
    omega

/-- The cursor moves past the data of each span, whether they are there or not. -/
theorem divide_eq {data : Bytes} {spans : List Span} {cursor : Size}
    (h : cursor.toNat + Span.bytesOf spans < 2 ^ 64) :
    divide data.toArray cursor spans = spans.zipIdx.map fun item =>
      (item.1, held data (cursor.toNat + Span.bytesOf (spans.take item.2))
        (blockBytes * item.1.count.toNat)) := by
  induction spans generalizing cursor with
  | nil => rfl
  | cons span rest ih =>
    rw [Span.bytesOf_cons] at h
    have hcount : span.byteCount.toNat = blockBytes * span.count.toNat :=
      Span.toNat_byteCount (by omega)
    have hnext : (cursor + span.byteCount).toNat =
        cursor.toNat + blockBytes * span.count.toNat := by
      rw [UInt64.toNat_add, hcount, Nat.mod_eq_of_lt (by omega)]
    rw [divide, bytesAt_eq (by omega), ih (by omega), List.zipIdx_cons, List.zipIdx_succ,
      List.map_cons, List.map_map, hcount, hnext]
    simp [Function.comp_def, Nat.add_assoc]

theorem pieces_eq (h : part.Bounded offset) :
    part.pieces = part.spans.zipIdx.map fun item =>
      (item.1, held part.data (part.cursor item.2) (blockBytes * item.1.count.toNat)) := by
  have hbound : (0 : Size).toNat + Span.bytesOf part.spans < 2 ^ 64 := by
    rw [UInt64.toNat_zero, Nat.zero_add]
    exact h.bytes_lt
  rw [pieces, divide_eq hbound]
  simp only [UInt64.toNat_zero, Nat.zero_add, cursor]

/-- A span is taken when it is accepted, and otherwise its data are left out. -/
theorem fits_iff (h : part.Bounded offset) {block : ValuesBlock} {j : Nat} {span : Span}
    (hspan : part.spans[j]? = some span) :
    block.fits offset
        (span, held part.data (part.cursor j) (blockBytes * span.count.toNat)) = true ↔
      part.Accepts block.capacity offset (span, j) := by
  have hmem := List.mem_of_getElem? hspan
  have hbytes : blockBytes * span.count.toNat < 2 ^ 64 :=
    Nat.lt_of_le_of_lt (Span.le_bytesOf hmem) h.bytes_lt
  have hzero : blockBytes * span.count.toNat = 0 ↔ span.count.toNat = 0 := by
    simp only [blockBytes]
    omega
  rw [ValuesBlock.fits, Bool.and_eq_true, decide_eq_true_eq, beq_iff_eq,
    Span.toNat_stop_shift_of_lt (h.stop_lt _ hmem), Span.toNat_byteCount hbytes,
    length_held_eq_iff, hzero, Accepts]

/-- What is kept of a part are the accepted spans with their data. -/
theorem filter_pieces (h : part.Bounded offset) (block : ValuesBlock) :
    part.pieces.filter (block.fits offset) =
      (part.accepted block.capacity offset).map fun item => (item.1, part.own item) := by
  rw [pieces_eq h, List.filter_map, accepted]
  have hfilter : part.spans.zipIdx.filter (block.fits offset ∘ fun item =>
        (item.1, held part.data (part.cursor item.2) (blockBytes * item.1.count.toNat))) =
      part.spans.zipIdx.filter (part.Accepts block.capacity offset ·) := by
    refine List.filter_congr fun item hitem => ?_
    rw [Bool.eq_iff_iff, decide_eq_true_eq]
    exact fits_iff h (List.mem_zipIdx_iff_getElem?.1 hitem)
  rw [hfilter]
  refine List.map_congr_left fun item hitem => ?_
  obtain ⟨_, hnone | hall⟩ := (mem_accepted.1 hitem).2
  · simp [held, own, hnone]
  · rw [held, if_pos hall, own]

/-! ### Blocks and words -/

theorem map_fst_cells (h : part.Bounded offset) :
    (part.cells capacity offset).map Prod.fst =
      (part.accepted capacity offset).flatMap fun item => (item.1.shift offset).blocks := by
  rw [cells, List.map_flatMap]
  refine List.flatMap_congr fun item hitem => ?_
  have hlt := h.of_mem_accepted hitem
  have hcount : item.1.stopAt offset - (item.1.start.toNat + offset.toNat) =
      item.1.count.toNat := by
    rw [Span.stopAt]
    omega
  rw [Span.blocks, Span.toNat_start_shift_of_lt hlt, Span.toNat_stop_shift_of_lt hlt, hcount,
    List.map_map, List.range'_eq_map_range]
  rfl

theorem flatMap_snd_cells :
    (part.cells capacity offset).flatMap Prod.snd =
      (part.accepted capacity offset).flatMap part.own := by
  rw [cells, List.flatMap_assoc]
  refine List.flatMap_congr fun item _ => ?_
  rw [List.flatMap_map]
  exact flatMap_range_take part.data _ _ _

theorem mem_cells {cell : Nat × Bytes} :
    cell ∈ part.cells capacity offset ↔
      ∃ item ∈ part.accepted capacity offset, ∃ block < item.1.count.toNat,
        (item.1.start.toNat + offset.toNat + block, part.word item.2 block) = cell := by
  simp only [cells, List.mem_flatMap, List.mem_map, List.mem_range]

theorem length_snd_cells : ∀ cell ∈ part.cells capacity offset, cell.2.length = blockBytes := by
  intro cell hcell
  obtain ⟨item, hitem, block, hblock, rfl⟩ := mem_cells.1 hcell
  obtain ⟨_, hnone | hall⟩ := (mem_accepted.1 hitem).2
  · omega
  · rw [word, List.length_take, List.length_drop]
    simp only [blockBytes] at *
    omega

end EncodedPart

/-! ## Pushes -/

namespace ValuesBlock

variable {block : ValuesBlock} {part : EncodedPart} {offset : Size} {cells : List (Nat × Bytes)}
  {layout : Layout} {pushes : List (Size × EncodedPart)}

/-- The values block that the pushes make of the empty one, each of them a part and how far it is
moved up. -/
def pushed (layout : Layout) (pushes : List (Size × EncodedPart)) : ValuesBlock :=
  pushes.foldl (fun block push => (block.push push.1 push.2).value) (.ofLayout layout)

/-- The accepted spans of all parts, moved up, in the order in which they are taken. -/
def spansOf (capacity : Nat) (pushes : List (Size × EncodedPart)) : List Span :=
  pushes.flatMap fun push => (push.2.accepted capacity push.1).map fun item => item.1.shift push.1

/-- The blocks of these spans with their words. -/
def cellsOf (capacity : Nat) (pushes : List (Size × EncodedPart)) : List (Nat × Bytes) :=
  pushes.flatMap fun push => push.2.cells capacity push.1

theorem pushed_concat (layout : Layout) (pushes : List (Size × EncodedPart))
    (push : Size × EncodedPart) :
    pushed layout (pushes ++ [push]) = ((pushed layout pushes).push push.1 push.2).value := by
  simp [pushed]

theorem capacity_pushed (layout : Layout) (pushes : List (Size × EncodedPart)) :
    (pushed layout pushes).capacity = layout.total := by
  induction pushes using List.reverseRecOn with
  | nil => rfl
  | append_singleton pushes push ih =>
    rw [pushed_concat]
    exact ih

/-! ### One push -/

theorem push_eq (h : part.Bounded offset) (block : ValuesBlock) :
    block.push offset part =
      { value := { block with
          mask := ((part.cells block.capacity offset).map Prod.fst).foldl
            BlockMask.mark block.mask
          data := block.data ++ (part.cells block.capacity offset).flatMap Prod.snd }
        notices := List.replicate
          (part.spans.length - (part.accepted block.capacity offset).length) .spanDropped } := by
  have hlength : part.pieces.length = part.spans.length := by
    rw [EncodedPart.pieces_eq h, List.length_map, List.length_zipIdx]
  simp only [push, EncodedPart.filter_pieces h, hlength, EncodedPart.map_fst_cells h,
    EncodedPart.flatMap_snd_cells, List.length_map, List.flatMap_map, List.foldl_map,
    List.foldl_flatMap]
  rfl

/-- A block that is marked by a push is one of a span that ends within the capacity. -/
theorem mem_mask_push {k : Nat} (hk : k ∈ (block.push offset part).value.mask) :
    k ∈ block.mask ∨ k < block.capacity := by
  simp only [push, BlockMask.markSpan, ← List.foldl_flatMap] at hk
  rcases BlockMask.mem_foldl_mark.1 hk with hnew | hold
  · obtain ⟨piece, hpiece, hblock⟩ := List.mem_flatMap.1 hnew
    have hfits := (List.mem_filter.1 hpiece).2
    rw [fits, Bool.and_eq_true, decide_eq_true_eq] at hfits
    exact .inr (Nat.lt_of_lt_of_le (Span.mem_blocks.1 hblock).2 hfits.1)
  · exact .inl hold

/-- What one push does: it adds the blocks and the data of the spans that it accepts, and tells how
many it does not accept. -/
structure Adds (block : ValuesBlock) (offset : Size) (part : EncodedPart) : Prop where
  accepts_iff : ∀ j span, part.spans[j]? = some span → ∃ data, part.pieces[j]? = some (span, data) ∧
    (block.fits offset (span, data) = true ↔ span.stopAt offset ≤ block.capacity ∧
      (span.count = 0 ∨ part.cursor j + blockBytes * span.count.toNat ≤ part.data.length))
  mem_mask : ∀ k, k ∈ (block.push offset part).value.mask ↔ k ∈ block.mask ∨
    ∃ item ∈ part.accepted block.capacity offset,
      item.1.start.toNat + offset.toNat ≤ k ∧ k < item.1.stopAt offset
  data_eq : (block.push offset part).value.data =
    block.data ++ (part.accepted block.capacity offset).flatMap part.own
  length_own : ∀ item ∈ part.accepted block.capacity offset,
    (part.own item).length = blockBytes * item.1.count.toNat
  capacity_eq : (block.push offset part).value.capacity = block.capacity
  notices_eq : (block.push offset part).notices = List.replicate
    (part.spans.length - (part.accepted block.capacity offset).length) .spanDropped
  /-- No mask refuses an accepted span, so none is left without its blocks. -/
  insertSpan_eq : ∀ item ∈ part.accepted block.capacity offset, ∀ mask : BlockMask,
    mask.insertSpan item.1 offset = (true, mask.markSpan (item.1.shift offset))

theorem adds (hcapacity : block.capacity ≤ maskBlocks) (h : part.Bounded offset) :
    block.Adds offset part where
  accepts_iff := by
    intro j span hspan
    have hitem : part.spans.zipIdx[j]? = some (span, j) := by simp [List.getElem?_zipIdx, hspan]
    refine ⟨_, by rw [EncodedPart.pieces_eq h, List.getElem?_map, hitem]; rfl, ?_⟩
    rw [← UInt64.toNat_inj, UInt64.toNat_zero]
    exact EncodedPart.fits_iff h hspan
  mem_mask := by
    intro k
    rw [push_eq h, BlockMask.mem_foldl_mark, EncodedPart.map_fst_cells h, List.mem_flatMap, or_comm]
    refine or_congr_right (exists_congr fun item => and_congr_right fun hitem => ?_)
    rw [Span.mem_blocks_shift (h.of_mem_accepted hitem), Finset.mem_Ico]
  data_eq := by rw [push_eq h, EncodedPart.flatMap_snd_cells]
  length_own := by
    intro item hitem
    obtain ⟨_, hnone | hall⟩ := (EncodedPart.mem_accepted.1 hitem).2
    · simp [EncodedPart.own, hnone]
    · rw [EncodedPart.own, List.length_take, List.length_drop]
      omega
  capacity_eq := rfl
  notices_eq := by rw [push_eq h]
  insertSpan_eq := by
    intro item hitem mask
    have hstop := (EncodedPart.mem_accepted.1 hitem).2.1
    rw [BlockMask.insertSpan, Span.toNat_stop_shift_of_lt (h.of_mem_accepted hitem)]
    exact if_pos (Nat.le_trans hstop hcapacity)

/-! ### All of them -/

theorem lt_of_mem_pushed {k : Nat} (hk : k ∈ (pushed layout pushes).mask) : k < layout.total := by
  induction pushes using List.reverseRecOn with
  | nil => exact absurd hk BlockMask.not_mem_empty
  | append_singleton pushes push ih =>
    rw [pushed_concat] at hk
    rcases mem_mask_push hk with hold | hlt
    · exact ih hold
    · rwa [capacity_pushed] at hlt

/-- The values block has these blocks, taken in this order, and a word for each. -/
structure Holds (block : ValuesBlock) (cells : List (Nat × Bytes)) : Prop where
  mask_eq : block.mask = BlockMask.marks (cells.map Prod.fst)
  data_eq : block.data = cells.flatMap Prod.snd
  length_eq : ∀ cell ∈ cells, cell.2.length = blockBytes

theorem Holds.push (h : block.Holds cells) (hbounded : part.Bounded offset) :
    (block.push offset part).value.Holds (cells ++ part.cells block.capacity offset) := by
  rw [push_eq hbounded]
  exact {
    mask_eq := by rw [List.map_append, BlockMask.marks, List.foldl_append, ← BlockMask.marks,
      ← h.mask_eq]
    data_eq := by rw [List.flatMap_append, ← h.data_eq]
    length_eq := List.forall_mem_append.2 ⟨h.length_eq, EncodedPart.length_snd_cells⟩ }

theorem holds_pushed (h : ∀ push ∈ pushes, push.2.Bounded push.1) :
    (pushed layout pushes).Holds (cellsOf layout.total pushes) := by
  induction pushes using List.reverseRecOn with
  | nil => exact ⟨rfl, rfl, by simp [cellsOf]⟩
  | append_singleton pushes push ih =>
    obtain ⟨hbefore, hlast⟩ := List.forall_mem_append.1 h
    have hpush := (ih hbefore).push (hlast push List.mem_cons_self)
    rw [capacity_pushed] at hpush
    rw [pushed_concat, cellsOf, List.flatMap_append, List.flatMap_singleton]
    exact hpush

theorem map_fst_cellsOf {capacity : Nat} (h : ∀ push ∈ pushes, push.2.Bounded push.1) :
    (cellsOf capacity pushes).map Prod.fst = (spansOf capacity pushes).flatMap Span.blocks := by
  rw [cellsOf, spansOf, List.map_flatMap, List.flatMap_assoc]
  refine List.flatMap_congr fun push hpush => ?_
  rw [EncodedPart.map_fst_cells (h push hpush), List.flatMap_map]

/-- Spans that come in ascending order, and have no block in common, have ascending blocks. -/
theorem pairwise_cellsOf {capacity : Nat} (h : ∀ push ∈ pushes, push.2.Bounded push.1)
    (hascending : (spansOf capacity pushes).Pairwise fun s next =>
      ∀ k ∈ s, ∀ k' ∈ next, k < k') :
    ((cellsOf capacity pushes).map Prod.fst).Pairwise (· < ·) := by
  rw [map_fst_cellsOf h, List.pairwise_flatMap]
  refine ⟨fun s _ => List.pairwise_lt_range', hascending.imp fun hlt k hk k' hk' => ?_⟩
  exact hlt k (Span.mem_blocks.1 hk) k' (Span.mem_blocks.1 hk')

namespace Holds

variable {cell : Nat × Bytes}

/-- Blocks that come in ascending order are announced in this order. -/
theorem blocks_eq (h : block.Holds cells) (hsorted : (cells.map Prod.fst).Pairwise (· < ·)) :
    block.mask.blocks = cells.map Prod.fst := by
  rw [h.mask_eq, BlockMask.blocks_marks hsorted]

theorem length_data (h : block.Holds cells) (hsorted : (cells.map Prod.fst).Pairwise (· < ·)) :
    block.data.length = blockBytes * block.mask.blockCount := by
  rw [← BlockMask.length_blocks, h.blocks_eq hsorted, List.length_map, h.data_eq,
    length_flatMap_of_length h.length_eq]

/-- The word of a block stands behind those of all blocks below. -/
theorem word_eq (h : block.Holds cells) (hsorted : (cells.map Prod.fst).Pairwise (· < ·))
    (hcell : cell ∈ cells) :
    (block.data.drop (blockBytes * (List.range cell.1).countP (· ∈ block.mask))).take blockBytes =
      cell.2 := by
  obtain ⟨front, back, rfl⟩ := List.append_of_mem hcell
  have hmem (k : Nat) : k ∈ block.mask ↔ k ∈ (front ++ cell :: back).map Prod.fst := by
    rw [h.mask_eq, BlockMask.mem_marks]
  simp only [List.map_append, List.map_cons] at hsorted hmem
  have hrank : (List.range cell.1).countP (· ∈ block.mask) = front.length := by
    simp only [hmem]
    rw [countP_range_of_pairwise hsorted, List.length_map]
  rw [hrank, h.data_eq, take_drop_flatMap h.length_eq]

end Holds

/-- Mask and data are in step: there are four bytes for each block, and the word of a block of an
accepted span is found behind those of the blocks below it that are marked. -/
structure InStep (block : ValuesBlock) (pushes : List (Size × EncodedPart)) : Prop where
  length_eq : block.data.length = blockBytes * block.mask.blockCount
  of_mem : ∀ k ∈ block.mask, ∃ push ∈ pushes, ∃ item ∈ push.2.accepted block.capacity push.1,
    ∃ own < item.1.count.toNat, item.1.start.toNat + push.1.toNat + own = k
  word_eq : ∀ push ∈ pushes, ∀ item ∈ push.2.accepted block.capacity push.1,
    ∀ own < item.1.count.toNat,
      let k := item.1.start.toNat + push.1.toNat + own
      k ∈ block.mask ∧
        (block.data.drop (blockBytes * (List.range k).countP (· ∈ block.mask))).take blockBytes =
          push.2.word item.2 own

theorem Holds.inStep (h : block.Holds (cellsOf block.capacity pushes))
    (hsorted : ((cellsOf block.capacity pushes).map Prod.fst).Pairwise (· < ·)) :
    block.InStep pushes where
  length_eq := h.length_data hsorted
  of_mem := by
    intro k hk
    rw [h.mask_eq, BlockMask.mem_marks] at hk
    obtain ⟨cell, hcell, rfl⟩ := List.mem_map.1 hk
    obtain ⟨push, hpush, hmem⟩ := List.mem_flatMap.1 hcell
    obtain ⟨item, hitem, own, hown, rfl⟩ := EncodedPart.mem_cells.1 hmem
    exact ⟨push, hpush, item, hitem, own, hown, rfl⟩
  word_eq := by
    intro push hpush item hitem own hown k
    have hcell : (k, push.2.word item.2 own) ∈ cellsOf block.capacity pushes :=
      List.mem_flatMap.2 ⟨push, hpush, EncodedPart.mem_cells.2 ⟨item, hitem, own, hown, rfl⟩⟩
    have hk : k ∈ block.mask := by
      rw [h.mask_eq, BlockMask.mem_marks]
      exact List.mem_map_of_mem (f := Prod.fst) hcell
    exact ⟨hk, h.word_eq hsorted hcell⟩

/-- Whatever was pushed, one more push adds what it accepts, no block behind those of the layout is
marked, and if the accepted spans come in ascending order, their words are in step with the mask. -/
theorem inStep_pushed {settings : Settings} (hlayout : layout.Accepted settings)
    (pushes : List (Size × EncodedPart)) :
    (∀ offset part, part.Bounded offset → (pushed layout pushes).Adds offset part) ∧
      (∀ k ∈ (pushed layout pushes).mask, k < layout.total) ∧
      ((∀ push ∈ pushes, push.2.Bounded push.1) →
        ((spansOf layout.total pushes).Pairwise fun s next => ∀ k ∈ s, ∀ k' ∈ next, k < k') →
        (pushed layout pushes).InStep pushes) := by
  have hcapacity := capacity_pushed layout pushes
  refine ⟨fun offset part hbounded => adds ?_ hbounded, fun k hk => lt_of_mem_pushed hk, ?_⟩
  · rw [hcapacity]
    exact hlayout.fits.total_le
  · intro hbounded hascending
    rw [← hcapacity] at hascending
    have hholds : (pushed layout pushes).Holds (cellsOf layout.total pushes) :=
      holds_pushed hbounded
    rw [← hcapacity] at hholds
    exact hholds.inStep (pairwise_cellsOf hbounded hascending)

/-- A part with a span that lies behind the layout, one without blocks and one with too few data,
and a second part behind it. -/
theorem inStep_pushed_malformed :
    let table : List Field := [.array "a" .u32 8]
    let part : EncodedPart := {
      spans := [⟨0, 1⟩, ⟨7, 2⟩, ⟨2, 0⟩, ⟨3, 2⟩, ⟨5, 1⟩]
      data := (List.range 22).map UInt8.ofNat }
    let next : EncodedPart := { spans := [⟨1, 1⟩], data := [1, 2, 3, 4] }
    let pushes : List (Size × EncodedPart) := [(1, part), (6, next)]
    ∃ schema, Schema.compile {} "T" table = .ok schema ∧ (Layout.single schema).Accepted {} ∧
      part.Bounded 1 ∧ (∀ push ∈ pushes, push.2.Bounded push.1) ∧
      part.accepted (Layout.single schema).total 1 = [(⟨0, 1⟩, 0), (⟨2, 0⟩, 2), (⟨3, 2⟩, 3)] ∧
      ((spansOf (Layout.single schema).total pushes).Pairwise fun s next =>
        ∀ k ∈ s, ∀ k' ∈ next, k < k') ∧
      (pushed (.single schema) pushes).Adds 1 part ∧
      (∀ k ∈ (pushed (.single schema) pushes).mask, k < (Layout.single schema).total) ∧
      (pushed (.single schema) pushes).InStep pushes := by
  intro table part next pushes
  have hrun : (Schema.compile {} "T" table).toOption.map
      (fun schema => (Layout.single schema).total) = some 8 := by decide +kernel
  obtain ⟨schema, hcompile, htotal⟩ := Schema.exists_of_compile hrun
  have hlayout : (Layout.single schema).Accepted {} := .single hcompile
  have hbounded : part.Bounded 1 := ⟨by decide, by decide⟩
  have hall : ∀ push ∈ pushes, push.2.Bounded push.1 := by
    have hnext : next.Bounded 6 := ⟨by decide, by decide⟩
    simp [pushes, hbounded, hnext]
  have hascending : (spansOf (Layout.single schema).total pushes).Pairwise fun s next =>
      ∀ k ∈ s, ∀ k' ∈ next, k < k' := by
    have hapart : (spansOf 8 pushes).Pairwise fun s next => s.stop.toNat ≤ next.start.toNat := by
      decide
    rw [htotal]
    exact hapart.imp fun hle k hk k' hk' =>
      Nat.lt_of_lt_of_le hk.2 (Nat.le_trans hle hk'.1)
  obtain ⟨hadds, hlt, hstep⟩ := inStep_pushed hlayout pushes
  refine ⟨schema, hcompile, hlayout, hbounded, hall, ?_, hascending, hadds 1 part hbounded, hlt,
    hstep hall hascending⟩
  rw [htotal]
  decide

end ValuesBlock

end ObjectSync
