import ObjectSync.Proofs.Blocks.Mask
import ObjectSync.State.ValuesBlock

/-!
# Reading values blocks

A values block says which words which blocks have. Its reader gives back that list, the `entries`,
and `Carries` says of a values block what its entries are. They determine its bytes
(`Carries.bytes_eq`), and when they come in ascending order and can be announced, they are read
back from them (**`Carries.reads`**).

What is put in are `Stretch`es: runs of blocks with a word for each. As long as they are laid one
behind the other (`Laid`) and end below the capacity, all of them are taken (`Carries.push`).
-/

namespace ObjectSync

namespace ValuesBlock

/-- The blocks of a message with their words. -/
def reader : Reader (List (Nat × UInt32)) := do
  let mask ← BlockMask.reader
  let words ← Reader.u32.times mask.blocks.length
  return mask.blocks.zip words

/-- The bytes of a values block as they come. Its mask says how many there are. -/
def bytesReader : Reader Bytes := do
  let mask ← BlockMask.reader
  let data ← Reader.bytes (mask.blockCount * 4)
  return mask.bytes ++ data

/-- The bytes are a mask that its count byte can measure, and a word for each block of the mask. -/
def Encoded (bytes : Bytes) : Prop :=
  ∃ (mask : BlockMask) (data : Bytes), mask.words.length ≤ maskWords ∧
    data.length = mask.blockCount * 4 ∧ bytes = mask.bytes ++ data

theorem Encoded.reads {bytes : Bytes} (h : Encoded bytes) : Reads bytesReader bytes bytes := by
  obtain ⟨mask, data, hmask, hdata, rfl⟩ := h
  refine (Reads.mask hmask).bind ?_
  rw [← hdata]
  exact (Reads.bytes data).last (mask.bytes ++ ·)

/-- The bytes are a count, as many mask words of which the last is not zero, and four bytes for each
bit of the mask. Its bits are these blocks. -/
def Framed (bytes : Bytes) (blocks : List Nat) : Prop :=
  ∃ (mask : BlockMask) (data : Bytes),
    bytes = UInt8.ofNat mask.words.length :: mask.words.flatMap Bytes.u32 ++ data ∧
      mask.words.length ≤ maskWords ∧ mask.Trimmed ∧ mask.blocks = blocks ∧
      data.length = mask.blockCount * blockBytes

/-- The values block holds these words for these blocks. -/
structure Carries (block : ValuesBlock) (entries : List (Nat × UInt32)) : Prop where
  mask_eq : block.mask = BlockMask.marks (entries.map Prod.fst)
  data_eq : block.data = entries.flatMap fun entry => Bytes.u32 entry.2

namespace Carries

variable {block block' : ValuesBlock} {entries : List (Nat × UInt32)}

theorem empty (capacity : Nat) : Carries { capacity } [] where
  mask_eq := rfl
  data_eq := rfl

theorem bytes_eq (h : block.Carries entries) (h' : block'.Carries entries) :
    block.bytes = block'.bytes := by
  rw [bytes, bytes, h.mask_eq, h'.mask_eq, h.data_eq, h'.data_eq]

/-- Blocks that can be announced take no more words of the mask than its count can measure. -/
theorem length_mask_le (h : block.Carries entries)
    (hblocks : ∀ entry ∈ entries, entry.1 < maskBlocks) :
    block.mask.words.length ≤ maskWords := by
  rw [h.mask_eq]
  refine BlockMask.length_marks_le fun k hk => ?_
  obtain ⟨entry, hentry, rfl⟩ := List.mem_map.1 hk
  exact hblocks entry hentry

theorem blocks_mask (h : block.Carries entries)
    (hsorted : (entries.map Prod.fst).Pairwise (· < ·)) :
    block.mask.blocks = entries.map Prod.fst := by
  rw [h.mask_eq, BlockMask.blocks_marks hsorted]

theorem reads (h : block.Carries entries) (hsorted : (entries.map Prod.fst).Pairwise (· < ·))
    (hblocks : ∀ entry ∈ entries, entry.1 < maskBlocks) : Reads reader block.bytes entries := by
  have hdata : block.data = (entries.map Prod.snd).flatMap Bytes.u32 := by
    rw [h.data_eq, List.flatMap_map]
  have hzip : (entries.map Prod.fst).zip (entries.map Prod.snd) = entries :=
    (List.zip_of_prod rfl rfl).symm
  refine (Reads.mask (h.length_mask_le hblocks)).bind ?_
  rw [h.blocks_mask hsorted, hdata, List.length_map, ← List.length_map Prod.snd]
  have hwords : Reads (Reader.u32.times (entries.map Prod.snd).length)
      ((entries.map Prod.snd).flatMap Bytes.u32) (entries.map Prod.snd) :=
    Reads.times fun w _ => Reads.u32 w
  have hlast := hwords.last fun words => (entries.map Prod.fst).zip words
  rwa [hzip] at hlast

/-- There are as many words as the mask has bits. -/
theorem length_data (h : block.Carries entries)
    (hsorted : (entries.map Prod.fst).Pairwise (· < ·)) :
    block.data.length = block.mask.blockCount * blockBytes := by
  rw [← BlockMask.length_blocks, h.blocks_mask hsorted, h.data_eq, List.length_map]
  simp [Bytes.u32, List.length_flatMap, List.map_const', blockBytes]

theorem encoded (h : block.Carries entries) (hsorted : (entries.map Prod.fst).Pairwise (· < ·))
    (hblocks : ∀ entry ∈ entries, entry.1 < maskBlocks) : Encoded block.bytes :=
  ⟨block.mask, block.data, h.length_mask_le hblocks, h.length_data hsorted, rfl⟩

theorem framed (h : block.Carries entries) (hsorted : (entries.map Prod.fst).Pairwise (· < ·))
    (hblocks : ∀ entry ∈ entries, entry.1 < maskBlocks) :
    Framed block.bytes (entries.map Prod.fst) := by
  have hmask := h.length_mask_le hblocks
  refine ⟨block.mask, block.data, ?_, hmask, ?_, h.blocks_mask hsorted, h.length_data hsorted⟩
  · rw [bytes, BlockMask.bytes, Nat.min_eq_left hmask]
  · rw [h.mask_eq]
    exact BlockMask.trimmed_marks _

end Carries

end ValuesBlock

/-! ## Stretches -/

namespace Span

variable {s : Span} {offset : Nat}

theorem toNat_add_offset {size : Size} (h : offset + size.toNat < 2 ^ 64) :
    (size + .ofNat offset).toNat = offset + size.toNat := by
  rw [UInt64.toNat_add, UInt64.toNat_ofNat', Nat.add_comm,
    Nat.mod_eq_of_lt (show offset < 2 ^ 64 by omega)]
  exact Nat.mod_eq_of_lt h

theorem toNat_stop_shift (h : offset + s.stop.toNat < 2 ^ 64) :
    (s.shift (.ofNat offset)).stop.toNat = offset + s.stop.toNat := by
  rw [stop_shift, toNat_add_offset h]

theorem toNat_byteCount (h : blockBytes * s.count.toNat < 2 ^ 64) :
    s.byteCount.toNat = blockBytes * s.count.toNat := by
  have hbytes : (UInt64.ofNat blockBytes).toNat = blockBytes := rfl
  rw [byteCount, UInt64.toNat_mul, hbytes, Nat.mul_comm]
  exact Nat.mod_eq_of_lt h

theorem blocks_shift (hstop : offset + s.stop.toNat < 2 ^ 64)
    (hstart : s.start.toNat ≤ s.stop.toNat) :
    (s.shift (.ofNat offset)).blocks = s.blocks.map (offset + ·) := by
  have hfirst : (s.shift (.ofNat offset)).start.toNat = offset + s.start.toNat :=
    toNat_add_offset (by omega)
  rw [blocks, blocks, toNat_stop_shift hstop, hfirst, List.map_add_range', Nat.add_sub_add_left]

end Span

/-- The words of a run of blocks. -/
structure Stretch where
  span : Span
  words : List UInt32

namespace Stretch

/-- The words, each little-endian. -/
def bytes (s : Stretch) : Bytes := s.words.flatMap Bytes.u32

/-- The blocks with their words. -/
def entries (s : Stretch) : List (Nat × UInt32) := s.span.blocks.zip s.words

/-- There is a word for each block, and the blocks end before the largest size. -/
structure Sound (s : Stretch) : Prop where
  stop_eq : s.span.stop.toNat = s.span.start.toNat + s.span.count.toNat
  length_eq : s.words.length = s.span.count.toNat

variable {s : Stretch}

theorem Sound.blocks_eq (h : s.Sound) :
    s.span.blocks = List.range' s.span.start.toNat s.words.length := by
  rw [Span.blocks, h.stop_eq, h.length_eq, Nat.add_sub_cancel_left]

theorem Sound.map_fst_entries (h : s.Sound) : s.entries.map Prod.fst = s.span.blocks := by
  rw [entries, List.map_fst_zip]
  rw [h.blocks_eq, List.length_range']

theorem Sound.map_snd_entries (h : s.Sound) : s.entries.map Prod.snd = s.words := by
  rw [entries, List.map_snd_zip]
  rw [h.blocks_eq, List.length_range']

theorem length_flatMap_u32 (words : List UInt32) :
    (words.flatMap Bytes.u32).length = words.length * 4 := by
  simp [Bytes.u32, List.length_flatMap, List.map_const']

theorem length_bytes (s : Stretch) : s.bytes.length = s.words.length * 4 :=
  length_flatMap_u32 s.words

theorem flatMap_bytes (stretches : List Stretch) :
    stretches.flatMap bytes = (stretches.flatMap words).flatMap Bytes.u32 :=
  (List.flatMap_assoc ..).symm

end Stretch

/-- Stretches that lie one behind the other, below a number of blocks. -/
structure Laid (stretches : List Stretch) (blocks : Nat) : Prop where
  sound : ∀ s ∈ stretches, s.Sound
  stop_le : ∀ s ∈ stretches, s.span.stop.toNat ≤ blocks
  apart : stretches.Pairwise fun s next => s.span.stop.toNat ≤ next.span.start.toNat

/-- An entry moved up by some blocks. -/
def moved (offset : Nat) (entry : Nat × UInt32) : Nat × UInt32 := (offset + entry.1, entry.2)

theorem moved_zero : moved 0 = id :=
  funext fun entry => by rw [moved, Nat.zero_add]; rfl

theorem moved_moved (a b : Nat) (entry : Nat × UInt32) :
    moved a (moved b entry) = moved (a + b) entry := by
  rw [moved, moved, moved, Nat.add_assoc]

theorem map_fst_moved (entries : List (Nat × UInt32)) (offset : Nat) :
    (entries.map (moved offset)).map Prod.fst = (entries.map Prod.fst).map (offset + ·) := by
  rw [List.map_map, List.map_map]
  rfl

namespace Laid

variable {stretches : List Stretch} {blocks : Nat}

theorem map_fst_entries (h : Laid stretches blocks) :
    (stretches.flatMap Stretch.entries).map Prod.fst =
      stretches.flatMap fun s => s.span.blocks := by
  rw [List.map_flatMap]
  exact List.flatMap_congr fun s hs => (h.sound s hs).map_fst_entries

theorem map_snd_entries (h : Laid stretches blocks) :
    (stretches.flatMap Stretch.entries).map Prod.snd = stretches.flatMap Stretch.words := by
  rw [List.map_flatMap]
  exact List.flatMap_congr fun s hs => (h.sound s hs).map_snd_entries

/-- The blocks come in ascending order. -/
theorem pairwise_entries (h : Laid stretches blocks) :
    ((stretches.flatMap Stretch.entries).map Prod.fst).Pairwise (· < ·) := by
  rw [h.map_fst_entries, List.pairwise_flatMap]
  refine ⟨fun s _ => List.pairwise_lt_range', h.apart.imp fun {s next} hapart k hk k' hk' => ?_⟩
  have hlt := (Span.mem_blocks.1 hk).2
  have hle := (Span.mem_blocks.1 hk').1
  omega

theorem fst_lt (h : Laid stretches blocks) :
    ∀ entry ∈ stretches.flatMap Stretch.entries, entry.1 < blocks := by
  intro entry hentry
  have hkey := List.mem_map_of_mem (f := Prod.fst) hentry
  rw [h.map_fst_entries, List.mem_flatMap] at hkey
  obtain ⟨s, hs, hk⟩ := hkey
  have hlt := (Span.mem_blocks.1 hk).2
  have hle := h.stop_le s hs
  omega

/-- The blocks of entries that are moved up are those of the stretches moved up. -/
theorem map_fst_moved (h : Laid stretches blocks) {offset : Nat} (hlt : offset + blocks < 2 ^ 64) :
    ((stretches.flatMap Stretch.entries).map (moved offset)).map Prod.fst =
      stretches.flatMap fun s => (s.span.shift (.ofNat offset)).blocks := by
  rw [ObjectSync.map_fst_moved, h.map_fst_entries, List.map_flatMap]
  refine List.flatMap_congr fun s hs => ?_
  have hstop := h.stop_le s hs
  have hcount := (h.sound s hs).stop_eq
  exact (Span.blocks_shift (by omega) (by omega)).symm

theorem flatMap_moved (h : Laid stretches blocks) (offset : Nat) :
    (((stretches.flatMap Stretch.entries).map (moved offset)).flatMap
      fun entry => Bytes.u32 entry.2) = stretches.flatMap Stretch.bytes := by
  rw [Stretch.flatMap_bytes, ← h.map_snd_entries, List.flatMap_map, List.flatMap_map]
  rfl

/-- There are not more words than blocks. -/
theorem length_words_le (h : Laid stretches blocks) :
    (stretches.flatMap Stretch.words).length ≤ blocks := by
  have hsub : (stretches.flatMap Stretch.entries).map Prod.fst ⊆ List.range blocks := by
    intro k hk
    obtain ⟨entry, hentry, rfl⟩ := List.mem_map.1 hk
    exact List.mem_range.2 (h.fst_lt entry hentry)
  have hle := (List.subperm_of_subset h.pairwise_entries.nodup hsub).length_le
  rw [← h.map_snd_entries, List.length_map]
  rwa [List.length_map, List.length_range] at hle

end Laid

/-! ## Taking stretches -/

/-- The part with the given stretches. -/
def EncodedPart.ofStretches (stretches : List Stretch) : EncodedPart where
  spans := stretches.map Stretch.span
  data := stretches.flatMap Stretch.bytes

namespace EncodedPart

theorem toNat_byteCount {s : Stretch} (h : s.Sound) (hlt : s.bytes.length < 2 ^ 64) :
    s.span.byteCount.toNat = s.bytes.length := by
  have hbytes : blockBytes * s.span.count.toNat = s.bytes.length := by
    rw [Stretch.length_bytes, h.length_eq, Nat.mul_comm]
    rfl
  rw [Span.toNat_byteCount (by rwa [hbytes]), hbytes]

/-- The bytes between two places, or none where they are not all there. -/
def held (data : Bytes) (start count : Nat) : Bytes :=
  if start + count ≤ data.length then (data.drop start).take count else []

theorem bytesAt_eq {data : Bytes} {cursor count : Size} (h : cursor.toNat + count.toNat < 2 ^ 64) :
    bytesAt data.toArray cursor count = held data cursor.toNat count.toNat := by
  have hstop : (cursor + count).toNat = cursor.toNat + count.toNat := by
    rw [UInt64.toNat_add, Nat.mod_eq_of_lt h]
  have hle : cursor ≤ cursor + count := UInt64.le_iff_toNat_le.2 (by omega)
  simp only [bytesAt, held, hstop, hle, true_and, List.size_toArray, Array.toList_extract,
    List.extract_eq_take_drop, Nat.add_sub_cancel_left]

/-- Each stretch finds its own bytes. -/
theorem divide_ofStretches {stretches : List Stretch} (h : ∀ s ∈ stretches, s.Sound)
    (before : Bytes) {cursor : Size} (hcursor : cursor.toNat = before.length)
    (hlt : (before ++ stretches.flatMap Stretch.bytes).length < 2 ^ 64) :
    divide (before ++ stretches.flatMap Stretch.bytes).toArray cursor (stretches.map Stretch.span) =
      stretches.map fun s => (s.span, s.bytes) := by
  induction stretches generalizing before cursor with
  | nil => rfl
  | cons s rest ih =>
    -- the cursor stands behind `before`, and for the next stretch behind the bytes of this one too
    rw [List.flatMap_cons] at hlt ⊢
    have hlength := hlt
    rw [List.length_append, List.length_append] at hlength
    have hcount := toNat_byteCount (h s List.mem_cons_self) (by omega)
    have hstop : (cursor + s.span.byteCount).toNat = before.length + s.bytes.length := by
      rw [UInt64.toNat_add, hcount, hcursor]
      exact Nat.mod_eq_of_lt (by omega)
    have hbytes : bytesAt (before ++ (s.bytes ++ rest.flatMap Stretch.bytes)).toArray cursor
        s.span.byteCount = s.bytes := by
      rw [bytesAt_eq (by omega), hcursor, hcount, held, List.drop_left, List.take_left]
      refine if_pos ?_
      rw [List.length_append, List.length_append]
      omega
    have hrest := ih (fun s' hs' => h s' (List.mem_cons_of_mem s hs'))
      (before ++ s.bytes) (by rw [hstop, List.length_append])
      (by rwa [List.append_assoc])
    rw [List.map_cons, List.map_cons, divide, hbytes]
    rw [List.append_assoc] at hrest
    rw [hrest]

end EncodedPart

namespace ValuesBlock

variable {block : ValuesBlock} {entries : List (Nat × UInt32)} {stretches : List Stretch}
  {offset blocks : Nat}

/-- Stretches that end below the capacity are taken, all of them. -/
theorem fits_of_laid (hlaid : Laid stretches blocks) (hfits : offset + blocks ≤ block.capacity)
    (hcapacity : block.capacity ≤ maskBlocks) {s : Stretch} (hs : s ∈ stretches) :
    block.fits (.ofNat offset) (s.span, s.bytes) = true := by
  have hmask : maskBlocks = 8160 := rfl
  have hstop := hlaid.stop_le s hs
  have hsound := hlaid.sound s hs
  have hcount := hsound.stop_eq
  have hlength : s.bytes.length < 2 ^ 64 := by
    rw [Stretch.length_bytes, hsound.length_eq]
    omega
  have hend : (s.span.shift (.ofNat offset)).stop.toNat = offset + s.span.stop.toNat :=
    Span.toNat_stop_shift (by omega)
  have hbytes := EncodedPart.toNat_byteCount hsound hlength
  rw [fits, Bool.and_eq_true, decide_eq_true_eq, beq_iff_eq]
  exact ⟨by simp only [hend]; omega, hbytes.symm⟩

/-- The pieces of a part are its stretches. -/
theorem pieces_of_laid (hlaid : Laid stretches blocks) (hblocks : blocks ≤ maskBlocks) :
    (EncodedPart.ofStretches stretches).pieces = stretches.map fun s => (s.span, s.bytes) := by
  have hmask : maskBlocks = 8160 := rfl
  refine EncodedPart.divide_ofStretches hlaid.sound [] rfl ?_
  have hwords := hlaid.length_words_le
  rw [List.nil_append, Stretch.flatMap_bytes, Stretch.length_flatMap_u32]
  omega

theorem fits_pieces (hlaid : Laid stretches blocks) (hfits : offset + blocks ≤ block.capacity)
    (hcapacity : block.capacity ≤ maskBlocks) :
    ∀ piece ∈ (EncodedPart.ofStretches stretches).pieces,
      block.fits (.ofNat offset) piece = true := by
  rw [pieces_of_laid hlaid (by omega)]
  intro piece hpiece
  obtain ⟨s, hs, rfl⟩ := List.mem_map.1 hpiece
  exact fits_of_laid hlaid hfits hcapacity hs

theorem Carries.push (h : block.Carries entries) (hlaid : Laid stretches blocks)
    (hfits : offset + blocks ≤ block.capacity) (hcapacity : block.capacity ≤ maskBlocks) :
    ∃ next, block.push (.ofNat offset) (.ofStretches stretches) = pure next ∧
      next.Carries (entries ++ (stretches.flatMap Stretch.entries).map (moved offset)) ∧
      next.capacity = block.capacity := by
  have hmask : maskBlocks = 8160 := rfl
  have hpieces := pieces_of_laid hlaid (show blocks ≤ maskBlocks by omega)
  have hkept := List.filter_eq_self.2 (fits_pieces hlaid hfits hcapacity)
  rw [hpieces] at hkept
  let next : ValuesBlock := { block with
    mask := (stretches.flatMap fun s => (s.span.shift (.ofNat offset)).blocks).foldl
      BlockMask.mark block.mask
    data := block.data ++ stretches.flatMap Stretch.bytes }
  have hpush : block.push (.ofNat offset) (.ofStretches stretches) = pure next := by
    simp only [ValuesBlock.push, hpieces, hkept, next, List.foldl_flatMap, List.foldl_map,
      List.flatMap_map, Nat.sub_self]
    rfl
  refine ⟨next, hpush, { mask_eq := ?_, data_eq := ?_ }, rfl⟩
  · rw [List.map_append, BlockMask.marks, List.foldl_append, ← BlockMask.marks, ← h.mask_eq,
      hlaid.map_fst_moved (by omega)]
  · rw [List.flatMap_append, ← h.data_eq, hlaid.flatMap_moved]

end ValuesBlock

end ObjectSync
