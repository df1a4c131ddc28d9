import ObjectSync.Proofs.State.Parts

/-!
# Nothing is lost in encoding

The encoder never fails. Where a span ends outside the capacity or its data are cut short it drops
the span, and a mask too long for its count byte would be announced as the longest. Here stands an
encoder beside it that gives up in these places (`ValuesBlock.push?`, `ValuesBlock.bytes?`), and also
when the mask refuses a span.

**`Settings.lossless`** says that the two agree: whatever compiled under some settings, and whatever
layout was accepted under them, the encoder that gives up has the same bytes, and their count is
within the limit of the settings. A bound that is checked once carries this, since a record sends no
block behind those of its schema, and no part of a layout ends behind its total. The widths of the
tables have to be sizes: one that is wider may have a span behind its blocks
(`Settings.not_lossless_of_wrap`).
-/

namespace ObjectSync

/-! ## An encoder that gives up -/

namespace ValuesBlock

/-- Takes a span with its data, if all its data are there, it ends below the capacity, and the mask
can announce it. -/
def take? (block : ValuesBlock) (offset : Size) (piece : Span × Bytes) : Option ValuesBlock :=
  if block.fits offset piece then
    match block.mask.insertSpan piece.1 offset with
    | (true, mask) => some { block with mask, data := block.data ++ piece.2 }
    | (false, _) => none
  else none

def push? (block : ValuesBlock) (offset : Size) (part : EncodedPart) : Option ValuesBlock :=
  part.pieces.foldlM (take? · offset ·) block

/-- The mask, if its count byte can measure it, then the data. -/
def bytes? (block : ValuesBlock) : Option Bytes :=
  if block.mask.words.length ≤ maskWords then some block.bytes else none

/-- The records as one values block, each moved up to where it is put. -/
def encode? (onlyDirty : Bool) (records : List (Nat × Record)) (capacity : Nat) : Option Bytes := do
  let block ← records.foldlM
    (fun block p => push? block (.ofNat p.1) (p.2.encode onlyDirty)) { capacity }
  block.bytes?

end ValuesBlock

def Record.marshal? (record : Record) (onlyDirty : Bool) : Option Bytes :=
  ValuesBlock.encode? onlyDirty [(0, record)] record.schema.blocks

def Layout.marshal? (layout : Layout) (records : List Record) (onlyDirty : Bool) : Option Bytes :=
  ValuesBlock.encode? onlyDirty (taken layout.placed records) layout.total

namespace ValuesBlock

variable {block : ValuesBlock} {entries : List (Nat × UInt32)} {offset : Size} {onlyDirty : Bool}

/-- Below a capacity that can be announced, the mask refuses no span that fits. -/
theorem take?_eq_some (hcapacity : block.capacity ≤ maskBlocks) {piece : Span × Bytes}
    (hfits : block.fits offset piece = true) :
    block.take? offset piece = some { block with
      mask := block.mask.markSpan (piece.1.shift offset)
      data := block.data ++ piece.2 } := by
  have hstop : (piece.1.shift offset).stop.toNat ≤ block.capacity := by
    rw [fits, Bool.and_eq_true, decide_eq_true_eq] at hfits
    exact hfits.1
  rw [take?, if_pos hfits, BlockMask.insertSpan, if_pos (Nat.le_trans hstop hcapacity)]

theorem foldlM_take? (hcapacity : block.capacity ≤ maskBlocks) {pieces : List (Span × Bytes)}
    (hfits : ∀ piece ∈ pieces, block.fits offset piece = true) :
    pieces.foldlM (take? · offset ·) block = some { block with
      mask := pieces.foldl (fun mask piece => mask.markSpan (piece.1.shift offset)) block.mask
      data := block.data ++ pieces.flatMap (·.2) } := by
  induction pieces generalizing block with
  | nil =>
    rw [List.flatMap_nil, List.append_nil]
    rfl
  | cons piece pieces ih =>
    obtain ⟨hfirst, hrest⟩ := List.forall_mem_cons.1 hfits
    let next : ValuesBlock := { block with
      mask := block.mask.markSpan (piece.1.shift offset)
      data := block.data ++ piece.2 }
    have hnext := @ih next hcapacity hrest
    rw [List.foldlM_cons, take?_eq_some hcapacity hfirst, List.flatMap_cons, ← List.append_assoc]
    exact hnext

/-- When all spans fit, none is dropped. -/
theorem push?_eq_some (hcapacity : block.capacity ≤ maskBlocks) {part : EncodedPart}
    (hfits : ∀ piece ∈ part.pieces, block.fits offset piece = true) :
    block.push? offset part = some (block.push offset part).value := by
  rw [push?, foldlM_take? hcapacity hfits, push, List.filter_eq_self.2 hfits]

/-- Records that end below the capacity are taken without giving up. -/
theorem foldlM_push? {records : List (Nat × Record)} (h : block.Carries entries)
    (hsound : ∀ p ∈ records, p.2.Sound)
    (hfits : ∀ p ∈ records, p.1 + p.2.schema.blocks ≤ block.capacity)
    (hcapacity : block.capacity ≤ maskBlocks) (onlyDirty : Bool) :
    ∃ next, records.foldlM (fun block p => push? block (.ofNat p.1) (p.2.encode onlyDirty)) block =
        some next ∧
      next.Carries (entries ++ Layout.entriesOf onlyDirty records) := by
  induction records generalizing block entries with
  | nil =>
    refine ⟨block, rfl, ?_⟩
    exact (List.append_nil entries).symm ▸ h
  | cons p records ih =>
    obtain ⟨hrecord, hrecords⟩ := List.forall_mem_cons.1 hsound
    obtain ⟨hfirst, hrest⟩ := List.forall_mem_cons.1 hfits
    obtain ⟨first, hpush, hcarries, hsame⟩ :=
      h.push (hrecord.laid onlyDirty) hfirst hcapacity
    have hpieces : ∀ piece ∈ (p.2.encode onlyDirty).pieces,
        block.fits (.ofNat p.1) piece = true := by
      rw [Record.encode_eq]
      exact fits_pieces (hrecord.laid onlyDirty) hfirst hcapacity
    obtain ⟨next, hnext, hcarries'⟩ := ih hcarries hrecords (by rwa [hsame]) (by rwa [hsame])
    refine ⟨next, ?_, ?_⟩
    · rw [List.foldlM_cons, push?_eq_some hcapacity hpieces, Record.encode_eq, hpush]
      exact hnext
    · rwa [List.append_assoc] at hcarries'

/-- Giving up does not happen, and the bytes are those of any values block with the same entries. -/
theorem encode?_eq_some {records : List (Nat × Record)} {capacity : Nat}
    (h : block.Carries (Layout.entriesOf onlyDirty records)) (hsound : ∀ p ∈ records, p.2.Sound)
    (hfits : ∀ p ∈ records, p.1 + p.2.schema.blocks ≤ capacity) (hcapacity : capacity ≤ maskBlocks) :
    encode? onlyDirty records capacity = some block.bytes := by
  obtain ⟨next, hnext, hcarries⟩ :=
    foldlM_push? (.empty capacity) hsound hfits hcapacity onlyDirty
  rw [List.nil_append] at hcarries
  have hblocks : ∀ entry ∈ Layout.entriesOf onlyDirty records, entry.1 < maskBlocks := by
    intro entry hentry
    obtain ⟨p, hp, hlt⟩ := Layout.fst_entriesOf hsound hentry
    exact Nat.lt_of_lt_of_le hlt (Nat.le_trans (hfits p hp) hcapacity)
  rw [encode?, hnext, ← hcarries.bytes_eq h]
  exact if_pos (hcarries.length_mask_le hblocks)

/-! ## The count byte -/

/-- The count of the bytes is within the limit of the settings, and it is that of the highest block
that a receiver reads. -/
def Measured (settings : Settings) (bytes : Bytes) : Prop :=
  ∃ count rest entries, bytes = count :: rest ∧ reader.run bytes = some (entries, []) ∧
    count ≤ settings.maxMaskWords ∧ (entries = [] → count = 0) ∧
    ∀ last ∈ entries.map Prod.fst, (∀ block ∈ entries.map Prod.fst, block ≤ last) →
      count.toNat = last / blockBits + 1

theorem Carries.measured {settings : Settings} (h : block.Carries entries)
    (hsorted : (entries.map Prod.fst).Pairwise (· < ·))
    (hblocks : ∀ entry ∈ entries, entry.1 < settings.maxBlocks) :
    Measured settings block.bytes := by
  have hmask : ∀ entry ∈ entries, entry.1 < maskBlocks := fun entry hentry =>
    Nat.lt_of_lt_of_le (hblocks entry hentry) settings.maxBlocks_le
  have hread := h.reads hsorted hmask []
  rw [List.append_nil] at hread
  have hlength : block.mask.words.length ≤ min settings.maxMaskWords.toNat maskWords := by
    rw [h.mask_eq]
    refine BlockMask.length_marks_le fun k hk => ?_
    obtain ⟨entry, hentry, rfl⟩ := List.mem_map.1 hk
    exact hblocks entry hentry
  have hcount := BlockMask.toNat_count (h.length_mask_le hmask)
  refine ⟨_, _, entries, rfl, hread, ?_, ?_, ?_⟩
  · rw [UInt8.le_iff_toNat_le, hcount]
    omega
  · rintro rfl
    rw [h.mask_eq]
    rfl
  · intro last hlast hhighest
    rw [hcount, h.mask_eq]
    exact BlockMask.length_marks hlast hhighest

end ValuesBlock

/-! ## Compiled schemas and accepted layouts -/

/-- The encoder that gives up has the same bytes, no span is reported as dropped, and the count is
within the limit. -/
structure Lossless {α : Type} (settings : Settings) (checked : Option Bytes)
    (sent : Logged (Bytes × α)) : Prop where
  checked : checked = some sent.value.1
  quiet : .spanDropped ∉ sent.notices
  measured : ValuesBlock.Measured settings sent.value.1

theorem Record.Sound.lossless_of_le {settings : Settings} {record : Record} (h : record.Sound)
    (hblocks : record.schema.blocks ≤ settings.maxBlocks) (onlyDirty : Bool) :
    Lossless settings (record.marshal? onlyDirty) (record.marshal onlyDirty) := by
  obtain ⟨block, hmarshal, hcarries⟩ := h.marshal_eq onlyDirty
  rw [hmarshal]
  constructor
  case checked =>
    have hentries : Layout.entriesOf onlyDirty [(0, record)] = record.entries onlyDirty := by
      rw [Layout.entriesOf, List.flatMap_singleton, moved_zero, List.map_id]
    exact ValuesBlock.encode?_eq_some (hentries.symm ▸ hcarries) (List.forall_mem_singleton.2 h)
      (List.forall_mem_singleton.2 (Nat.le_of_eq (Nat.zero_add _))) h.schema.blocks_le
  case quiet => exact List.not_mem_nil
  case measured =>
    exact hcarries.measured (h.pairwise_entries onlyDirty) fun entry hentry =>
      Nat.lt_of_lt_of_le (h.entry_lt onlyDirty entry hentry) hblocks

theorem Layout.lossless_of_sound {settings : Settings} {layout : Layout} {records : List Record}
    (hlayout : layout.Accepted settings)
    (hsound : ∀ p ∈ taken layout.placed records, p.2.Sound) (onlyDirty : Bool) :
    Lossless settings (layout.marshal? records onlyDirty) (layout.marshal records onlyDirty) := by
  have hmask := hlayout.fits
  obtain ⟨block, hvalue, hnotices, hcarries⟩ := marshal_eq hmask hsound onlyDirty
  have hfits : ∀ p ∈ taken layout.placed records, p.1 + p.2.schema.blocks ≤ layout.total := by
    intro p hp
    obtain ⟨i, _, hplace⟩ := mem_taken.1 hp
    exact hmask.summed.le_total (List.mem_of_getElem? hplace)
  constructor
  case checked =>
    rw [hvalue]
    exact ValuesBlock.encode?_eq_some hcarries hsound hfits hmask.total_le
  case quiet =>
    rw [hnotices]
    intro hmem
    cases eq_of_mem_mismatches hmem
  case measured =>
    rw [hvalue]
    exact hcarries.measured (pairwise_sent hmask.summed hsound)
      fun entry hentry =>
        Nat.lt_of_lt_of_le (fst_lt_total hmask.summed hsound entry hentry) hlayout.total_le

namespace Settings

/-- Whatever operations made the records, neither one of them alone nor those of a composite lose a
span, and the mask keeps the limit under which the schema compiled or the layout was accepted. -/
theorem lossless (settings : Settings) (onlyDirty : Bool) :
    (∀ name table schema steps, FitsSize table →
      Schema.compile settings name table = .ok schema →
      let record := Record.reached schema steps
      Lossless settings (record.marshal? onlyDirty) (record.marshal onlyDirty)) ∧
    ∀ (layout : Layout) (records : List Record), layout.Accepted settings →
      (∀ i record, records[i]? = some record →
        layout.blocks? i = some record.schema.blocks → record.Reachable) →
      Lossless settings (layout.marshal? records onlyDirty) (layout.marshal records onlyDirty) := by
  constructor
  · intro name table schema steps hfits hcompile record
    refine (Record.sound_reached hfits hcompile steps).lossless_of_le ?_ onlyDirty
    rw [Record.schema_reached]
    exact (Layout.Accepted.single hcompile).total_le
  · intro layout records hlayout hrecords
    exact Layout.lossless_of_sound hlayout (Layout.sound_taken hrecords) onlyDirty

/-- A part as large as the one word of the mask that the settings allow, changed in its last
block, alone and as the only part of a composite. -/
theorem lossless_full :
    let settings : Settings := { maxMaskWords := 1 }
    let table : List Field := [.array "a" .u32 32]
    FitsSize table ∧ ∃ schema, Schema.compile settings "T" table = .ok schema ∧
      schema.blocks = settings.maxBlocks ∧
      let record := Record.reached schema [.edit (.setAt 0 31 (.u32 7))]
      let layout := Layout.single schema
      layout.Accepted settings ∧
        (∀ i record', [record][i]? = some record' →
          layout.blocks? i = some record'.schema.blocks → record'.Reachable) ∧
        Lossless settings (record.marshal? true) (record.marshal true) ∧
        Lossless settings (layout.marshal? [record] true) (layout.marshal [record] true) := by
  intro settings table
  obtain ⟨schema, hcompile, hblocks⟩ : ∃ schema,
      Schema.compile settings "T" table = .ok schema ∧ schema.blocks = settings.maxBlocks :=
    ⟨_, rfl, rfl⟩
  have hfits : FitsSize table := by decide
  refine ⟨hfits, schema, hcompile, hblocks, ?_⟩
  intro record layout
  have haccepted : layout.Accepted settings := .single hcompile
  have hrecords : ∀ i record', [record][i]? = some record' →
      layout.blocks? i = some record'.schema.blocks → record'.Reachable := by
    intro i record' hrecord _
    obtain rfl := List.mem_singleton.1 (List.mem_of_getElem? hrecord)
    exact Record.reachable_reached hfits hcompile _
  have hboth := lossless settings true
  exact ⟨haccepted, hrecords, hboth.1 "T" table schema _ hfits hcompile,
    hboth.2 layout [record] haccepted hrecords⟩

/-- A field in front of 2⁶⁹ - 32 bits of padding, in pieces that are sizes. -/
def paddedTable : List Field :=
  .scalar "a" .u32 :: List.replicate 32 (.padding .bool 18446744073709551584)
    ++ [.padding .bool 992]

/-- The blocks of a table that is wider than any size may be counted as none. Its field lies behind
them, and when it is sent its span is dropped. -/
theorem not_lossless_of_wrap :
    ∃ schema, Schema.compile {} "T" paddedTable = .ok schema ∧
      let record := Record.reached schema [.edit (.set 0 (.u32 7))]
      ¬Lossless {} (record.marshal? true) (record.marshal true) := by
  have hdropped : (Schema.compile {} "T" paddedTable).toOption.map (fun schema =>
      ((Record.reached schema [.edit (.set 0 (.u32 7))]).marshal true).notices) =
      some [.spanDropped] := by decide +kernel
  obtain ⟨schema, hcompile, hnotices⟩ := Schema.exists_of_compile hdropped
  refine ⟨schema, hcompile, fun hlossless => hlossless.quiet ?_⟩
  rw [hnotices]
  exact List.mem_singleton_self _

end Settings

end ObjectSync
