import Mathlib.Data.List.Sort
import ObjectSync.Proofs.Declaration.Verdict

/-!
# Sections and padding tile the blocks

A compiled table leaves no block out and uses none twice: the spans of its sections and those of
nothing but padding, taken by their start, follow one another from the first block to the last. In
the same way the slots of the named fields follow one another in the order of the table.
`Schema.Tiled` says so, and what it means for the fields: where each starts, and which section and
which blocks it is found in.

**`Schema.compile_tiled`** says that a table is compiled to such a schema, if its width is a size.
The invariant is `Scan.Tiled`: up to the last cut everything is tiled already.
-/

namespace ObjectSync

/-! ## Ranges that follow one another -/

/-- Ranges, each told by its start and its length, follow one another from `first` up to `last`. -/
def Abutting : (first : Nat) → List (Nat × Nat) → (last : Nat) → Prop
  | first, [], last => first = last
  | first, range :: rest, last => range.1 = first ∧ Abutting (first + range.2) rest last

namespace Abutting

variable {first last length : Nat} {ranges : List (Nat × Nat)}

/-- One more range, where the others end. -/
theorem concat (h : Abutting first ranges last) :
    Abutting first (ranges ++ [(last, length)]) (last + length) := by
  induction ranges generalizing first with
  | nil =>
    obtain rfl : first = last := h
    exact ⟨rfl, rfl⟩
  | cons range rest ih => exact ⟨h.1, ih h.2⟩

theorem first_le (h : Abutting first ranges last) : ∀ range ∈ ranges, first ≤ range.1 := by
  induction ranges generalizing first with
  | nil => simp
  | cons range rest ih =>
    intro range' hrange'
    rcases List.mem_cons.1 hrange' with rfl | hrest
    · exact Nat.le_of_eq h.1.symm
    · have hle := ih h.2 range' hrest
      omega

/-- Of two ranges the first ends before the other starts. -/
theorem pairwise (h : Abutting first ranges last) :
    ranges.Pairwise fun range next => range.1 + range.2 ≤ next.1 := by
  induction ranges generalizing first with
  | nil => exact .nil
  | cons range rest ih =>
    refine List.pairwise_cons.2 ⟨fun next hnext => ?_, ih h.2⟩
    have hle := first_le h.2 next hnext
    rwa [← h.1] at hle

theorem first_le_last (h : Abutting first ranges last) : first ≤ last := by
  induction ranges generalizing first with
  | nil => exact Nat.le_of_eq h
  | cons range rest ih => exact Nat.le_trans (Nat.le_add_right first range.2) (ih h.2)

theorem le_last (h : Abutting first ranges last) :
    ∀ range ∈ ranges, range.1 + range.2 ≤ last := by
  induction ranges generalizing first with
  | nil => simp
  | cons range rest ih =>
    intro range' hrange'
    rcases List.mem_cons.1 hrange' with rfl | hrest
    · rw [h.1]
      exact first_le_last h.2
    · exact ih h.2 range' hrest

theorem exists_range (h : Abutting first ranges last) {k : Nat} (hfirst : first ≤ k)
    (hlast : k < last) : ∃ range ∈ ranges, range.1 ≤ k ∧ k < range.1 + range.2 := by
  induction ranges generalizing first with
  | nil =>
    obtain rfl : first = last := h
    omega
  | cons range rest ih =>
    by_cases hk : k < first + range.2
    · exact ⟨range, List.mem_cons_self, by rw [h.1]; exact ⟨hfirst, hk⟩⟩
    · obtain ⟨range', hmem, hrange'⟩ := ih h.2 (Nat.le_of_not_lt hk)
      exact ⟨range', List.mem_cons_of_mem _ hmem, hrange'⟩

/-- Each place from the first to the last is in exactly one of the ranges. Empty ranges, of which
many may start at the same place, have no place in them. -/
theorem existsUnique_range (h : Abutting first ranges last) {k : Nat} (hfirst : first ≤ k)
    (hlast : k < last) :
    ∃! i : Nat, ∃ range, ranges[i]? = some range ∧ range.1 ≤ k ∧ k < range.1 + range.2 := by
  obtain ⟨range, hmem, hrange⟩ := h.exists_range hfirst hlast
  obtain ⟨i, hi⟩ := List.getElem?_of_mem hmem
  refine ⟨i, ⟨range, hi, hrange⟩, ?_⟩
  rintro j ⟨range', hj, hrange'⟩
  -- of two ranges with the place in them, the first would end before the other starts
  have hapart := List.pairwise_iff_getElem.1 h.pairwise
  obtain ⟨hi', rfl⟩ := List.getElem?_eq_some_iff.1 hi
  obtain ⟨hj', rfl⟩ := List.getElem?_eq_some_iff.1 hj
  rcases Nat.lt_trichotomy i j with hlt | rfl | hlt
  · have hle := hapart i j hi' hj' hlt
    omega
  · rfl
  · have hle := hapart j i hj' hi' hlt
    omega

end Abutting

namespace Span

/-- The first block and the number of blocks. -/
def range (s : Span) : Nat × Nat := (s.start.toNat, s.count.toNat)

/-- The spans by their start. -/
def sorted (spans : List Span) : List Span :=
  spans.mergeSort fun s next => s.start.toNat ≤ next.start.toNat

/-- Spans that follow one another are sorted. -/
theorem sorted_eq {spans unsorted : List Span} {first last : Nat} (hperm : spans.Perm unsorted)
    (h : Abutting first (spans.map range) last) (hpos : ∀ s ∈ spans, 0 < s.count.toNat) :
    sorted unsorted = spans := by
  have hapart := List.pairwise_map.1 h.pairwise
  have hlt : spans.Pairwise fun s next => s.start.toNat < next.start.toNat := by
    refine hapart.imp_of_mem fun {s next} hs _ hle => ?_
    have hcount := hpos s hs
    simp only [range] at hle
    omega
  have hstarts : (spans.map fun s => s.start.toNat).Nodup :=
    (List.pairwise_map.2 hlt).imp Nat.ne_of_lt
  refine List.Perm.eq_of_pairwise (fun s t hs ht hle hge => ?_)
    (List.pairwise_mergeSort (by simp; omega) (by simp; omega) unsorted)
    (hlt.imp fun h => by simp; omega) ((List.mergeSort_perm _ _).trans hperm.symm)
  have hs' : s ∈ spans := hperm.mem_iff.2 ((List.mergeSort_perm _ _).mem_iff.1 hs)
  simp only [decide_eq_true_eq] at hle hge
  exact List.inj_on_of_nodup_map hstarts hs' ht (Nat.le_antisymm hle hge)

end Span

/-! ## Tiled schemas -/

namespace Schema

/-- The spans of sections and of padding, by their start. -/
def spans (schema : Schema) : List Span :=
  Span.sorted (schema.sections.map Section.span ++ schema.padding)

/-- The slots of the named fields, in the order of the table. -/
def slotRanges (placements : List Placement) : List (Nat × Nat) :=
  (placements.filter (! ·.field.isPadding)).map fun p => (p.slot.toNat, p.field.length.toNat)

theorem slotRanges_concat (placements : List Placement) (p : Placement) :
    slotRanges (placements ++ [p]) = slotRanges placements ++
      if p.field.isPadding then [] else [(p.slot.toNat, p.field.length.toNat)] := by
  rw [slotRanges, List.filter_append, List.map_append, ← slotRanges]
  cases hp : p.field.isPadding <;> simp [hp]

/-- The blocks and the slots are divided up among the fields, and nothing is left over. -/
structure Tiled (schema : Schema) (fields : List Field) : Prop where
  /-- The spans follow one another from the first block to the last. -/
  abutting : Abutting 0 (schema.spans.map Span.range) schema.blocks
  count_pos : ∀ s ∈ schema.spans, 0 < s.count.toNat
  /-- The sections are listed by their start. -/
  ascending : schema.sections.Pairwise fun part next =>
    part.span.start.toNat < next.span.start.toNat
  fields_eq : schema.placements.map Placement.field = fields
  /-- A field starts where all entries before it, padding included, end. -/
  offset_eq : ∀ (k : Nat) (p : Placement), schema.placements[k]? = some p →
    p.offset.toNat = bitsBefore fields k
  /-- A section lists named fields, at least one, in the order of the table. -/
  listed : ∀ part ∈ schema.sections, part.fields ≠ [] ∧ part.fields.Pairwise (· < ·) ∧
    ∀ k ∈ part.fields, ∃ p, schema.placements[k]? = some p ∧ p.field.isPadding = false
  /-- A named field with bits is listed in exactly one section, and lies in its blocks. -/
  housed : ∀ (k : Nat) (p : Placement), schema.placements[k]? = some p →
    p.field.isPadding = false → 0 < p.field.room →
    ∃ (i : Nat) (part : Section), schema.sections[i]? = some part ∧ k ∈ part.fields ∧
      (∀ (j : Nat) (other : Section), schema.sections[j]? = some other → k ∈ other.fields → j = i) ∧
      part.span.start.toNat * blockBits ≤ p.offset.toNat ∧
      p.offset.toNat + p.field.room ≤
        (part.span.start.toNat + part.span.count.toNat) * blockBits
  /-- No bit of a named field lies in blocks of padding. -/
  skipped : ∀ s ∈ schema.padding, ∀ p ∈ schema.placements, p.field.isPadding = false →
    ∀ bit, p.offset.toNat ≤ bit → bit < p.offset.toNat + p.field.room →
      bit < s.start.toNat * blockBits ∨ (s.start.toNat + s.count.toNat) * blockBits ≤ bit
  /-- The slots of the named fields follow one another from the first slot to the last. -/
  slots : Abutting 0 (slotRanges schema.placements) schema.slotCount

end Schema

/-! ## The scan -/

namespace Scan

/-- The spans up to the last cut. -/
def spans (scan : Scan) : List Span := scan.sections.map Section.span ++ scan.padding

/-- The blocks that a cut takes. -/
def cutSpan (scan : Scan) : Span := { start := scan.block, count := scan.run / .ofNat blockBits }

theorem spans_closed (scan : Scan) : scan.closed.spans.Perm (scan.spans ++ [scan.cutSpan]) := by
  by_cases huncut : scan.uncut = []
  · rw [closed_of_nil huncut, spans, spans, List.append_assoc]
    rfl
  · rw [closed_of_ne_nil huncut, spans, spans, List.map_append, List.append_assoc,
      List.append_assoc]
    exact List.perm_append_comm.append_left _

theorem count_cutSpan_pos {scan : Scan} (hrun : blockBits ≤ scan.run.toNat) :
    0 < scan.cutSpan.count.toNat := by
  have hbits : (UInt64.ofNat blockBits).toNat = blockBits := rfl
  rw [cutSpan, UInt64.toNat_div, hbits]
  exact Nat.div_pos hrun (by decide)

/-- The blocks up to the last cut and the slots up to the last field are divided up. -/
structure Tiled (scan : Scan) (before : List Field) : Prop where
  abutting : ∃ spans : List Span, spans.Perm scan.spans ∧
    Abutting 0 (spans.map Span.range) scan.block.toNat
  count_pos : ∀ s ∈ scan.spans, 0 < s.count.toNat
  offset_eq : ∀ (k : Nat) (p : Placement), scan.placements[k]? = some p →
    p.offset.toNat = Schema.bitsBefore before k
  slots : Abutting 0 (Schema.slotRanges scan.placements) scan.slot.toNat
  sorted_uncut : scan.uncut.Pairwise (· < ·)
  listed : ∀ part ∈ scan.sections, part.fields ≠ [] ∧ part.fields.Pairwise (· < ·)

namespace Tiled

variable {name : String} {scan next : Scan} {field : Field} {before : List Field}

theorem start : Tiled {} [] where
  abutting := ⟨[], .nil, rfl⟩
  count_pos := by simp [spans]
  offset_eq := by simp
  slots := rfl
  sorted_uncut := .nil
  listed := by simp

/-- The field starts where those before it end. -/
theorem offset_eq_put (h : scan.Tiled before) (hbehind : scan.Behind before) (field : Field)
    (k : Nat) (p : Placement) (hp : (scan.put field).placements[k]? = some p) :
    p.offset.toNat = Schema.bitsBefore (before ++ [field]) k := by
  have hlength : scan.placements.length = before.length := by
    rw [← hbehind.fields_eq, List.length_map]
  obtain ⟨home, hplacements⟩ := scan.placements_put field
  rw [hplacements] at hp
  rcases Gathered.getElem?_concat.1 hp with hold | ⟨rfl, rfl⟩
  · have hlt := (List.getElem?_eq_some_iff.1 hold).1
    rw [h.offset_eq k p hold, Schema.bitsBefore, Schema.bitsBefore,
      List.take_append_of_le_length (by omega)]
  · rw [hlength, Schema.bitsBefore, List.take_left]
    exact hbehind.offset_eq

theorem put (h : scan.Tiled before) (hbehind : scan.Behind before) (hstop : field.isStop = false)
    (hroom : scan.offset.toNat + field.room < 2 ^ 64) :
    (scan.put field).Tiled (before ++ [field]) := by
  have hoffsets := h.offset_eq_put hbehind field
  have hslot := toNat_slot_put hbehind.sound hstop hroom
  cases hp : field.isPadding with
  | true =>
    rw [Field.slots_of_padding hp] at hslot
    rw [put_of_padding hp] at hoffsets hslot ⊢
    exact {
      abutting := h.abutting
      count_pos := h.count_pos
      offset_eq := hoffsets
      slots := by
        rw [Schema.slotRanges_concat, if_pos hp, List.append_nil]
        exact h.slots
      sorted_uncut := h.sorted_uncut
      listed := h.listed }
  | false =>
    rw [Field.slots_of_named hp] at hslot
    rw [put_of_named hp] at hoffsets hslot ⊢
    exact {
      abutting := h.abutting
      count_pos := h.count_pos
      offset_eq := hoffsets
      slots := by
        rw [hslot, Schema.slotRanges_concat, if_neg (by rw [hp]; decide)]
        exact h.slots.concat
      sorted_uncut := by
        refine List.pairwise_append.2 ⟨h.sorted_uncut, List.pairwise_singleton _ _, ?_⟩
        intro k hk k' hk'
        obtain rfl := List.mem_singleton.1 hk'
        obtain ⟨p, hp, _⟩ := (hbehind.sound.uncut.mem_iff k).1 hk
        exact (List.getElem?_eq_some_iff.1 hp).1
      listed := h.listed }

/-- A section that a cut makes lists the uncut fields. -/
theorem listed_closed (h : scan.Tiled before) :
    scan.closed.uncut.Pairwise (· < ·) ∧
      ∀ part ∈ scan.closed.sections, part.fields ≠ [] ∧ part.fields.Pairwise (· < ·) := by
  by_cases huncut : scan.uncut = []
  · rw [closed_of_nil huncut]
    exact ⟨h.sorted_uncut, h.listed⟩
  · rw [closed_of_ne_nil huncut]
    refine ⟨.nil, fun part hpart => ?_⟩
    rcases List.mem_append.1 hpart with hold | hnew
    · exact h.listed part hold
    · obtain rfl := List.mem_singleton.1 hnew
      exact ⟨huncut, h.sorted_uncut⟩

/-- The blocks that a cut takes follow those up to the cut before. -/
theorem closed (h : scan.Tiled before) (hsound : scan.Sound)
    (hrun : blockBits ≤ scan.run.toNat) (hspill : scan.run % .ofNat blockBits = 0) :
    scan.closed.Tiled before := by
  obtain ⟨hstop, _⟩ := hsound.toNat_cut hspill
  obtain ⟨spans, hperm, habutting⟩ := h.abutting
  obtain ⟨hsorted, hlisted⟩ := h.listed_closed
  have hspans := scan.spans_closed
  exact {
    abutting := by
      refine ⟨spans ++ [scan.cutSpan], (hperm.append_right _).trans hspans.symm, ?_⟩
      rw [block_closed, hstop, List.map_append]
      exact habutting.concat
    count_pos := by
      intro s hs
      rcases List.mem_append.1 (hspans.mem_iff.1 hs) with hold | hnew
      · exact h.count_pos s hold
      · obtain rfl := List.mem_singleton.1 hnew
        exact count_cutSpan_pos hrun
    offset_eq := by
      rw [placements_closed]
      exact h.offset_eq
    slots := by
      rw [placements_closed, slot_closed]
      exact h.slots
    sorted_uncut := hsorted
    listed := hlisted }

theorem place (h : scan.Tiled before) (hbehind : scan.Behind before) (hstop : field.isStop = false)
    (hroom : scan.offset.toNat + field.room < 2 ^ 64)
    (hplace : scan.place name field = .ok next) : next.Tiled (before ++ [field]) := by
  have hput := h.put hbehind hstop hroom
  obtain ⟨_, ⟨_, rfl⟩ | ⟨hrun, hspill, rfl⟩⟩ := place_eq_ok_iff.1 hplace
  · exact hput
  · exact hput.closed (hbehind.sound.put hstop hroom) hrun hspill

theorem foldlM {fields : List Field} (hstop : ∀ field ∈ fields, field.isStop = false)
    (hroom : Field.roomOf fields < 2 ^ 64) (hfold : fields.foldlM (Scan.place name) {} = .ok scan) :
    scan.Behind fields ∧ scan.Tiled fields := by
  refine Behind.foldlM_of_place (P := fun before scan => scan.Tiled before) hstop hroom start ?_
    hfold
  intro before field scan next hbehind h hfield hbound hplace
  exact h.place hbehind hfield hbound hplace

end Tiled

end Scan

/-! ## Compiled tables -/

namespace Schema

variable {settings : Settings} {name : String} {table : List Field} {schema : Schema}

theorem scan_tiled (hfits : FitsSize table) (hcompile : compile settings name table = .ok schema) :
    ∃ scan : Scan, scan.Behind (declared table) ∧ scan.Tiled (declared table) ∧
      schema = scan.schema settings name := by
  obtain ⟨scan, hfold, _, _, rfl⟩ := compile_eq_ok_iff.1 hcompile
  obtain ⟨hbehind, htiled⟩ := Scan.Tiled.foldlM (fun _ => isStop_of_mem_declared) hfits hfold
  exact ⟨scan, hbehind, htiled, rfl⟩

/-- Every section takes a block. -/
theorem count_pos_of_compile (hfits : FitsSize table)
    (hcompile : compile settings name table = .ok schema) :
    ∀ part ∈ schema.sections, 0 < part.span.count.toNat := by
  obtain ⟨scan, _, htiled, rfl⟩ := scan_tiled hfits hcompile
  intro part hpart
  exact htiled.count_pos part.span (List.mem_append_left _ (List.mem_map_of_mem hpart))

/-- A field begins where the fields in front of it end. -/
theorem offset_of_compile (hfits : FitsSize table)
    (hcompile : compile settings name table = .ok schema) {k : Nat} {p : Placement}
    (hk : schema.placements[k]? = some p) :
    p.offset.toNat = bitsBefore (declared table) k := by
  obtain ⟨scan, _, htiled, rfl⟩ := scan_tiled hfits hcompile
  exact htiled.offset_eq k p hk

namespace Sound

/-- Of sections that lie one behind the other, each starts before the next. -/
theorem pairwise_start (h : schema.Sound)
    (hcount : ∀ part ∈ schema.sections, 0 < part.span.count.toNat) {sections : List Section}
    (hsections : ∀ part ∈ sections, part ∈ schema.sections)
    (hapart : sections.Pairwise fun part next => part.span.stop.toNat ≤ next.span.start.toNat) :
    sections.Pairwise fun part next => part.span.start.toNat < next.span.start.toNat := by
  refine hapart.imp_of_mem fun {part next} hpart _ hle => ?_
  have hstop := h.arranged.stop_eq part (hsections part hpart)
  have hpos := hcount part (hsections part hpart)
  omega

/-- The section of a field is the only one that lists it. -/
theorem section_of_field (h : schema.Sound) {k : Nat} {p : Placement}
    (hk : schema.placements[k]? = some p) (hnamed : p.field.isPadding = false)
    (hroom : 0 < p.field.room) :
    ∃ (i : Nat) (part : Section), schema.sections[i]? = some part ∧ k ∈ part.fields ∧
      (∀ (j : Nat) (other : Section), schema.sections[j]? = some other → k ∈ other.fields → j = i) ∧
      part.span.start.toNat * blockBits ≤ p.offset.toNat ∧
      p.offset.toNat + p.field.room ≤
        (part.span.start.toNat + part.span.count.toNat) * blockBits := by
  have hmem := List.mem_of_getElem? hk
  have hsome := h.arranged.isSome_home p hmem
  rw [hnamed, Bool.not_false] at hsome
  obtain ⟨i, hhome⟩ := Option.isSome_iff_exists.1 hsome
  have hi := h.housed p hmem hroom i hhome
  have hpart := List.getElem?_eq_getElem hi
  have hgathered := h.arranged.gathered i _ hpart
  obtain ⟨hfirst, hlast⟩ := hgathered.inside p hmem hhome
  rw [h.arranged.stop_eq _ (List.mem_of_getElem? hpart)] at hlast
  refine ⟨i, _, hpart, (hgathered.mem_iff k).2 ⟨p, hk, hhome⟩, ?_, hfirst, hlast⟩
  intro j other hother hlisted
  obtain ⟨p', hk', hhome'⟩ := ((h.arranged.gathered j other hother).mem_iff k).1 hlisted
  cases hk.symm.trans hk'
  exact Option.some.inj (hhome'.symm.trans hhome)

end Sound

/-- A compiled table tiles its blocks and its slots. -/
theorem compile_tiled (hfits : FitsSize table)
    (hcompile : compile settings name table = .ok schema) : schema.Tiled (declared table) := by
  have hsound := (compile_sound hfits hcompile).1
  have hcount := count_pos_of_compile hfits hcompile
  obtain ⟨scan, hbehind, htiled, rfl⟩ := scan_tiled hfits hcompile
  obtain ⟨spans, hperm, habutting⟩ := htiled.abutting
  have hpos : ∀ s ∈ spans, 0 < s.count.toNat := fun s hs => htiled.count_pos s (hperm.mem_iff.1 hs)
  have hsorted : (scan.schema settings name).spans = spans := Span.sorted_eq hperm habutting hpos
  have hapart : (scan.sections.map Section.span ++ scan.padding).Pairwise fun s t =>
      s.start.toNat + s.count.toNat ≤ t.start.toNat ∨
        t.start.toNat + t.count.toNat ≤ s.start.toNat := by
    refine (hperm.pairwise_iff Or.symm).1 ?_
    exact (List.pairwise_map.1 habutting.pairwise).imp .inl
  obtain ⟨_, _, hpadding⟩ := List.pairwise_append.1 hapart
  exact {
    abutting := by rw [hsorted]; exact habutting
    count_pos := by rw [hsorted]; exact hpos
    ascending := hsound.pairwise_start hcount (fun _ hpart => hpart) hsound.arranged.apart
    fields_eq := hbehind.fields_eq
    offset_eq := htiled.offset_eq
    listed := by
      intro part hpart
      obtain ⟨hne, hlt⟩ := htiled.listed part hpart
      obtain ⟨i, hi⟩ := List.getElem?_of_mem hpart
      refine ⟨hne, hlt, fun k hk => ?_⟩
      obtain ⟨p, hp, _, hnamed⟩ := hsound.arranged.field_of_section hi hk
      exact ⟨p, hp, hnamed⟩
    housed := fun k p hk hnamed hroom => hsound.section_of_field hk hnamed hroom
    skipped := by
      intro s hs p hp hnamed bit hfirst hlast
      obtain ⟨k, hk⟩ := List.getElem?_of_mem hp
      obtain ⟨i, part, hi, _, _, hstart, hend⟩ :=
        hsound.section_of_field hk hnamed (by omega)
      rcases hpadding part.span (List.mem_map_of_mem (List.mem_of_getElem? hi)) s hs with hle | hle
      · have hmul := Nat.mul_le_mul_right blockBits hle
        omega
      · have hmul := Nat.mul_le_mul_right blockBits hle
        omega
    slots := htiled.slots }

/-- A field that shares its block with padding, a block of padding, a field without elements, which
goes with the one behind it, and one of two blocks. -/
theorem compile_tiled_padded :
    let table : List Field := [.scalar "a" .u16, .padding .u16 1, .padding .u32 1,
      .array "b" .u8 0, .scalar "c" .u64]
    FitsSize table ∧ ∃ schema, compile {} "T" table = .ok schema ∧
      schema.Tiled (declared table) := by
  obtain ⟨schema, hcompile⟩ : ∃ schema, compile {} "T" [.scalar "a" .u16, .padding .u16 1,
      .padding .u32 1, .array "b" .u8 0, .scalar "c" .u64] = .ok schema := ⟨_, rfl⟩
  have hfits : FitsSize [.scalar "a" .u16, .padding .u16 1, .padding .u32 1, .array "b" .u8 0,
      .scalar "c" .u64] := by decide
  exact ⟨hfits, schema, hcompile, compile_tiled hfits hcompile⟩

end Schema

end ObjectSync
