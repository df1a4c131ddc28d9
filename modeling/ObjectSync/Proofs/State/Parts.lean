import ObjectSync.Proofs.Declaration.Layout
import ObjectSync.Proofs.State.Decoding

/-!
# The parts of a composite

A composite takes the records that match their parts and passes over the others. Its values block
carries the words of every record taken, moved up to where the part of the record starts
(`Carries.takeRecords`), and since no part reaches into the next one, these come in ascending order
and are read back (`Layout.reads_marshal`).

**`Layout.sendsParts`** says so of every layout that was accepted and of any list of records: what
is sent is a values block without a byte too many, each of its words is that of the record it comes
from, and a record that was passed over keeps its flags and leaves its place empty. As for a single
record, the tables of the records taken have to be sizes (`Layout.not_sendsParts_of_wrap`).
-/

namespace ObjectSync

namespace Layout

/-! ## Records taken -/

/-- The records that match their parts, each with the first block of its part. -/
def taken (places : List (Nat × Nat)) (records : List Record) : List (Nat × Record) :=
  (places.zip records).filterMap fun (place, record) =>
    if record.schema.blocks = place.2 then some (place.1, record) else none

/-- The notices of the records that do not match their parts. -/
def mismatches (places : List (Nat × Nat)) (records : List Record) : List Notice :=
  (places.zip records).filterMap fun (place, record) =>
    if record.schema.blocks = place.2 then none else some .recordMismatch

/-- The records, after those that match their parts were sent. -/
def left : List (Nat × Nat) → List Record → List Record
  | place :: places, record :: records =>
    (if record.schema.blocks = place.2 then record.clearDirty else record) :: left places records
  | _, records => records

/-- The blocks of the records with their words, each moved up to where its record is put. -/
def entriesOf (onlyDirty : Bool) (records : List (Nat × Record)) : List (Nat × UInt32) :=
  records.flatMap fun p => (p.2.entries onlyDirty).map (moved p.1)

section Taken

variable {place : Nat × Nat} {places : List (Nat × Nat)} {records : List Record} {offset i : Nat}
  {record : Record} {onlyDirty : Bool}

theorem taken_cons_of_match (h : record.schema.blocks = place.2) :
    taken (place :: places) (record :: records) = (place.1, record) :: taken places records := by
  simp [taken, h]

theorem taken_cons_of_mismatch (h : record.schema.blocks ≠ place.2) :
    taken (place :: places) (record :: records) = taken places records := by
  simp [taken, h]

theorem mismatches_cons_of_match (h : record.schema.blocks = place.2) :
    mismatches (place :: places) (record :: records) = mismatches places records := by
  simp [mismatches, h]

theorem mismatches_cons_of_mismatch (h : record.schema.blocks ≠ place.2) :
    mismatches (place :: places) (record :: records) =
      .recordMismatch :: mismatches places records := by
  simp [mismatches, h]

theorem mem_taken :
    (offset, record) ∈ taken places records ↔
      ∃ i : Nat, records[i]? = some record ∧ places[i]? = some (offset, record.schema.blocks) := by
  rw [taken, List.mem_filterMap]
  constructor
  · rintro ⟨⟨⟨start, blocks⟩, record'⟩, hmem, htaken⟩
    obtain ⟨i, hi⟩ := List.mem_iff_getElem?.1 hmem
    obtain ⟨hplace, hrecord⟩ := List.getElem?_zip_eq_some.1 hi
    obtain ⟨hblocks, hsome⟩ := Option.ite_none_right_eq_some.1 htaken
    cases hsome
    exact ⟨i, hrecord, by rw [hplace, hblocks]⟩
  · rintro ⟨i, hrecord, hplace⟩
    exact ⟨((offset, record.schema.blocks), record),
      List.mem_of_getElem? (List.getElem?_zip_eq_some.2 ⟨hplace, hrecord⟩), if_pos rfl⟩

theorem snd_mem_of_mem_taken {p : Nat × Record} (h : p ∈ taken places records) :
    p.2 ∈ records := by
  obtain ⟨i, hrecord, _⟩ := mem_taken.1 h
  exact List.mem_of_getElem? hrecord

theorem eq_of_mem_mismatches {notice : Notice} (h : notice ∈ mismatches places records) :
    notice = .recordMismatch := by
  obtain ⟨_, _, hsome⟩ := List.mem_filterMap.1 h
  exact (Option.some.inj (Option.ite_none_left_eq_some.1 hsome).2).symm

/-- The parts of the records taken do not reach into one another. -/
theorem pairwise_taken (h : places.Pairwise fun place next => place.1 + place.2 ≤ next.1) :
    (taken places records).Pairwise fun p next => p.1 + p.2.schema.blocks ≤ next.1 := by
  have hzip : (places.zip records).Pairwise fun p next => p.1.1 + p.1.2 ≤ next.1.1 := by
    rw [List.pairwise_iff_getElem] at h ⊢
    intro i j hi hj hlt
    rw [List.length_zip] at hi hj
    rw [List.getElem_zip, List.getElem_zip]
    exact h i j (by omega) (by omega) hlt
  refine List.Pairwise.filterMap _ (fun p next hle q hq q' hq' => ?_) hzip
  obtain ⟨hblocks, hsome⟩ := Option.ite_none_right_eq_some.1 hq
  obtain ⟨_, hsome'⟩ := Option.ite_none_right_eq_some.1 hq'
  cases hsome
  cases hsome'
  simpa only [hblocks] using hle

theorem length_left : (left places records).length = records.length := by
  fun_induction left places records with
  | case1 place places record records ih => rw [List.length_cons, List.length_cons, ih]
  | case2 => rfl

theorem getElem?_left_of_match (hplace : places[i]? = some (offset, record.schema.blocks))
    (hi : records[i]? = some record) : (left places records)[i]? = some record.clearDirty := by
  fun_induction left places records generalizing i with
  | case1 place places record' records ih =>
    cases i with
    | zero =>
      cases hi
      cases hplace
      rw [if_pos rfl]
      rfl
    | succ i => exact ih hplace hi
  | case2 places records hne =>
    cases places with
    | nil => cases hplace
    | cons place places =>
      cases records with
      | nil => cases hi
      | cons record' records => exact absurd rfl (hne _ _ _ _ rfl)

theorem getElem?_left_of_mismatch
    (hplace : ∀ offset, places[i]? ≠ some (offset, record.schema.blocks))
    (hi : records[i]? = some record) : (left places records)[i]? = some record := by
  fun_induction left places records generalizing i with
  | case1 place places record' records ih =>
    cases i with
    | zero =>
      cases hi
      rw [if_neg fun hblocks => hplace place.1 (by rw [hblocks]; rfl)]
      rfl
    | succ i => exact ih hplace hi
  | case2 => exact hi

/-! ## Entries -/

/-- A block ends below the place of its record and the blocks of its schema. -/
theorem fst_entriesOf {put : List (Nat × Record)} (hsound : ∀ p ∈ put, p.2.Sound)
    {entry : Nat × UInt32} (hentry : entry ∈ entriesOf onlyDirty put) :
    ∃ p ∈ put, entry.1 < p.1 + p.2.schema.blocks := by
  obtain ⟨p, hp, hmem⟩ := List.mem_flatMap.1 hentry
  obtain ⟨own, hown, rfl⟩ := List.mem_map.1 hmem
  have hlt := (hsound p hp).entry_lt onlyDirty own hown
  exact ⟨p, hp, Nat.add_lt_add_left hlt p.1⟩

/-- The records taken send their blocks in ascending order. -/
theorem pairwise_entriesOf (h : places.Pairwise fun place next => place.1 + place.2 ≤ next.1)
    (hsound : ∀ p ∈ taken places records, p.2.Sound) :
    ((entriesOf onlyDirty (taken places records)).map Prod.fst).Pairwise (· < ·) := by
  rw [entriesOf, List.map_flatMap, List.pairwise_flatMap]
  refine ⟨fun p hp => ?_, (pairwise_taken h).imp_of_mem fun {p next} hp hnext hle k hk k' hk' => ?_⟩
  · rw [map_fst_moved]
    exact List.pairwise_map.2 (((hsound p hp).pairwise_entries onlyDirty).imp
      fun hlt => Nat.add_lt_add_left hlt p.1)
  · rw [map_fst_moved] at hk hk'
    obtain ⟨own, hown, rfl⟩ := List.mem_map.1 hk
    obtain ⟨own', _, rfl⟩ := List.mem_map.1 hk'
    obtain ⟨entry, hentry, rfl⟩ := List.mem_map.1 hown
    have hlt := (hsound p hp).entry_lt onlyDirty entry hentry
    omega

end Taken

end Layout

/-! ## Taking records -/

/-- The records that match are taken, one behind the other, and nothing of them is dropped. -/
theorem ValuesBlock.Carries.takeRecords {block : ValuesBlock} {entries : List (Nat × UInt32)}
    (h : block.Carries entries) {places : List (Nat × Nat)} {records : List Record}
    (hsound : ∀ p ∈ Layout.taken places records, p.2.Sound)
    (hfits : ∀ place ∈ places, place.1 + place.2 ≤ block.capacity)
    (hcapacity : block.capacity ≤ maskBlocks) (onlyDirty : Bool) :
    ∃ next,
      (ValuesBlock.takeRecords onlyDirty places records block).value =
        (next, Layout.left places records) ∧
      (ValuesBlock.takeRecords onlyDirty places records block).notices =
        Layout.mismatches places records ∧
      next.Carries (entries ++ Layout.entriesOf onlyDirty (Layout.taken places records)) := by
  -- On the parts, since there may be more records than parts, or fewer. `Carries` does not mention
  -- where the last record ended, so a record passed over leaves nothing to prove about the next.
  induction places generalizing block entries records with
  | nil =>
    refine ⟨block, rfl, rfl, ?_⟩
    exact (List.append_nil entries).symm ▸ h
  | cons place places ih =>
    cases records with
    | nil =>
      refine ⟨block, rfl, rfl, ?_⟩
      exact (List.append_nil entries).symm ▸ h
    | cons record records =>
      obtain ⟨hplace, hplaces⟩ := List.forall_mem_cons.1 hfits
      rw [ValuesBlock.takeRecords, Layout.left]
      by_cases hblocks : record.schema.blocks = place.2
      · rw [Layout.taken_cons_of_match hblocks] at hsound ⊢
        obtain ⟨hrecord, hrecords⟩ := List.forall_mem_cons.1 hsound
        obtain ⟨first, hpush, hfirst, hsame⟩ :=
          h.push (hrecord.laid onlyDirty) (hblocks ▸ hplace) hcapacity
        obtain ⟨next, hvalue, hnotices, hcarries⟩ :=
          ih hfirst hrecords (by rwa [hsame]) (by rwa [hsame])
        rw [if_pos hblocks, if_pos hblocks, Record.takePart, Record.encode_eq,
          Layout.mismatches_cons_of_match hblocks]
        refine ⟨next, ?_, ?_, ?_⟩
        · simp only [hpush, Logged.value_bind, Logged.value_pure, hvalue]
        · simp only [hpush, Logged.notices_bind, Logged.value_pure, Logged.notices_pure, hnotices,
            List.nil_append, List.append_nil]
        · rwa [List.append_assoc] at hcarries
      · rw [Layout.taken_cons_of_mismatch hblocks] at hsound ⊢
        obtain ⟨next, hvalue, hnotices, hcarries⟩ := ih h hsound hplaces hcapacity
        rw [if_neg hblocks, if_neg hblocks, Layout.mismatches_cons_of_mismatch hblocks]
        refine ⟨next, ?_, ?_, hcarries⟩
        · simp only [Logged.value_bind, Logged.value_pure, hvalue]
        · simp only [Logged.notices_bind, Logged.notices_pure, hnotices, List.append_nil]
          rfl

namespace Layout

variable {layout : Layout} {records : List Record}

/-- The records that match their parts send their words, and the others a notice. -/
theorem marshal_eq (hlayout : layout.Fits)
    (hsound : ∀ p ∈ taken layout.placed records, p.2.Sound) (onlyDirty : Bool) :
    ∃ block : ValuesBlock,
      (layout.marshal records onlyDirty).value = (block.bytes, left layout.placed records) ∧
      (layout.marshal records onlyDirty).notices = mismatches layout.placed records ∧
      block.Carries (entriesOf onlyDirty (taken layout.placed records)) := by
  obtain ⟨block, hvalue, hnotices, hcarries⟩ := (ValuesBlock.Carries.empty layout.total).takeRecords
    hsound (fun _ => hlayout.summed.le_total) hlayout.total_le onlyDirty
  refine ⟨block, ?_, ?_, hcarries⟩
  · rw [marshal, Logged.value_bind, ValuesBlock.ofLayout, hvalue]
    rfl
  · rw [marshal, Logged.notices_bind, ValuesBlock.ofLayout, hnotices]
    exact List.append_nil _

theorem fst_lt_total (hlayout : layout.Summed)
    (hsound : ∀ p ∈ taken layout.placed records, p.2.Sound) {onlyDirty : Bool} :
    ∀ entry ∈ entriesOf onlyDirty (taken layout.placed records), entry.1 < layout.total := by
  intro entry hentry
  obtain ⟨p, hp, hlt⟩ := fst_entriesOf hsound hentry
  obtain ⟨i, _, hplace⟩ := mem_taken.1 hp
  exact Nat.lt_of_lt_of_le hlt (hlayout.le_total (List.mem_of_getElem? hplace))

/-- Every block that is sent has its bit in the mask. -/
theorem fst_lt_maskBlocks (hlayout : layout.Fits)
    (hsound : ∀ p ∈ taken layout.placed records, p.2.Sound) {onlyDirty : Bool} :
    ∀ entry ∈ entriesOf onlyDirty (taken layout.placed records), entry.1 < maskBlocks :=
  fun entry hentry =>
    Nat.lt_of_lt_of_le (fst_lt_total hlayout.summed hsound entry hentry) hlayout.total_le

theorem pairwise_sent (hlayout : layout.Summed)
    (hsound : ∀ p ∈ taken layout.placed records, p.2.Sound) {onlyDirty : Bool} :
    ((entriesOf onlyDirty (taken layout.placed records)).map Prod.fst).Pairwise (· < ·) :=
  pairwise_entriesOf hlayout.abutting_placed.pairwise hsound

theorem reads_marshal (hlayout : layout.Fits)
    (hsound : ∀ p ∈ taken layout.placed records, p.2.Sound) (onlyDirty : Bool) :
    Reads ValuesBlock.reader (layout.marshal records onlyDirty).value.1
      (entriesOf onlyDirty (taken layout.placed records)) := by
  obtain ⟨block, hvalue, _, hcarries⟩ := marshal_eq hlayout hsound onlyDirty
  rw [hvalue]
  exact hcarries.reads (pairwise_sent hlayout.summed hsound) (fst_lt_maskBlocks hlayout hsound)

/-- What several records send together is a values block, also when some of them do not fit their
parts. -/
theorem encoded_marshal (hlayout : layout.Fits)
    (hsound : ∀ record ∈ records, record.Sound) (onlyDirty : Bool) :
    ValuesBlock.Encoded (layout.marshal records onlyDirty).value.1 := by
  have htaken : ∀ p ∈ taken layout.placed records, p.2.Sound := fun p hp =>
    hsound p.2 (snd_mem_of_mem_taken hp)
  obtain ⟨block, hvalue, _, hcarries⟩ := marshal_eq hlayout htaken onlyDirty
  rw [hvalue]
  exact hcarries.encoded (pairwise_sent hlayout.summed htaken) (fst_lt_maskBlocks hlayout htaken)

theorem framed_marshal (hlayout : layout.Fits)
    (hsound : ∀ p ∈ taken layout.placed records, p.2.Sound) (onlyDirty : Bool) :
    ValuesBlock.Framed (layout.marshal records onlyDirty).value.1
      ((entriesOf onlyDirty (taken layout.placed records)).map Prod.fst) := by
  obtain ⟨block, hvalue, _, hcarries⟩ := marshal_eq hlayout hsound onlyDirty
  rw [hvalue]
  exact hcarries.framed (pairwise_sent hlayout.summed hsound) (fst_lt_maskBlocks hlayout hsound)

/-! ## What is sent and what is left -/

/-- Record `i` matches its part, which starts at block `offset`. -/
def Takes (layout : Layout) (records : List Record) (i : Nat) (record : Record) (offset : Nat) :
    Prop :=
  records[i]? = some record ∧ layout.blocks? i = some record.schema.blocks ∧
    layout.offset? i = some offset

theorem mem_taken_iff {offset : Nat} {record : Record} :
    (offset, record) ∈ taken layout.placed records ↔
      ∃ i, layout.Takes records i record offset := by
  rw [mem_taken]
  simp only [getElem?_placed_eq_some_iff, Takes]

/-- The entries are what a receiver reads: the blocks of the sections that the matching records
send, moved up to where their parts start, with the words that each record sends for them alone. -/
structure Delivers (layout : Layout) (records : List Record) (onlyDirty : Bool)
    (entries : List (Nat × UInt32)) : Prop where
  reads : ∀ rest, ValuesBlock.reader.run ((layout.marshal records onlyDirty).value.1 ++ rest) =
    some (entries, rest)
  framed : ValuesBlock.Framed (layout.marshal records onlyDirty).value.1 (entries.map Prod.fst)
  blocks : ∀ block, block ∈ entries.map Prod.fst ↔
    ∃ i record offset j part own, layout.Takes records i record offset ∧
      record.schema.sections[j]? = some part ∧ record.Sends onlyDirty j ∧ own ∈ part.span ∧
      block = offset + own
  words : ∀ block word, (block, word) ∈ entries ↔
    ∃ i record offset alone own, layout.Takes records i record offset ∧
      ValuesBlock.reader.run (record.marshal onlyDirty).value.1 = some (alone, []) ∧
      (own, word) ∈ alone ∧ block = offset + own

/-- The records that match their parts are sent and no longer dirty, and the others are as they
were. -/
structure SendsParts (layout : Layout) (records : List Record) (onlyDirty : Bool) : Prop where
  delivers : ∃ entries, layout.Delivers records onlyDirty entries
  length_eq : (layout.marshal records onlyDirty).value.2.length = records.length
  sent : ∀ i record, records[i]? = some record → layout.blocks? i = some record.schema.blocks →
    ∃ after, (layout.marshal records onlyDirty).value.2[i]? = some after ∧
      after.schema = record.schema ∧ after.slots = record.slots ∧
      after.isDirty = false ∧ after.dirty.indices = []
  passed : ∀ i record, records[i]? = some record → layout.blocks? i ≠ some record.schema.blocks →
    (layout.marshal records onlyDirty).value.2[i]? = some record

section Delivers

variable {onlyDirty : Bool} {entry : Nat × UInt32}

theorem mem_entriesOf :
    entry ∈ entriesOf onlyDirty (taken layout.placed records) ↔
      ∃ i record offset own, layout.Takes records i record offset ∧
        own ∈ record.entries onlyDirty ∧ entry = moved offset own := by
  rw [entriesOf, List.mem_flatMap]
  constructor
  · rintro ⟨⟨offset, record⟩, hp, hmem⟩
    obtain ⟨i, htakes⟩ := mem_taken_iff.1 hp
    obtain ⟨own, hown, rfl⟩ := List.mem_map.1 hmem
    exact ⟨i, record, offset, own, htakes, hown, rfl⟩
  · rintro ⟨i, record, offset, own, htakes, hown, rfl⟩
    exact ⟨(offset, record), mem_taken_iff.2 ⟨i, htakes⟩, List.mem_map_of_mem hown⟩

theorem delivers (hlayout : layout.Fits)
    (hsound : ∀ p ∈ taken layout.placed records, p.2.Sound) :
    layout.Delivers records onlyDirty (entriesOf onlyDirty (taken layout.placed records)) where
  reads := reads_marshal hlayout hsound onlyDirty
  framed := framed_marshal hlayout hsound onlyDirty
  blocks block := by
    rw [List.mem_map]
    constructor
    · rintro ⟨entry, hentry, rfl⟩
      obtain ⟨i, record, offset, own, htakes, hown, rfl⟩ := mem_entriesOf.1 hentry
      have hrecord := hsound (offset, record) (mem_taken_iff.2 ⟨i, htakes⟩)
      obtain ⟨j, part, hpart, hsends, hmem⟩ :=
        (Record.mem_map_fst_entries hrecord).1 (List.mem_map_of_mem hown)
      exact ⟨i, record, offset, j, part, own.1, htakes, hpart, hsends, hmem, rfl⟩
    · rintro ⟨i, record, offset, j, part, own, htakes, hpart, hsends, hmem, rfl⟩
      have hrecord := hsound (offset, record) (mem_taken_iff.2 ⟨i, htakes⟩)
      obtain ⟨entry, hentry, rfl⟩ := List.mem_map.1
        ((Record.mem_map_fst_entries hrecord).2 ⟨j, part, hpart, hsends, hmem⟩)
      exact ⟨moved offset entry,
        mem_entriesOf.2 ⟨i, record, offset, entry, htakes, hentry, rfl⟩, rfl⟩
  words block word := by
    have halone (i : Nat) (record : Record) (offset : Nat)
        (htakes : layout.Takes records i record offset) :
        ValuesBlock.reader.run (record.marshal onlyDirty).value.1 =
          some (record.entries onlyDirty, []) := by
      have hrecord := hsound (offset, record) (mem_taken_iff.2 ⟨i, htakes⟩)
      have hreads := hrecord.reads_marshal onlyDirty []
      rwa [List.append_nil] at hreads
    rw [mem_entriesOf]
    constructor
    · rintro ⟨i, record, offset, ⟨own, word⟩, htakes, hown, hentry⟩
      cases hentry
      exact ⟨i, record, offset, _, own, htakes, halone i record offset htakes, hown, rfl⟩
    · rintro ⟨i, record, offset, alone, own, htakes, hread, hown, rfl⟩
      rw [halone i record offset htakes] at hread
      cases hread
      exact ⟨i, record, offset, (own, word), htakes, hown, rfl⟩

theorem sendsParts_of_sound (hlayout : layout.Fits)
    (hsound : ∀ p ∈ taken layout.placed records, p.2.Sound) :
    layout.SendsParts records onlyDirty := by
  obtain ⟨block, hvalue, _⟩ := marshal_eq hlayout hsound onlyDirty
  constructor
  case delivers => exact ⟨_, delivers hlayout hsound⟩
  case length_eq =>
    rw [hvalue]
    exact length_left
  case sent =>
    intro i record hrecord hblocks
    have hoffset := offset?_of_lt (List.getElem?_eq_some_iff.1 hblocks).1
    have hplace := getElem?_placed_eq_some_iff.2 ⟨hblocks, hoffset⟩
    rw [hvalue]
    exact ⟨record.clearDirty, getElem?_left_of_match hplace hrecord, rfl, rfl, rfl,
      DirtySet.Sound.indices_eq_nil fun _ => DirtySet.holds_clear⟩
  case passed =>
    intro i record hrecord hblocks
    rw [hvalue]
    refine getElem?_left_of_mismatch (fun offset hplace => hblocks ?_) hrecord
    exact (getElem?_placed_eq_some_iff.1 hplace).1

end Delivers

end Layout

/-! ## Composites -/

/-- Operations made the record from a blank one, and the width of its table is a size. -/
def Record.Reachable (record : Record) : Prop :=
  ∃ settings name table steps, FitsSize table ∧
    Schema.compile settings name table = .ok record.schema ∧
    record = .reached record.schema steps

theorem Record.reachable_reached {settings : Settings} {name : String} {table : List Field}
    {schema : Schema} (hfits : FitsSize table)
    (hcompile : Schema.compile settings name table = .ok schema) (steps : List Step) :
    (reached schema steps).Reachable :=
  ⟨settings, name, table, steps, hfits, by rwa [schema_reached], by rw [schema_reached]⟩

theorem Record.Reachable.sound {record : Record} (h : record.Reachable) : record.Sound := by
  obtain ⟨settings, name, table, steps, hfits, hcompile, hreached⟩ := h
  rw [hreached]
  exact sound_reached hfits hcompile steps

namespace Layout

variable {settings : Settings} {layout : Layout} {records : List Record}

theorem sound_taken (hrecords : ∀ i record, records[i]? = some record →
    layout.blocks? i = some record.schema.blocks → record.Reachable) :
    ∀ p ∈ taken layout.placed records, p.2.Sound := by
  rintro ⟨offset, record⟩ hp
  obtain ⟨i, hrecord, hblocks, _⟩ := mem_taken_iff.1 hp
  exact (hrecords i record hrecord hblocks).sound

/-- Whatever the other records are, those that match their parts are sent in their places. -/
theorem sendsParts (hlayout : layout.Accepted settings)
    (hrecords : ∀ i record, records[i]? = some record →
      layout.blocks? i = some record.schema.blocks → record.Reachable)
    (onlyDirty : Bool) : layout.SendsParts records onlyDirty :=
  sendsParts_of_sound hlayout.fits (sound_taken hrecords)

/-- A changed record, one that does not match its part, and one that has no part. -/
theorem sendsParts_mismatched :
    let table : List Field := [.scalar "a" .u32, .scalar "b" .u64]
    let small : List Field := [.scalar "c" .u32]
    ∃ schema other layout, Schema.compile {} "T" table = .ok schema ∧
      Schema.compile {} "U" small = .ok other ∧
      ofSchemas {} "Both" [schema, other] = .ok layout ∧
      let records : List Record := [.reached schema [.edit (.set 1 (.u64 9))],
        .reached schema [.edit (.flagField 0)], .reached other []]
      layout.Accepted {} ∧
        (∀ i record, records[i]? = some record →
          layout.blocks? i = some record.schema.blocks → record.Reachable) ∧
        layout.SendsParts records true := by
  intro table small
  obtain ⟨schema, other, layout, hcompile, hother, hlayout⟩ :
      ∃ schema other layout, Schema.compile {} "T" table = .ok schema ∧
        Schema.compile {} "U" small = .ok other ∧
        ofSchemas {} "Both" [schema, other] = .ok layout := ⟨_, _, _, rfl, rfl, rfl⟩
  refine ⟨schema, other, layout, hcompile, hother, hlayout, ?_⟩
  intro records
  have hfits : FitsSize table := by decide
  have hfits' : FitsSize small := by decide
  have hrecords : ∀ i record, records[i]? = some record →
      layout.blocks? i = some record.schema.blocks → record.Reachable := by
    intro i record hrecord _
    have hmem := List.mem_of_getElem? hrecord
    simp only [records, List.mem_cons, List.not_mem_nil, or_false] at hmem
    rcases hmem with rfl | rfl | rfl
    · exact Record.reachable_reached hfits hcompile _
    · exact Record.reachable_reached hfits hcompile _
    · exact Record.reachable_reached hfits' hother []
  have haccepted : layout.Accepted {} := .several hlayout
  exact ⟨haccepted, hrecords, sendsParts haccepted hrecords true⟩

/-- A record of a table that is wider than any size sends two words for one bit of the mask, so the
bytes are no values block. -/
theorem not_sendsParts_of_wrap :
    ∃ schema, Schema.compile {} "T" Record.wrappedTable = .ok schema ∧
      ¬(single schema).SendsParts
        [.reached schema [.edit (.set 0 (.u32 7)), .edit (.set 34 (.u32 7))]] false := by
  have hrun : (Schema.compile {} "T" Record.wrappedTable).toOption.map (fun schema =>
      ValuesBlock.reader.run ((single schema).marshal
        [.reached schema [.edit (.set 0 (.u32 7)), .edit (.set 34 (.u32 7))]] false).value.1) =
      some (some ([(0, 7)], [7, 0, 0, 0])) := by decide +kernel
  obtain ⟨schema, hcompile, hread⟩ := Schema.exists_of_compile hrun
  refine ⟨schema, hcompile, fun hsends => ?_⟩
  obtain ⟨entries, hdelivers⟩ := hsends.delivers
  have hdelivered := hdelivers.reads []
  rw [List.append_nil] at hdelivered
  cases hdelivered.symm.trans hread

end Layout

end ObjectSync
