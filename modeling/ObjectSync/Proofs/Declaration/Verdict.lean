import ObjectSync.Proofs.Declaration.Arrangement

/-!
# Which tables compile

The compiler goes over a table once, with a count of bits that starts again at every cut. Whether
the table compiles, and which fault is told if it does not, can be read off the table without that:
all that counts is how many bits the fields in front take together. `Schema.faultAt` says what is
wrong with one field, and `Schema.verdict` takes the first such fault; if no field has one, what is
left is to look at the end of the table and at its size.

**`Schema.compile_eq_verdict`** says that the compiler answers the verdict on the part of the table
that it reads. `Scan.Behind` is the invariant: behind each field, the last cut lies where the blocks
filled so far end.
-/

namespace ObjectSync

namespace Schema

/-! ## The criterion -/

/-- The bits that the first `i` fields take. -/
def bitsBefore (fields : List Field) (i : Nat) : Nat := Field.roomOf (fields.take i)

/-- A named field has the name of one of the fields before it. -/
def Repeats (before : List Field) (field : Field) : Prop :=
  field.isPadding = false ∧
    ∃ earlier ∈ before, earlier.isPadding = false ∧ earlier.name = field.name

instance (before : List Field) (field : Field) : Decidable (Repeats before field) :=
  inferInstanceAs (Decidable (_ ∧ _))

/-- A field between these bits fills the block that it starts in, and does not end where a block
ends. -/
def Overruns (start stop : Nat) : Prop :=
  start / blockBits < stop / blockBits ∧ stop % blockBits ≠ 0

instance (start stop : Nat) : Decidable (Overruns start stop) :=
  inferInstanceAs (Decidable (_ ∧ _))

/-- What is wrong with field `i`: it repeats a name, or else it overruns a block. -/
def faultAt (schema : String) (fields : List Field) (i : Nat) : Option SchemaFault :=
  match fields[i]? with
  | some field =>
    let start := bitsBefore fields i
    let stop := bitsBefore fields (i + 1)
    if Repeats (fields.take i) field then some (.duplicateField schema field.name)
    else if Overruns start stop then
      some (.misaligned schema (start / blockBits) (stop % blockBits))
    else none
  | none => none

/-- The number of blocks that the fields take, or the first fault. -/
def verdict (settings : Settings) (schema : String) (fields : List Field) :
    Except SchemaFault Nat :=
  let bits := bitsBefore fields fields.length
  match (List.range fields.length).findSome? (faultAt schema fields) with
  | some fault => .error fault
  | none =>
    if bits % blockBits ≠ 0 then
      .error (.misaligned schema (bits / blockBits) (bits % blockBits))
    else if settings.maxBlocks < bits / blockBits then
      .error (.tooLarge schema (bits / blockBits) settings.maxBlocks)
    else .ok (bits / blockBits)

theorem bitsBefore_length (fields : List Field) :
    bitsBefore fields fields.length = Field.roomOf fields := by
  rw [bitsBefore, List.take_length]

/-- A field is judged by the fields in front of it. -/
theorem faultAt_append (schema : String) (before after : List Field) (field : Field) :
    faultAt schema (before ++ field :: after) before.length =
      let start := Field.roomOf before
      let stop := Field.roomOf before + field.room
      if Repeats before field then some (.duplicateField schema field.name)
      else if Overruns start stop then
        some (.misaligned schema (start / blockBits) (stop % blockBits))
      else none := by
  have hfield : (before ++ field :: after)[before.length]? = some field := by simp
  have hbefore : (before ++ field :: after).take before.length = before := by simp
  have hstop : bitsBefore (before ++ field :: after) (before.length + 1) =
      Field.roomOf before + field.room := by
    rw [bitsBefore, List.take_length_add_append, Field.roomOf_append]
    rfl
  simp only [faultAt, hfield, hbefore, hstop]
  rw [bitsBefore, hbefore]

end Schema

/-! ## The scan -/

namespace Scan

variable {name : String} {scan next : Scan} {field : Field} {before : List Field}

/-- The scan is what the compiler knows behind these fields. -/
structure Behind (scan : Scan) (before : List Field) : Prop where
  sound : scan.Sound
  fields_eq : scan.placements.map Placement.field = before
  offset_eq : scan.offset.toNat = Field.roomOf before
  run_lt : scan.run.toNat < blockBits

namespace Behind

theorem start : Behind {} [] where
  sound := .start
  fields_eq := rfl
  offset_eq := rfl
  run_lt := by decide

/-- The last cut lies where the blocks that are filled end. -/
theorem block_eq (h : scan.Behind before) :
    scan.block.toNat = Field.roomOf before / blockBits := by
  have hrun := toNat_run h.sound
  have hlt := h.run_lt
  have hle := h.sound.block_le
  have hoffset := h.offset_eq
  simp only [blockBits] at *
  omega

theorem run_eq (h : scan.Behind before) : scan.run.toNat = Field.roomOf before % blockBits := by
  have hrun := toNat_run h.sound
  have hblock := h.block_eq
  have hoffset := h.offset_eq
  simp only [blockBits] at *
  omega

theorem repeats_iff (h : scan.Behind before) :
    Schema.Repeats before field ↔ (!field.isPadding && scan.declares field.name) = true := by
  rw [Bool.and_eq_true, Bool.not_eq_true', Schema.Repeats, ← h.fields_eq, ← Bool.not_eq_false,
    declares_eq_false_iff]
  refine and_congr_right fun _ => ?_
  simp only [not_forall, not_or, Bool.not_eq_true, not_not, exists_prop]

/-- The bits behind the last cut, when one more field is put behind the others. -/
theorem run_put (h : scan.Behind before) (hstop : field.isStop = false)
    (hroom : Field.roomOf before + field.room < 2 ^ 64) :
    (scan.put field).run.toNat =
      Field.roomOf before + field.room - Field.roomOf before / blockBits * blockBits := by
  rw [← h.offset_eq] at hroom
  rw [toNat_run (h.sound.put hstop hroom), toNat_offset_put hroom, block_put, h.block_eq,
    h.offset_eq]

theorem spill_put (h : scan.Behind before) (hstop : field.isStop = false)
    (hroom : Field.roomOf before + field.room < 2 ^ 64) :
    ((scan.put field).run % .ofNat blockBits).toNat =
      (Field.roomOf before + field.room) % blockBits := by
  have hbits : (UInt64.ofNat blockBits).toNat = blockBits := rfl
  rw [UInt64.toNat_mod, hbits, h.run_put hstop hroom]
  simp only [blockBits]
  omega

/-! ### One field -/

theorem place (h : scan.Behind before) (hstop : field.isStop = false)
    (hroom : Field.roomOf before + field.room < 2 ^ 64)
    (hplace : scan.place name field = .ok next) : next.Behind (before ++ [field]) := by
  rw [← h.offset_eq] at hroom
  obtain ⟨hsound, hoffset⟩ := h.sound.place hstop hroom hplace
  exact {
    sound := hsound
    fields_eq := by rw [map_field_of_place hplace, h.fields_eq]
    offset_eq := by
      rw [hoffset, h.offset_eq, Field.roomOf_append]
      rfl
    run_lt := run_lt_of_place hplace }

/-- What holds in front of a table, and behind every field that is taken if it holds in front of it,
holds behind the table. It may rest on what the compiler knows behind the fields so far. -/
theorem foldlM_of_place {P : List Field → Scan → Prop} {fields : List Field}
    (hstop : ∀ field ∈ fields, field.isStop = false) (hroom : Field.roomOf fields < 2 ^ 64)
    (hstart : P [] {})
    (hplace : ∀ before field scan next, scan.Behind before → P before scan →
      field.isStop = false → scan.offset.toNat + field.room < 2 ^ 64 →
      scan.place name field = .ok next → P (before ++ [field]) next)
    (hfold : fields.foldlM (Scan.place name) {} = .ok scan) :
    scan.Behind fields ∧ P fields scan := by
  refine foldlM_induction (P := fun before scan => scan.Behind before ∧ P before scan)
    ⟨.start, hstart⟩ ?_ hfold
  rintro before field after scan next rfl ⟨hbehind, h⟩ hplaced
  have hfield : field.isStop = false := hstop field (by simp)
  rw [Field.roomOf_append, Field.roomOf_cons] at hroom
  have hbound : Field.roomOf before + field.room < 2 ^ 64 := by omega
  exact ⟨hbehind.place hfield hbound hplaced, hplace before field scan next hbehind h hfield
    (by rwa [hbehind.offset_eq]) hplaced⟩

theorem place_of_repeats (h : scan.Behind before) (hrepeats : Schema.Repeats before field) :
    scan.place name field = .error (.duplicateField name field.name) := by
  rw [Scan.place, if_pos (h.repeats_iff.1 hrepeats)]

/-- A field with a new name is put behind the others, and a cut is tried if it fills a block. -/
theorem place_of_new (h : scan.Behind before) (hnew : ¬Schema.Repeats before field) :
    scan.place name field =
      if (scan.put field).run.toNat < blockBits then .ok (scan.put field)
      else (scan.put field).cut name := by
  rw [Scan.place, if_neg (mt h.repeats_iff.2 hnew)]

/-- The cut behind a field that overruns its block does not fall on the end of one. -/
theorem place_of_overruns (h : scan.Behind before) (hstop : field.isStop = false)
    (hroom : Field.roomOf before + field.room < 2 ^ 64) (hnew : ¬Schema.Repeats before field)
    (hover : Schema.Overruns (Field.roomOf before) (Field.roomOf before + field.room)) :
    scan.place name field = .error (.misaligned name (Field.roomOf before / blockBits)
      ((Field.roomOf before + field.room) % blockBits)) := by
  obtain ⟨hfills, hend⟩ := hover
  have hspill := h.spill_put hstop hroom
  have hfull : ¬(scan.put field).run.toNat < blockBits := by
    rw [h.run_put hstop hroom]
    simp only [blockBits] at *
    omega
  have hcut : (scan.put field).run % .ofNat blockBits ≠ 0 := by
    intro hzero
    rw [hzero] at hspill
    exact hend hspill.symm
  rw [h.place_of_new hnew, if_neg hfull, cut, if_pos hcut, hspill, block_put, h.block_eq]

theorem place_of_fits (h : scan.Behind before) (hstop : field.isStop = false)
    (hroom : Field.roomOf before + field.room < 2 ^ 64) (hnew : ¬Schema.Repeats before field)
    (hfits : ¬Schema.Overruns (Field.roomOf before) (Field.roomOf before + field.room)) :
    ∃ next, scan.place name field = .ok next ∧ next.Behind (before ++ [field]) := by
  suffices hplace : ∃ next, scan.place name field = .ok next by
    obtain ⟨next, hplace⟩ := hplace
    exact ⟨next, hplace, h.place hstop hroom hplace⟩
  by_cases hfull : (scan.put field).run.toNat < blockBits
  · exact ⟨_, by rw [h.place_of_new hnew, if_pos hfull]⟩
  · -- the field fills its block, so it ends on the end of a block
    have hcut : (scan.put field).run % .ofNat blockBits = 0 := by
      apply UInt64.toNat.inj
      rw [h.spill_put hstop hroom]
      rw [h.run_put hstop hroom] at hfull
      simp only [Schema.Overruns, blockBits] at *
      show _ = 0
      omega
    exact ⟨_, by rw [h.place_of_new hnew, if_neg hfull, cut_eq_ok_iff.2 ⟨hcut, rfl⟩]⟩

/-- A field is refused exactly for the fault that it has behind those in front of it. -/
theorem place_eq (h : scan.Behind before) (name : String) (after : List Field)
    (hstop : field.isStop = false) (hroom : Field.roomOf before + field.room < 2 ^ 64) :
    match Schema.faultAt name (before ++ field :: after) before.length with
    | some fault => scan.place name field = .error fault
    | none => ∃ next, scan.place name field = .ok next ∧ next.Behind (before ++ [field]) := by
  rw [Schema.faultAt_append]
  by_cases hrepeats : Schema.Repeats before field
  · simp only [if_pos hrepeats]
    exact h.place_of_repeats hrepeats
  · simp only [if_neg hrepeats]
    by_cases hover : Schema.Overruns (Field.roomOf before) (Field.roomOf before + field.room)
    · simp only [if_pos hover]
      exact h.place_of_overruns hstop hroom hrepeats hover
    · simp only [if_neg hover]
      exact h.place_of_fits hstop hroom hrepeats hover

/-! ### Tables -/

/-- Several fields are refused for the first fault among them. -/
theorem foldlM_eq (h : scan.Behind before) (name : String) {fields : List Field}
    (hstop : ∀ field ∈ fields, field.isStop = false)
    (hroom : Field.roomOf (before ++ fields) < 2 ^ 64) :
    match (List.range' before.length fields.length).findSome?
        (Schema.faultAt name (before ++ fields)) with
    | some fault => fields.foldlM (Scan.place name) scan = .error fault
    | none => ∃ last, fields.foldlM (Scan.place name) scan = .ok last ∧
        last.Behind (before ++ fields) := by
  induction fields generalizing scan before with
  | nil =>
    rw [List.append_nil]
    exact ⟨scan, rfl, h⟩
  | cons field rest ih =>
    obtain ⟨hfirst, hrest⟩ := List.forall_mem_cons.1 hstop
    have hbound : Field.roomOf before + field.room < 2 ^ 64 := by
      rw [Field.roomOf_append, Field.roomOf_cons] at hroom
      omega
    have hplace := h.place_eq name rest hfirst hbound
    rw [List.length_cons, List.range'_succ, List.findSome?_cons, List.foldlM_cons]
    cases hfault : Schema.faultAt name (before ++ field :: rest) before.length with
    | some fault =>
      rw [hfault] at hplace
      simp only [hplace]
      rfl
    | none =>
      rw [hfault] at hplace
      obtain ⟨next, hnext, hbehind⟩ := hplace
      have hsplit : before ++ field :: rest = before ++ [field] ++ rest := by simp
      rw [hsplit] at hroom ⊢
      have hlast := ih hbehind hrest hroom
      rw [List.length_append, List.length_singleton] at hlast
      rw [hnext]
      exact hlast

/-- Behind the last field a cut is only missing where the table does not end on a block. -/
theorem finish_eq (h : scan.Behind before) :
    scan.finish name =
      if Field.roomOf before % blockBits ≠ 0 then
        .error (.misaligned name (Field.roomOf before / blockBits)
          (Field.roomOf before % blockBits))
      else .ok scan := by
  have hzero : scan.run = 0 ↔ Field.roomOf before % blockBits = 0 := by
    rw [← h.run_eq, ← UInt64.toNat_inj]
    rfl
  rw [finish]
  by_cases hend : Field.roomOf before % blockBits = 0
  · rw [if_pos (hzero.2 hend), if_neg (not_not_intro hend)]
  · -- less than a block is left over, so all of it spills
    have hrun := h.run_lt
    have hspill : scan.run % .ofNat blockBits = scan.run := by
      apply UInt64.toNat.inj
      rw [UInt64.toNat_mod]
      exact Nat.mod_eq_of_lt hrun
    rw [if_neg (mt hzero.1 hend), if_pos hend, cut, hspill, if_pos (mt hzero.1 hend), h.block_eq,
      h.run_eq]

end Behind

end Scan

namespace Schema

/-! ## The verdict -/

theorem declared_append_stop {table : List Field} {stop : Field} (hstop : stop.isStop = true)
    (after : List Field) : declared (declared table ++ stop :: after) = declared table := by
  have hall : ∀ field ∈ declared table, (!field.isStop) = true := by
    intro field hfield
    rw [isStop_of_mem_declared hfield]
    rfl
  rw [declared, List.takeWhile_append_of_pos hall, List.takeWhile_cons, hstop]
  exact List.append_nil _

/-- The compiler answers the first fault of the fields in front of the end marker, or takes as many
blocks as they fill; whatever stands behind the marker does not matter. -/
theorem compile_eq_verdict {settings : Settings} {name : String} {table : List Field}
    (hfits : FitsSize table) :
    (compile settings name table).map Schema.blocks = verdict settings name (declared table) ∧
      ∀ stop : Field, stop.isStop = true → ∀ after : List Field,
        compile settings name (declared table ++ stop :: after) = compile settings name table := by
  constructor
  · have hfold := Scan.Behind.start.foldlM_eq name
      (fun _ (hfield : _ ∈ declared table) => isStop_of_mem_declared hfield) hfits
    rw [List.nil_append, List.length_nil, ← List.range_eq_range'] at hfold
    rw [compile, verdict, bitsBefore_length]
    cases hfault : (List.range (declared table).length).findSome?
        (faultAt name (declared table)) with
    | some fault =>
      rw [hfault] at hfold
      simp only [hfold]
      rfl
    | none =>
      rw [hfault] at hfold
      obtain ⟨scan, hscan, hbehind⟩ := hfold
      simp only [hscan, bind, Except.bind, hbehind.finish_eq]
      by_cases hend : Field.roomOf (declared table) % blockBits ≠ 0
      · simp only [if_pos hend]
        rfl
      · simp only [if_neg hend, hbehind.block_eq]
        split <;> rfl
  · intro stop hstop after
    rw [compile, compile, declared_append_stop hstop]

/-- A repeated name in front of a field that ends in the wrong place. -/
theorem compile_eq_verdict_repeated :
    let table : List Field := [.scalar "a" .u16, .scalar "a" .u32, .scalar "b" .u8, .stop]
    FitsSize table ∧
      (compile {} "T" table).map Schema.blocks = .error (.duplicateField "T" "a") := by
  have hfits : FitsSize [.scalar "a" .u16, .scalar "a" .u32, .scalar "b" .u8, .stop] := by decide
  exact ⟨hfits, (compile_eq_verdict hfits).1.trans rfl⟩

end Schema

end ObjectSync
