import ObjectSync.Declaration.Schema

/-!
# What the compiler does

The steps of the compiler, told by what comes out when they succeed. A field is put behind the
fields so far, and once these fill a block they are cut off, all of them or nothing
(`Scan.place_eq_ok_iff`). So between two fields less than a block is uncut, and a table ends where
its last cut is: a cut behind it would be in the wrong place (`Scan.finish_eq_ok_iff`). The count of
bits that starts again at every cut always is the distance from the cut to the next field
(`Scan.Counted`). **`Schema.compile_eq_ok_iff`** puts this together.
-/

namespace ObjectSync

namespace Scan

/-- The state behind a cut that falls on the end of a block. -/
def closed (scan : Scan) : Scan :=
  let span : Span := { start := scan.block, count := scan.run / .ofNat blockBits }
  if scan.uncut.isEmpty then
    { scan with run := 0, block := span.stop, padding := scan.padding ++ [span] }
  else
    { scan with
      run := 0
      block := span.stop
      sections := scan.sections ++ [{ span, fields := scan.uncut }]
      uncut := [] }

variable {name : String} {scan scan' : Scan} {field : Field}

/-! ## Steps -/

theorem put_of_padding (h : field.isPadding = true) :
    scan.put field = { scan with
      placements := scan.placements ++
        [{ field, offset := scan.offset, slot := scan.slot, home := none }]
      run := scan.run + field.bits
      offset := scan.offset + field.bits } := by
  rw [put, if_pos h]

theorem put_of_named (h : field.isPadding = false) :
    scan.put field = { scan with
      placements := scan.placements ++
        [{ field, offset := scan.offset, slot := scan.slot, home := some scan.sections.length }]
      uncut := scan.uncut ++ [scan.placements.length]
      run := scan.run + field.bits
      offset := scan.offset + field.bits
      slot := scan.slot + field.length } := by
  rw [put, if_neg (by rw [h]; decide)]

/-- A cut behind nothing but padding makes no section. -/
theorem closed_of_nil (h : scan.uncut = []) :
    scan.closed = { scan with
      run := 0
      block := scan.block + scan.run / .ofNat blockBits
      padding := scan.padding ++
        [{ start := scan.block, count := scan.run / .ofNat blockBits }] } := by
  rw [closed, if_pos (List.isEmpty_iff.2 h)]
  rfl

theorem closed_of_ne_nil (h : scan.uncut ≠ []) :
    scan.closed = { scan with
      run := 0
      block := scan.block + scan.run / .ofNat blockBits
      sections := scan.sections ++ [{
        span := { start := scan.block, count := scan.run / .ofNat blockBits }
        fields := scan.uncut }]
      uncut := [] } := by
  rw [closed, if_neg (mt List.isEmpty_iff.1 h)]
  rfl

theorem block_closed :
    scan.closed.block = scan.block + scan.run / .ofNat blockBits := by
  rw [closed]
  split <;> rfl

theorem offset_closed : scan.closed.offset = scan.offset := by
  rw [closed]
  split <;> rfl

theorem placements_closed : scan.closed.placements = scan.placements := by
  rw [closed]
  split <;> rfl

theorem slot_closed : scan.closed.slot = scan.slot := by
  rw [closed]
  split <;> rfl

/-- Nothing is left in front of a cut. -/
theorem run_closed : scan.closed.run = 0 := by
  rw [closed]
  split <;> rfl

theorem block_put : (scan.put field).block = scan.block := by
  rw [put]
  split <;> rfl

theorem offset_put : (scan.put field).offset = scan.offset + field.bits := by
  rw [put]
  split <;> rfl

theorem run_put : (scan.put field).run = scan.run + field.bits := by
  rw [put]
  split <;> rfl

/-- A placement is added for every field, at the end of the fields so far. -/
theorem placements_put (scan : Scan) (field : Field) : ∃ home,
    (scan.put field).placements = scan.placements ++
      [{ field, offset := scan.offset, slot := scan.slot, home }] := by
  rw [put]
  split
  · exact ⟨none, rfl⟩
  · exact ⟨some scan.sections.length, rfl⟩

theorem cut_eq_ok_iff :
    scan.cut name = .ok scan' ↔ scan.run % .ofNat blockBits = 0 ∧ scan' = scan.closed := by
  by_cases hspill : scan.run % .ofNat blockBits = 0
  · have hcut : scan.cut name = .ok scan.closed := by
      rw [cut, closed, if_neg (not_not_intro hspill)]
      split <;> rfl
    rw [hcut]
    constructor
    · rintro ⟨⟩
      exact ⟨hspill, rfl⟩
    · rintro ⟨_, rfl⟩
      rfl
  · rw [cut, if_pos hspill]
    constructor
    · rintro ⟨⟩
    · rintro ⟨h, _⟩
      exact absurd h hspill

/-- What is cut off are whole blocks. -/
theorem run_div_mul (h : scan.run % .ofNat blockBits = 0) :
    scan.run / .ofNat blockBits * .ofNat blockBits = scan.run := by
  apply UInt64.toNat.inj
  have hmod := congrArg UInt64.toNat h
  rw [UInt64.toNat_mod] at hmod
  rw [UInt64.toNat_mul, UInt64.toNat_div]
  have hbits : (UInt64.ofNat blockBits).toNat = 32 := rfl
  have hlt := scan.run.toNat_lt
  rw [hbits] at hmod ⊢
  simp only [UInt64.toNat_zero] at hmod
  omega

/-- What a field is taken with: its name is new, and it is put behind the fields so far, cut off
together with them or not. -/
theorem place_eq_ok_iff :
    scan.place name field = .ok scan' ↔
      (field.isPadding = true ∨ scan.declares field.name = false) ∧
      ((scan.put field).run.toNat < blockBits ∧ scan' = scan.put field ∨
        blockBits ≤ (scan.put field).run.toNat ∧ (scan.put field).run % .ofNat blockBits = 0 ∧
          scan' = (scan.put field).closed) := by
  rw [place]
  by_cases hname : (!field.isPadding && scan.declares field.name) = true
  · rw [if_pos hname]
    rw [Bool.and_eq_true, Bool.not_eq_true'] at hname
    constructor
    · rintro ⟨⟩
    · rintro ⟨hpadding | hnew, _⟩
      · rw [hname.1] at hpadding; cases hpadding
      · rw [hname.2] at hnew; cases hnew
  · rw [if_neg hname]
    have hnew : field.isPadding = true ∨ scan.declares field.name = false := by
      cases hp : field.isPadding
      · rw [hp, Bool.not_false, Bool.true_and, Bool.not_eq_true] at hname
        exact .inr hname
      · exact .inl rfl
    simp only [hnew, true_and]
    split
    · next hrun =>
      constructor
      · rintro ⟨⟩
        exact .inl ⟨hrun, rfl⟩
      · rintro (⟨_, rfl⟩ | ⟨hle, _⟩)
        · rfl
        · omega
    · next hrun =>
      rw [cut_eq_ok_iff]
      constructor
      · exact fun h => .inr ⟨by omega, h⟩
      · rintro (⟨hlt, _⟩ | ⟨_, h⟩)
        · exact absurd hlt hrun
        · exact h

/-- Behind a field less than a block is uncut. -/
theorem run_lt_of_place (h : scan.place name field = .ok scan') :
    scan'.run.toNat < blockBits := by
  obtain ⟨_, ⟨hrun, rfl⟩ | ⟨_, _, rfl⟩⟩ := place_eq_ok_iff.1 h
  · exact hrun
  · rw [run_closed]
    decide

/-- Several fields are taken when the first is, and then the others. -/
theorem foldlM_cons_eq_ok_iff {fields : List Field} :
    (field :: fields).foldlM (place name) scan = .ok scan' ↔
      ∃ next, scan.place name field = .ok next ∧ fields.foldlM (place name) next = .ok scan' := by
  rw [List.foldlM_cons]
  constructor
  · intro h
    cases hplace : scan.place name field with
    | error fault =>
      rw [hplace] at h
      cases h
    | ok next =>
      rw [hplace] at h
      exact ⟨next, rfl, h⟩
  · rintro ⟨next, hplace, h⟩
    rw [hplace]
    exact h

/-- What holds in front of a table, and behind every field that is taken if it holds in front of it,
holds behind the table. It may speak of the fields so far. -/
theorem foldlM_induction {P : List Field → Scan → Prop} {fields : List Field} (hstart : P [] scan)
    (hplace : ∀ before field after scan next, fields = before ++ field :: after → P before scan →
      scan.place name field = .ok next → P (before ++ [field]) next)
    (hfold : fields.foldlM (place name) scan = .ok scan') : P fields scan' := by
  suffices h : ∀ before rest scan, fields = before ++ rest → P before scan →
      rest.foldlM (place name) scan = .ok scan' → P fields scan' by
    exact h [] fields scan rfl hstart hfold
  intro before rest
  induction rest generalizing before with
  | nil =>
    intro scan hfields h hfold
    cases hfold
    rwa [hfields, List.append_nil]
  | cons field rest ih =>
    intro scan hfields h hfold
    obtain ⟨next, hnext, hfold⟩ := foldlM_cons_eq_ok_iff.1 hfold
    have hbehind := hplace before field rest scan next hfields h hnext
    exact ih (before ++ [field]) next (by rw [hfields, List.append_assoc]; rfl) hbehind hfold

theorem run_lt_of_foldlM {fields : List Field} (hrun : scan.run.toNat < blockBits)
    (h : fields.foldlM (place name) scan = .ok scan') : scan'.run.toNat < blockBits :=
  foldlM_induction (P := fun _ scan => scan.run.toNat < blockBits) hrun
    (fun _ _ _ _ _ _ _ hplace => run_lt_of_place hplace) h

/-! ## The count of bits -/

/-- The bits that are counted are those between the last cut and the next field. -/
def Counted (scan : Scan) : Prop := scan.run = scan.offset - scan.block * .ofNat blockBits

namespace Counted

theorem start : Counted {} := rfl

theorem put (h : scan.Counted) : (scan.put field).Counted := by
  rw [Counted, run_put, offset_put, block_put, h, UInt64.sub_eq_add_neg, UInt64.sub_eq_add_neg,
    UInt64.add_assoc, UInt64.add_comm (-_), ← UInt64.add_assoc]

/-- The count starts again where the cut is: whole blocks are cut off, so no bit is lost. -/
theorem closed (h : scan.Counted) (hspill : scan.run % .ofNat blockBits = 0) :
    scan.closed.Counted := by
  rw [Counted, run_closed, block_closed, offset_closed, UInt64.add_mul, run_div_mul hspill, h,
    UInt64.add_comm, UInt64.sub_add_cancel, UInt64.sub_self]

theorem place (h : scan.Counted) (hplace : scan.place name field = .ok scan') :
    scan'.Counted := by
  obtain ⟨_, ⟨_, rfl⟩ | ⟨_, hspill, rfl⟩⟩ := place_eq_ok_iff.1 hplace
  · exact h.put
  · exact h.put.closed hspill

theorem foldlM {fields : List Field} (hfold : fields.foldlM (Scan.place name) {} = .ok scan) :
    scan.Counted :=
  foldlM_induction (P := fun _ scan => scan.Counted) start
    (fun _ _ _ _ _ _ h hplace => h.place hplace) hfold

end Counted

/-! ## Names -/

/-- The fields so far are the fields that were placed. -/
theorem map_field_of_place (hplace : scan.place name field = .ok scan') :
    scan'.placements.map Placement.field = scan.placements.map Placement.field ++ [field] := by
  have hput : (scan.put field).placements.map Placement.field =
      scan.placements.map Placement.field ++ [field] := by
    obtain ⟨home, hplacements⟩ := scan.placements_put field
    rw [hplacements, List.map_append]
    rfl
  obtain ⟨_, ⟨_, rfl⟩ | ⟨_, _, rfl⟩⟩ := place_eq_ok_iff.1 hplace
  · exact hput
  · rw [placements_closed, hput]

theorem map_field_of_foldlM {fields : List Field}
    (hfold : fields.foldlM (Scan.place name) scan = .ok scan') :
    scan'.placements.map Placement.field = scan.placements.map Placement.field ++ fields := by
  refine foldlM_induction (P := fun before next => next.placements.map Placement.field =
    scan.placements.map Placement.field ++ before) (List.append_nil _).symm ?_ hfold
  intro before field after scan' next _ h hplace
  rw [map_field_of_place hplace, h, List.append_assoc]

theorem declares_eq_false_iff :
    scan.declares name = false ↔ ∀ field ∈ scan.placements.map Placement.field,
      field.isPadding = true ∨ field.name ≠ name := by
  rw [declares, List.any_eq_false, List.forall_mem_map]
  refine forall₂_congr fun p _ => ?_
  cases p.field.isPadding <;> simp

/-- A name is taken once. -/
theorem pairwise_name_of_foldlM {fields : List Field}
    (hfold : fields.foldlM (place name) {} = .ok scan) :
    fields.Pairwise fun field next =>
      next.isPadding = true ∨ field.isPadding = true ∨ field.name ≠ next.name := by
  refine (foldlM_induction (P := fun before scan => scan.placements.map Placement.field = before ∧
    before.Pairwise fun field next =>
      next.isPadding = true ∨ field.isPadding = true ∨ field.name ≠ next.name)
    ⟨rfl, .nil⟩ ?_ hfold).2
  rintro before field after scan next _ ⟨rfl, hpairwise⟩ hplace
  refine ⟨map_field_of_place hplace, List.pairwise_append.2
    ⟨hpairwise, List.pairwise_singleton _ _, fun earlier hearlier field' hfield' => ?_⟩⟩
  obtain rfl := List.mem_singleton.1 hfield'
  obtain ⟨hpadding | hnew, _⟩ := place_eq_ok_iff.1 hplace
  · exact .inl hpadding
  · exact .inr (declares_eq_false_iff.1 hnew earlier hearlier)

/-! ## The end of a table -/

/-- A table has no room for a cut behind its last field. -/
theorem finish_eq_ok_iff (hrun : scan.run.toNat < blockBits) :
    scan.finish name = .ok scan' ↔ scan.run = 0 ∧ scan' = scan := by
  rw [finish]
  by_cases hzero : scan.run = 0
  · rw [if_pos hzero]
    constructor
    · rintro ⟨⟩
      exact ⟨hzero, rfl⟩
    · rintro ⟨_, rfl⟩
      rfl
  · rw [if_neg hzero, cut_eq_ok_iff]
    have hspill : scan.run % .ofNat blockBits = scan.run := by
      apply UInt64.toNat.inj
      rw [UInt64.toNat_mod]
      exact Nat.mod_eq_of_lt hrun
    rw [hspill]
    constructor
    · rintro ⟨h, _⟩
      exact absurd h hzero
    · rintro ⟨h, _⟩
      exact absurd h hzero

/-- The schema that a table is compiled to, by what is known behind its last field. -/
def schema (scan : Scan) (settings : Settings) (name : String) : Schema where
  name
  placements := scan.placements
  sections := scan.sections
  padding := scan.padding
  blocks := scan.block.toNat
  slotCount := scan.slot.toNat
  onMiss := settings.onMiss

end Scan

/-- A table compiles when its fields can be placed, the last of them up to the end of a block, and
its blocks can be announced. -/
theorem Schema.compile_eq_ok_iff {settings : Settings} {name : String} {table : List Field}
    {schema : Schema} :
    Schema.compile settings name table = .ok schema ↔
      ∃ scan, (declared table).foldlM (Scan.place name) {} = .ok scan ∧ scan.run = 0 ∧
        scan.block.toNat ≤ settings.maxBlocks ∧ schema = scan.schema settings name := by
  rw [compile]
  cases hfold : (declared table).foldlM (Scan.place name) {} with
  | error fault =>
    constructor
    · rintro ⟨⟩
    · rintro ⟨_, ⟨⟩, _⟩
  | ok scan =>
    have hrun : scan.run.toNat < blockBits := Scan.run_lt_of_foldlM (by decide) hfold
    simp only [bind, Except.bind]
    constructor
    · intro h
      cases hfinish : scan.finish name with
      | error fault => rw [hfinish] at h; cases h
      | ok scan' =>
        obtain ⟨hzero, rfl⟩ := (Scan.finish_eq_ok_iff hrun).1 hfinish
        rw [hfinish] at h
        by_cases hlarge : settings.maxBlocks < scan'.block.toNat
        · simp only [if_pos hlarge] at h
          cases h
        · simp only [if_neg hlarge] at h
          cases h
          exact ⟨scan', rfl, hzero, by omega, rfl⟩
    · rintro ⟨_, ⟨⟩, hzero, hblocks, rfl⟩
      rw [(Scan.finish_eq_ok_iff hrun).2 ⟨hzero, rfl⟩]
      simp only [if_neg (show ¬settings.maxBlocks < scan.block.toNat by omega)]
      rfl

theorem Schema.blocks_le_of_compile {settings : Settings} {name : String} {table : List Field}
    {schema : Schema} (h : Schema.compile settings name table = .ok schema) :
    schema.blocks ≤ settings.maxBlocks := by
  obtain ⟨scan, _, _, hblocks, rfl⟩ := Schema.compile_eq_ok_iff.1 h
  exact hblocks

/-- What is computed from a compiled schema says that the table compiles. -/
theorem Schema.exists_of_compile {settings : Settings} {name : String} {table : List Field}
    {α : Type} {f : Schema → α} {a : α}
    (h : (Schema.compile settings name table).toOption.map f = some a) :
    ∃ schema, Schema.compile settings name table = .ok schema ∧ f schema = a := by
  cases hcompile : Schema.compile settings name table with
  | error fault =>
    rw [hcompile] at h
    cases h
  | ok schema =>
    rw [hcompile] at h
    exact ⟨schema, rfl, Option.some.inj h⟩

/-- A named field of a compiled table is found by its name. -/
theorem Schema.fieldNamed?_eq_some_iff {settings : Settings} {schemaName : String}
    {table : List Field} {schema : Schema}
    (hcompile : Schema.compile settings schemaName table = .ok schema) {name : String} {k : Nat} :
    schema.fieldNamed? name = some k ↔ ∃ p, schema.placement? k = some p ∧
      p.field.isPadding = false ∧ p.field.name = name := by
  obtain ⟨scan, hfold, _, _, rfl⟩ := Schema.compile_eq_ok_iff.1 hcompile
  have hfields : scan.placements.map Placement.field = declared table :=
    Scan.map_field_of_foldlM hfold
  have hnames := Scan.pairwise_name_of_foldlM hfold
  rw [← hfields, List.pairwise_map] at hnames
  show scan.placements.findIdx? _ = some k ↔ ∃ p, scan.placements[k]? = some p ∧ _
  rw [List.findIdx?_eq_some_iff_getElem]
  simp only [Bool.and_eq_true, Bool.not_eq_true', beq_iff_eq]
  constructor
  · rintro ⟨hk, hfound, _⟩
    exact ⟨_, List.getElem?_eq_getElem hk, hfound⟩
  · rintro ⟨p, hp, hnamed, rfl⟩
    obtain ⟨hk, rfl⟩ := List.getElem?_eq_some_iff.1 hp
    refine ⟨hk, ⟨hnamed, rfl⟩, fun j hj hfirst => ?_⟩
    -- no field in front has the name of this one
    have hdiffer := List.pairwise_iff_getElem.1 hnames j k (by omega) hk hj
    rw [hnamed, hfirst.1] at hdiffer
    simp [hfirst.2] at hdiffer

end ObjectSync
