import ObjectSync.Proofs.Declaration.Tiling

/-!
# Elements and blocks

Clients read whole words, so an element must not cross the end of a block, and one of two blocks
has to start where a block does. The compiler never looks for that. It looks at the end of a field,
and only when the fields since the last cut fill a block (`Schema.Overruns`).

That is enough. Widths divide the block, or are twice the block. A field that does not end in the
block where it starts ends where a block does, and counted back from there its elements start at
multiples of their width. An element of two blocks brings on a cut, so its field does not start
behind the first block of its section (`Scan.Leading`), and having to start where a block does, it
starts where the section does.

**`Schema.compile_unbroken`** says so of every named field.
-/

namespace ObjectSync

/-- The first bit of an element. -/
def Placement.bit (p : Placement) (element : Nat) : Nat :=
  p.offset.toNat + element * p.field.kind.bits

/-! ## Elements of a field -/

theorem FieldKind.bits_dvd {kind : FieldKind} (hpos : 0 < kind.bits) (hle : kind.bits ≤ blockBits) :
    kind.bits ∣ blockBits := by
  cases kind <;> revert hpos hle <;> decide

namespace Schema

variable {start width length j : Nat}

theorem not_overruns_iff {stop : Nat} :
    ¬Overruns start stop ↔ stop / blockBits ≤ start / blockBits ∨ stop % blockBits = 0 := by
  rw [Overruns, not_and_or, Nat.not_lt, not_not]

/-- In a field that does not overrun its block, no element crosses the end of one. -/
theorem element_div_eq (hpos : 0 < width) (hdvd : width ∣ blockBits)
    (hfits : ¬Overruns start (start + width * length)) (hj : j < length) :
    (start + j * width) / blockBits = (start + j * width + width - 1) / blockBits := by
  rcases not_overruns_iff.1 hfits with hsame | hend
  · -- the field starts and ends in the same block, and the element lies in between
    have hstop : start + j * width + width ≤ start + width * length := by
      have hle := Nat.mul_le_mul_left width (Nat.succ_le_of_lt hj)
      rw [Nat.mul_succ, Nat.mul_comm width j] at hle
      omega
    have hfirst : start / blockBits ≤ (start + j * width) / blockBits :=
      Nat.div_le_div_right (Nat.le_add_right _ _)
    have hlast : (start + j * width + width - 1) / blockBits ≤
        (start + width * length) / blockBits := Nat.div_le_div_right (by omega)
    have hle : (start + j * width) / blockBits ≤ (start + j * width + width - 1) / blockBits :=
      Nat.div_le_div_right (by omega)
    omega
  · -- the field ends where a block does, so the element starts at a multiple of its width
    have hstop : width ∣ start + width * length := Nat.dvd_trans hdvd (Nat.dvd_of_mod_eq_zero hend)
    have hstart : width ∣ start := (Nat.dvd_add_left (Nat.dvd_mul_right width length)).1 hstop
    obtain ⟨q, hq⟩ := Nat.dvd_add hstart (Nat.dvd_mul_left width j)
    obtain ⟨m, hm⟩ := hdvd
    have hlast : (width * q + width - 1) / width = q := by
      rw [Nat.add_sub_assoc hpos, Nat.mul_add_div hpos, Nat.div_eq_of_lt (by omega), Nat.add_zero]
    rw [hq, hm, ← Nat.div_div_eq_div_mul, ← Nat.div_div_eq_div_mul, hlast,
      Nat.mul_div_cancel_left q hpos]

/-- A field of elements of two blocks has to end where a block does, and so it starts where one
does. -/
theorem dvd_start (hfits : ¬Overruns start (start + 2 * blockBits * length))
    (hlength : 0 < length) : blockBits ∣ start := by
  rw [not_overruns_iff] at hfits
  simp only [blockBits] at *
  omega

/-! ## Fields of a compiled table -/

variable {settings : Settings} {name : String} {table : List Field} {schema : Schema}
  {k : Nat} {p : Placement}

theorem bitsBefore_succ {fields : List Field} {field : Field} (hfield : fields[k]? = some field) :
    bitsBefore fields (k + 1) = bitsBefore fields k + field.room := by
  rw [bitsBefore, List.take_add_one, hfield, Field.roomOf_append]
  rfl

theorem faultAt_of_compile (hfits : FitsSize table)
    (hcompile : compile settings name table = .ok schema) (hk : k < (declared table).length) :
    faultAt name (declared table) k = none := by
  obtain ⟨scan, hscan, -⟩ := compile_eq_ok_iff.1 hcompile
  have hfold := Scan.Behind.start.foldlM_eq name
    (fun _ (hfield : _ ∈ declared table) => isStop_of_mem_declared hfield) hfits
  rw [List.nil_append, List.length_nil, ← List.range_eq_range'] at hfold
  cases hfault : (List.range (declared table).length).findSome?
      (faultAt name (declared table)) with
  | some fault =>
    rw [hfault] at hfold
    cases hscan.symm.trans hfold
  | none => exact List.findSome?_eq_none_iff.1 hfault k (List.mem_range.2 hk)

theorem not_overruns_of_compile (hfits : FitsSize table)
    (hcompile : compile settings name table = .ok schema) (hk : schema.placements[k]? = some p) :
    ¬Overruns p.offset.toNat (p.offset.toNat + p.field.room) := by
  obtain ⟨scan, hbehind, htiled, hschema⟩ := scan_tiled hfits hcompile
  have hfield : (declared table)[k]? = some p.field := by
    rw [hschema] at hk
    rw [← hbehind.fields_eq, List.getElem?_map]
    exact congrArg (Option.map Placement.field) hk
  have hoffset : p.offset.toNat = bitsBefore (declared table) k := by
    rw [hschema] at hk
    exact htiled.offset_eq k p hk
  have hfault := faultAt_of_compile hfits hcompile (List.getElem?_eq_some_iff.1 hfield).1
  intro hover
  simp only [faultAt, hfield, bitsBefore_succ hfield, ← hoffset, if_pos hover] at hfault
  split at hfault <;> cases hfault

end Schema

/-! ## The first block of a section -/

/-- The fields that name section `i` start in this block, or in front of it. -/
def StartBy (placements : List Placement) (i block : Nat) : Prop :=
  ∀ p ∈ placements, p.home = some i → p.offset.toNat < (block + 1) * blockBits

namespace Scan

/-- A field does not start behind the first block of its section. -/
structure Leading (scan : Scan) : Prop where
  housed : ∀ i part, scan.sections[i]? = some part →
    StartBy scan.placements i part.span.start.toNat
  uncut : StartBy scan.placements scan.sections.length scan.block.toNat

namespace Leading

variable {name : String} {scan next : Scan} {field : Field} {before : List Field}

theorem start : Leading {} where
  housed := by simp
  uncut := by simp [StartBy]

theorem put (h : scan.Leading) (hbehind : scan.Behind before) : (scan.put field).Leading := by
  have hfirst : scan.offset.toNat < (scan.block.toNat + 1) * blockBits := by
    rw [hbehind.offset_eq, hbehind.block_eq]
    simp only [blockBits]
    omega
  cases hp : field.isPadding with
  | true =>
    rw [put_of_padding hp]
    exact {
      housed := fun i part hpart => List.forall_mem_append.2 ⟨h.housed i part hpart, by simp⟩
      uncut := List.forall_mem_append.2 ⟨h.uncut, by simp⟩ }
  | false =>
    rw [put_of_named hp]
    exact {
      housed := by
        intro i part hpart
        refine List.forall_mem_append.2 ⟨h.housed i part hpart, fun p hp hhome => ?_⟩
        -- the section that a new field names is not there yet
        obtain rfl := List.mem_singleton.1 hp
        have hlt := (List.getElem?_eq_some_iff.1 hpart).1
        exact absurd (Option.some.inj hhome) (Nat.ne_of_gt hlt)
      uncut := List.forall_mem_append.2 ⟨h.uncut, by simpa using hfirst⟩ }

theorem closed (h : scan.Leading) (hsound : scan.Sound) : scan.closed.Leading := by
  by_cases huncut : scan.uncut = []
  · have hnone := hsound.uncut.mem_iff
    rw [huncut] at hnone
    rw [closed_of_nil huncut]
    exact {
      housed := h.housed
      uncut := fun p hp hhome => absurd hhome (Lists.home_ne_of_nil hnone p hp) }
  · rw [closed_of_ne_nil huncut]
    exact {
      housed := by
        intro i part hpart
        rcases Gathered.getElem?_concat.1 hpart with hold | ⟨rfl, rfl⟩
        · exact h.housed i part hold
        · exact h.uncut
      uncut := by
        intro p hp hhome
        have hle := hsound.home_le p hp _ hhome
        simp only [List.length_append, List.length_singleton] at hle
        omega }

theorem place (h : scan.Leading) (hbehind : scan.Behind before) (hstop : field.isStop = false)
    (hroom : scan.offset.toNat + field.room < 2 ^ 64)
    (hplace : scan.place name field = .ok next) : next.Leading := by
  have hput : (scan.put field).Leading := h.put hbehind
  obtain ⟨_, ⟨_, rfl⟩ | ⟨_, _, rfl⟩⟩ := place_eq_ok_iff.1 hplace
  · exact hput
  · exact hput.closed (hbehind.sound.put hstop hroom)

theorem foldlM {fields : List Field} (hstop : ∀ field ∈ fields, field.isStop = false)
    (hroom : Field.roomOf fields < 2 ^ 64) (hfold : fields.foldlM (Scan.place name) {} = .ok scan) :
    scan.Leading := by
  refine (Behind.foldlM_of_place (P := fun _ scan => scan.Leading) hstop hroom start ?_ hfold).2
  intro before field scan next hbehind h hfield hbound hplace
  exact h.place hbehind hfield hbound hplace

end Leading

end Scan

/-! ## Unbroken elements -/

namespace Schema

variable {settings : Settings} {name : String} {table : List Field} {schema : Schema}
  {i k : Nat} {p : Placement} {part : Section}

theorem lt_of_compile (hfits : FitsSize table)
    (hcompile : compile settings name table = .ok schema)
    (hi : schema.sections[i]? = some part) (hp : p ∈ schema.placements) (hhome : p.home = some i) :
    p.offset.toNat < (part.span.start.toNat + 1) * blockBits := by
  obtain ⟨scan, hfold, _, _, rfl⟩ := compile_eq_ok_iff.1 hcompile
  have hleading := Scan.Leading.foldlM (fun _ => isStop_of_mem_declared) hfits hfold
  exact hleading.housed i part hi p hp hhome

/-- No element of the field is broken up: it lies in one block, or is two blocks of a section that
starts with the field. -/
structure Unbroken (schema : Schema) (k : Nat) (p : Placement) : Prop where
  narrow : p.field.kind.bits ≤ blockBits → ∀ j < p.field.length.toNat,
    p.bit j / blockBits = (p.bit j + p.field.kind.bits - 1) / blockBits
  wide : p.field.kind.bits = 2 * blockBits → ∀ j < p.field.length.toNat,
    blockBits ∣ p.bit j ∧ ∃ (i : Nat) (part : Section), schema.sections[i]? = some part ∧
      p.home = some i ∧ k ∈ part.fields ∧ p.bit j / blockBits ∈ part.span ∧
      p.bit j / blockBits + 1 ∈ part.span ∧ part.span.start.toNat * blockBits = p.offset.toNat ∧
      -- what the section lists in front of the field has no elements
      ∀ m ∈ part.fields, m < k → ∃ q, schema.placement? m = some q ∧ q.field.length = 0

theorem Sound.length_eq_zero (h : schema.Sound) (hi : schema.sections[i]? = some part)
    (hk : schema.placement? k = some p)
    (hstart : part.span.start.toNat * blockBits = p.offset.toNat)
    {m : Nat} (hm : m ∈ part.fields) (hlt : m < k) :
    ∃ q, schema.placement? m = some q ∧ q.field.length = 0 := by
  obtain ⟨q, hq, hhome, _⟩ := h.arranged.field_of_section hi hm
  have hmem := List.mem_of_getElem? hq
  refine ⟨q, hq, UInt64.toNat_inj.1 ?_⟩
  -- the field lies between the start of the section and that of field `k`
  obtain ⟨hfirst, _⟩ := (h.arranged.gathered i part hi).inside q hmem hhome
  obtain ⟨hlength, rfl⟩ := List.getElem?_eq_some_iff.1 hq
  obtain ⟨hlength', rfl⟩ := List.getElem?_eq_some_iff.1 hk
  have hbefore := (List.pairwise_iff_getElem.1 h.arranged.ordered m k hlength hlength' hlt).1
  have hpos := Field.bits_pos (h.arranged.isStop_field _ hmem)
  have hroom : schema.placements[m].field.room = 0 := by omega
  rw [Field.room, Nat.mul_eq_zero] at hroom
  exact hroom.resolve_left (Nat.ne_of_gt hpos)

theorem compile_unbroken (hfits : FitsSize table)
    (hcompile : compile settings name table = .ok schema) (hk : schema.placement? k = some p)
    (hnamed : p.field.isPadding = false) : schema.Unbroken k p := by
  have hsound := (compile_sound hfits hcompile).1
  have hmem := List.mem_of_getElem? hk
  have hover := not_overruns_of_compile hfits hcompile hk
  have hpos := Field.bits_pos (hsound.arranged.isStop_field p hmem)
  rw [Field.room] at hover
  exact {
    narrow := fun hle j hj => element_div_eq hpos (FieldKind.bits_dvd hpos hle) hover hj
    wide := by
      intro hbits j hj
      have hroom : p.field.room = 2 * blockBits * p.field.length.toNat := by
        rw [Field.room, hbits]
      have hlength : 0 < p.field.length.toNat := Nat.zero_lt_of_lt hj
      rw [hbits] at hover
      have hdvd := dvd_start hover hlength
      obtain ⟨i, part, hi, hlisted, _, hfirst, hlast⟩ := hsound.section_of_field hk hnamed (by
        simp only [blockBits] at *
        omega)
      obtain ⟨q, hq, hhome⟩ := ((hsound.arranged.gathered i part hi).mem_iff k).1 hlisted
      obtain rfl := Option.some.inj (hk.symm.trans hq)
      have hlt := lt_of_compile hfits hcompile hi hmem hhome
      have hstart : part.span.start.toNat * blockBits = p.offset.toNat := by
        simp only [blockBits] at *
        omega
      have hstop := hsound.arranged.stop_eq part (List.mem_of_getElem? hi)
      have hbit : p.bit j = p.offset.toNat + j * (2 * blockBits) := by rw [Placement.bit, hbits]
      have hblock : p.bit j / blockBits = part.span.start.toNat + 2 * j := by
        rw [hbit, ← hstart]
        simp only [blockBits]
        omega
      have hspan : part.span.start.toNat + 2 * j + 1 < part.span.stop.toNat := by
        rw [hstop]
        simp only [blockBits] at *
        omega
      refine ⟨?_, i, part, hi, hhome, hlisted, ?_, ?_, hstart, fun m hm hlt =>
        hsound.length_eq_zero hi hk hstart hm hlt⟩
      · rw [hbit]
        simp only [blockBits] at *
        omega
      · rw [hblock]
        exact ⟨by omega, by omega⟩
      · rw [hblock]
        exact ⟨by omega, hspan⟩ }

end Schema

end ObjectSync
