import ObjectSync.Proofs.Declaration.Tiling

/-!
# Which fields have a section

A named field is told its section before the section is there: the number of sections so far is that
of the section which the next cut makes. So the promise is kept for the fields that a cut follows,
whatever the table counts to, and it is not for those behind the last cut. These are the fields from
which on everything starts in the block behind the last one (`Schema.Trails`), and in a table whose
width is a size, the fields from which on nothing takes a bit (`Schema.trails_iff`).

**`Schema.home_of_compile`** says both; `Scan.Housed` is what it comes from.
-/

namespace ObjectSync

theorem Size.sub_add_eq (a b c : Size) : a - (b + c) = a - b - c := by
  rw [UInt64.sub_eq_add_neg, UInt64.neg_add, UInt64.sub_eq_add_neg, ← UInt64.add_assoc,
    ← UInt64.sub_eq_add_neg, ← UInt64.sub_eq_add_neg]

/-! ## The scan -/

namespace Scan

/-- The field and all behind it start in the first block that is not cut off. -/
def Trails (scan : Scan) (k : Nat) : Prop :=
  ∀ p ∈ scan.placements.drop k, (p.offset - scan.block * .ofNat blockBits).toNat < blockBits

/-- The sections so far list the fields that name them. Those that name the next one are uncut, and
nothing else is. -/
structure Housed (scan : Scan) : Prop where
  isSome_home : ∀ p ∈ scan.placements, p.home.isSome = !p.field.isPadding
  home_le : ∀ p ∈ scan.placements, ∀ i, p.home = some i → i ≤ scan.sections.length
  listed : ∀ i part, scan.sections[i]? = some part → Lists scan.placements i part.fields
  uncut : Lists scan.placements scan.sections.length scan.uncut
  trails_iff : ∀ k p, scan.placements[k]? = some p → p.field.isPadding = false →
    (k ∈ scan.uncut ↔ scan.Trails k)

variable {name : String} {scan scan' : Scan} {field : Field} {k : Nat}

theorem Housed.start : Housed {} where
  isSome_home _ hp := nomatch hp
  home_le _ hp := nomatch hp
  listed _ _ hpart := nomatch hpart
  uncut := .empty fun _ hp => nomatch hp
  trails_iff _ _ hp := nomatch hp

/-- A field is put where the block behind the last cut is not full yet. -/
theorem trails_put (hcounted : scan.Counted) (hrun : scan.run.toNat < blockBits)
    (hk : k ≤ scan.placements.length) :
    (scan.put field).Trails k ↔ scan.Trails k := by
  obtain ⟨home, hplacements⟩ := scan.placements_put field
  rw [Trails, Trails, hplacements, block_put, List.drop_append_of_le_length hk,
    List.forall_mem_append]
  refine and_iff_left fun p hp => ?_
  obtain rfl := List.mem_singleton.1 hp
  rwa [hcounted] at hrun

theorem trails_length (scan : Scan) : scan.Trails scan.placements.length := by
  rw [Trails, List.drop_length]
  exact fun _ hp => nomatch hp

theorem Housed.put (h : scan.Housed) (hcounted : scan.Counted)
    (hrun : scan.run.toNat < blockBits) : (scan.put field).Housed := by
  have htrails (k : Nat) (hk : k ≤ scan.placements.length) :
      (scan.put field).Trails k ↔ scan.Trails k := trails_put hcounted hrun hk
  have hlt {k : Nat} {p : Placement} (hp : scan.placements[k]? = some p) :
      k < scan.placements.length := (List.getElem?_eq_some_iff.1 hp).1
  cases hpadding : field.isPadding with
  | true =>
    -- padding names no section
    rw [put_of_padding hpadding] at htrails ⊢
    exact {
      isSome_home := List.forall_mem_append.2 ⟨h.isSome_home, by simp [hpadding]⟩
      home_le := List.forall_mem_append.2 ⟨h.home_le, by simp⟩
      listed := fun i part hpart => (h.listed i part hpart).skip (by simp)
      uncut := h.uncut.skip (by simp)
      trails_iff := by
        intro k p hp hnamed
        rcases Gathered.getElem?_concat.1 hp with hold | ⟨_, rfl⟩
        · rw [h.trails_iff k p hold hnamed, htrails k (Nat.le_of_lt (hlt hold))]
        · rw [hpadding] at hnamed
          cases hnamed }
  | false =>
    -- a named field names the section that the next cut makes, which no field in front has
    rw [put_of_named hpadding] at htrails ⊢
    exact {
      isSome_home := List.forall_mem_append.2 ⟨h.isSome_home, by simp [hpadding]⟩
      home_le := List.forall_mem_append.2 ⟨h.home_le, by simp⟩
      listed := fun i part hpart => by
        have hi := (List.getElem?_eq_some_iff.1 hpart).1
        refine (h.listed i part hpart).skip fun hhome => ?_
        exact absurd (Option.some.inj hhome) (Nat.ne_of_gt hi)
      uncut := h.uncut.add rfl
      trails_iff := by
        intro k p hp hnamed
        rw [List.mem_append, List.mem_singleton]
        rcases Gathered.getElem?_concat.1 hp with hold | ⟨rfl, _⟩
        · rw [h.trails_iff k p hold hnamed, htrails k (Nat.le_of_lt (hlt hold))]
          exact or_iff_left (Nat.ne_of_lt (hlt hold))
        · exact iff_of_true (.inr rfl) ((htrails _ Nat.le.refl).2 scan.trails_length) }

theorem uncut_closed : scan.closed.uncut = [] := by
  by_cases huncut : scan.uncut = []
  · rw [closed_of_nil huncut, huncut]
  · rw [closed_of_ne_nil huncut]

/-- The field in front of a cut does not start in the first block behind it. -/
theorem not_trails_closed (hcounted : scan.Counted) (hrun : scan.run.toNat < blockBits)
    (hfull : blockBits ≤ (scan.put field).run.toNat)
    (hspill : (scan.put field).run % .ofNat blockBits = 0) (hk : k ≤ scan.placements.length) :
    ¬(scan.put field).closed.Trails k := by
  obtain ⟨home, hplacements⟩ := scan.placements_put field
  intro htrails
  have hlast := htrails { field, offset := scan.offset, slot := scan.slot, home } (by
    rw [placements_closed, hplacements, List.drop_append_of_le_length hk]
    simp)
  -- it starts less than a block behind the cut before, so its distance from this one wraps around
  rw [block_closed, UInt64.add_mul, run_div_mul hspill, block_put, Size.sub_add_eq, ← hcounted,
    UInt64.toNat_sub] at hlast
  have hmod := congrArg UInt64.toNat hspill
  rw [UInt64.toNat_mod, show (UInt64.ofNat blockBits).toNat = blockBits from rfl,
    UInt64.toNat_zero] at hmod
  have hlt := (scan.put field).run.toNat_lt
  simp only [blockBits] at *
  omega

theorem Housed.closed (h : scan.Housed)
    (hcut : ∀ k < scan.placements.length, ¬scan.closed.Trails k) : scan.closed.Housed := by
  have htrails (k : Nat) (p : Placement) (hp : scan.closed.placements[k]? = some p)
      (_ : p.field.isPadding = false) : k ∈ scan.closed.uncut ↔ scan.closed.Trails k := by
    rw [uncut_closed]
    rw [placements_closed] at hp
    exact iff_of_false List.not_mem_nil (hcut k (List.getElem?_eq_some_iff.1 hp).1)
  by_cases huncut : scan.uncut = []
  · -- only padding since the last cut, so the next section is still the same one
    rw [closed_of_nil huncut] at htrails ⊢
    exact { h with trails_iff := htrails }
  · -- the uncut fields are a section from now on, and no field names the one behind it yet
    rw [closed_of_ne_nil huncut] at htrails ⊢
    have hnext (p : Placement) (hp : p ∈ scan.placements) (i : Nat) (hi : p.home = some i)
        (part : Section) : i < (scan.sections ++ [part]).length := by
      rw [List.length_append]
      exact Nat.lt_succ_of_le (h.home_le p hp i hi)
    exact {
      isSome_home := h.isSome_home
      home_le := fun p hp i hi => Nat.le_of_lt (hnext p hp i hi _)
      listed := by
        intro i part hpart
        rcases Gathered.getElem?_concat.1 hpart with hold | ⟨rfl, rfl⟩
        · exact h.listed i part hold
        · exact h.uncut
      uncut := .empty fun p hp hhome => absurd (hnext p hp _ hhome _) (Nat.lt_irrefl _)
      trails_iff := htrails }

theorem Housed.place (h : scan.Housed) (hcounted : scan.Counted)
    (hrun : scan.run.toNat < blockBits) (hplace : scan.place name field = .ok scan') :
    scan'.Housed := by
  obtain ⟨_, ⟨_, rfl⟩ | ⟨hfull, hspill, rfl⟩⟩ := place_eq_ok_iff.1 hplace
  · exact h.put hcounted hrun
  · refine (h.put hcounted hrun).closed fun k hk =>
      not_trails_closed hcounted hrun hfull hspill ?_
    obtain ⟨home, hplacements⟩ := scan.placements_put field
    rw [hplacements, List.length_append] at hk
    exact Nat.le_of_lt_succ hk

theorem Housed.foldlM {fields : List Field}
    (hfold : fields.foldlM (Scan.place name) {} = .ok scan) : scan.Housed := by
  refine (foldlM_induction
    (P := fun _ scan => scan.Counted ∧ scan.run.toNat < blockBits ∧ scan.Housed)
    ⟨.start, by decide, .start⟩ ?_ hfold).2.2
  rintro _ field _ scan next _ ⟨hcounted, hrun, h⟩ hplace
  exact ⟨hcounted.place hplace, run_lt_of_place hplace, h.place hcounted hrun hplace⟩

end Scan

/-! ## Compiled tables -/

namespace Schema

/-- The field and all behind it start in the block behind the last one. -/
def Trails (schema : Schema) (k : Nat) : Prop :=
  ∀ p ∈ schema.placements.drop k,
    (p.offset - .ofNat schema.blocks * .ofNat blockBits).toNat < blockBits

variable {settings : Settings} {name : String} {table : List Field} {schema : Schema} {k : Nat}
  {p : Placement}

/-- A named field is told the section that lists it, unless it is behind the last cut: then it is
told one that is not there. -/
theorem home_of_compile (hcompile : compile settings name table = .ok schema)
    (hk : schema.placement? k = some p) (hnamed : p.field.isPadding = false) :
    ∃ i, schema.sectionOf? k = some i ∧
      (schema.Trails k → i = schema.sections.length) ∧
      (¬schema.Trails k → ∃ part, schema.sections[i]? = some part ∧ k ∈ part.fields) := by
  obtain ⟨scan, hfold, _, _, rfl⟩ := compile_eq_ok_iff.1 hcompile
  have h := Scan.Housed.foldlM hfold
  have htrails : (scan.schema settings name).Trails k ↔ k ∈ scan.uncut := by
    rw [h.trails_iff k p hk hnamed, Trails, Scan.Trails, Scan.schema, UInt64.ofNat_toNat]
  have hmem := List.mem_of_getElem? hk
  obtain ⟨i, hhome⟩ :=
    Option.isSome_iff_exists.1 ((h.isSome_home p hmem).trans (by rw [hnamed]; rfl))
  refine ⟨i, ?_, fun htrail => ?_, fun hnot => ?_⟩
  · rw [sectionOf?, hk]
    exact hhome
  · obtain ⟨p', hk', hhome'⟩ := (h.uncut k).1 (htrails.1 htrail)
    cases hk.symm.trans hk'
    exact Option.some.inj (hhome.symm.trans hhome')
  · have hne : i ≠ scan.sections.length := by
      rintro rfl
      exact hnot (htrails.2 ((h.uncut k).2 ⟨p, hk, hhome⟩))
    have hi := Nat.lt_of_le_of_ne (h.home_le p hmem i hhome) hne
    have hpart := List.getElem?_eq_getElem hi
    exact ⟨_, hpart, (h.listed i _ hpart k).2 ⟨p, hk, hhome⟩⟩

theorem bitsBefore_add_roomOf_drop (fields : List Field) (k : Nat) :
    bitsBefore fields k + Field.roomOf (fields.drop k) = Field.roomOf fields := by
  rw [bitsBefore, ← Field.roomOf_append, List.take_append_drop]

/-- Where the width of a table is a size, a field starts in the block behind the last one when there
is no bit left for it and the fields behind it. -/
theorem start_lt_iff (hfits : FitsSize table) (hcompile : compile settings name table = .ok schema)
    (hk : schema.placement? k = some p) :
    (p.offset - .ofNat schema.blocks * .ofNat blockBits).toNat < blockBits ↔
      Field.roomOf ((declared table).drop k) = 0 := by
  obtain ⟨hsound, hblocks⟩ := compile_sound hfits hcompile
  obtain ⟨scan, _, htiled, rfl⟩ := scan_tiled hfits hcompile
  have hoffset := htiled.offset_eq k p hk
  have hle := hsound.blocks_le
  have hsum := bitsBefore_add_roomOf_drop (declared table) k
  have hstop : (UInt64.ofNat (scan.schema settings name).blocks * .ofNat blockBits).toNat =
      Field.roomOf (declared table) := by
    rw [UInt64.toNat_mul, UInt64.toNat_ofNat_of_lt' (Nat.lt_of_le_of_lt hle (by decide)),
      show (UInt64.ofNat blockBits).toNat = blockBits from rfl, hblocks]
    exact Nat.mod_eq_of_lt hfits
  rw [UInt64.toNat_sub, hstop, hoffset]
  simp only [maskBlocks, maskWords, blockBits] at *
  omega

/-- In a table whose width is a size, the fields behind the last cut are those from which on nothing
takes a bit. -/
theorem trails_iff (hfits : FitsSize table) (hcompile : compile settings name table = .ok schema)
    (hk : schema.placement? k = some p) :
    schema.Trails k ↔ Field.roomOf ((declared table).drop k) = 0 := by
  constructor
  · intro htrails
    refine (start_lt_iff hfits hcompile hk).1 (htrails p (List.mem_of_getElem? (i := 0) ?_))
    rw [List.getElem?_drop]
    exact hk
  · intro hzero q hq
    obtain ⟨n, hn⟩ := List.getElem?_of_mem hq
    rw [List.getElem?_drop] at hn
    refine (start_lt_iff hfits hcompile hn).2 ?_
    have hsum := bitsBefore_add_roomOf_drop ((declared table).drop k) n
    rw [List.drop_drop] at hsum
    omega

end Schema

end ObjectSync
