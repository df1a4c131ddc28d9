import Mathlib.Algebra.Ring.Nat
import ObjectSync.Proofs.Declaration.Compile

/-!
# How a compiled table is arranged

A schema is written for the encoder: for each field its first bit, its first slot and its section,
for each section its blocks and its fields. `Schema.Sound` says that these agree. Fields come one
behind the other, in bits and in slots; a section holds exactly the fields that name it, inside its
blocks; sections come one behind the other, below the last block.

**`Schema.compile_sound`** says that a compiled table is arranged like that, if its width is a
size (`FitsSize`). That is the only thing the compiler does not look at: it counts modulo 2⁶⁴, and a
wider table may compile to fields and sections that lie on top of each other.

The proof follows the compiler. `Scan.Sound` says the same of the fields so far, and every step
keeps it.
-/

namespace ObjectSync

/-! ## Width -/

namespace Field

/-- The bits that the field takes, as a number. -/
def room (f : Field) : Nat := f.kind.bits * f.length.toNat

/-- The value slots that the field takes. -/
def slots (f : Field) : Nat := if f.isPadding then 0 else f.length.toNat

theorem toNat_bits {f : Field} (h : f.room < 2 ^ 64) : f.bits.toNat = f.room := by
  have hkind : (UInt64.ofNat f.kind.bits).toNat = f.kind.bits := by
    cases f.kind <;> rfl
  rw [bits, UInt64.toNat_mul, hkind]
  exact Nat.mod_eq_of_lt h

theorem bits_pos {f : Field} (h : f.isStop = false) : 0 < f.kind.bits := by
  cases hkind : f.kind with
  | stop => rw [isStop, hkind] at h; cases h
  | _ => decide

theorem bits_le (f : Field) : f.kind.bits ≤ 64 := by
  cases f.kind <;> decide

theorem slots_of_padding {f : Field} (h : f.isPadding = true) : f.slots = 0 := by
  rw [slots, if_pos h]

/-- A named field has a slot for each element. -/
theorem slots_of_named {f : Field} (h : f.isPadding = false) : f.slots = f.length.toNat := by
  rw [slots, if_neg (by rw [h]; decide)]

theorem slots_le_room {f : Field} (h : f.isStop = false) : f.slots ≤ f.room := by
  have hlength : f.length.toNat ≤ f.room := Nat.le_mul_of_pos_left _ (bits_pos h)
  rw [slots]
  split <;> omega

/-- The bits that a table takes, as a number. -/
def roomOf (fields : List Field) : Nat := (fields.map room).sum

@[simp] theorem roomOf_cons (f : Field) (fields : List Field) :
    roomOf (f :: fields) = f.room + roomOf fields := rfl

@[simp] theorem roomOf_append (fields fields' : List Field) :
    roomOf (fields ++ fields') = roomOf fields + roomOf fields' := by
  rw [roomOf, List.map_append, List.sum_append_nat]
  rfl

end Field

/-- The width of the table is a size. -/
def FitsSize (table : List Field) : Prop := Field.roomOf (Schema.declared table) < 2 ^ 64

instance (table : List Field) : Decidable (FitsSize table) :=
  inferInstanceAs (Decidable (_ < _))

/-! ## Fields and sections -/

/-- One field ends before the other starts, in bits and in slots. -/
def Placement.Before (p q : Placement) : Prop :=
  p.offset.toNat + p.field.room ≤ q.offset.toNat ∧ p.slot.toNat + p.field.slots ≤ q.slot.toNat

/-- The fields are those that name section `i`, by their place in the table. -/
def Lists (placements : List Placement) (i : Nat) (fields : List Nat) : Prop :=
  ∀ k, k ∈ fields ↔ ∃ p, placements[k]? = some p ∧ p.home = some i

/-- Section `i` has exactly the fields that name it, and they lie between two bits. -/
structure Gathered (placements : List Placement) (i : Nat) (fields : List Nat)
    (first last : Nat) : Prop where
  mem_iff : ∀ k, k ∈ fields ↔ ∃ p, placements[k]? = some p ∧ p.home = some i
  inside : ∀ p ∈ placements, p.home = some i →
    first ≤ p.offset.toNat ∧ p.offset.toNat + p.field.room ≤ last

section Fields

variable {placements : List Placement} {p q : Placement} {i k first last : Nat} {fields : List Nat}

theorem Gathered.getElem?_concat {α : Type} {items : List α} {a b : α} :
    (items ++ [a])[k]? = some b ↔ items[k]? = some b ∨ k = items.length ∧ a = b := by
  rcases Nat.lt_trichotomy k items.length with hk | rfl | hk
  · rw [List.getElem?_append_left hk]
    exact ⟨.inl, fun h => h.resolve_right fun h => by omega⟩
  · rw [List.getElem?_concat_length, List.getElem?_eq_none Nat.le.refl]
    simp
  · rw [List.getElem?_eq_none (by rw [List.length_append]; exact hk),
      List.getElem?_eq_none (Nat.le_of_lt hk)]
    simp
    omega

namespace Lists

/-- A field that names another section, or none, changes nothing. -/
theorem skip (h : Lists placements i fields) (hp : p.home ≠ some i) :
    Lists (placements ++ [p]) i fields := by
  intro k
  rw [h k]
  constructor
  · rintro ⟨q, hq, hhome⟩
    exact ⟨q, Gathered.getElem?_concat.2 (.inl hq), hhome⟩
  · rintro ⟨q, hq, hhome⟩
    rcases Gathered.getElem?_concat.1 hq with hq | ⟨_, rfl⟩
    · exact ⟨q, hq, hhome⟩
    · exact absurd hhome hp

/-- A field that names the section is one of its fields from now on. -/
theorem add (h : Lists placements i fields) (hp : p.home = some i) :
    Lists (placements ++ [p]) i (fields ++ [placements.length]) := by
  intro k
  rw [List.mem_append, List.mem_singleton, h k]
  constructor
  · rintro (⟨q, hq, hhome⟩ | rfl)
    · exact ⟨q, Gathered.getElem?_concat.2 (.inl hq), hhome⟩
    · exact ⟨p, Gathered.getElem?_concat.2 (.inr ⟨rfl, rfl⟩), hp⟩
  · rintro ⟨q, hq, hhome⟩
    rcases Gathered.getElem?_concat.1 hq with hq | ⟨hk, _⟩
    · exact .inl ⟨q, hq, hhome⟩
    · exact .inr hk

/-- A section that no field names. -/
theorem empty (h : ∀ p ∈ placements, p.home ≠ some i) : Lists placements i [] := by
  intro k
  constructor
  · intro hk
    cases hk
  · rintro ⟨q, hq, hhome⟩
    exact absurd hhome (h q (List.mem_of_getElem? hq))

theorem home_ne_of_nil (h : Lists placements i []) : ∀ p ∈ placements, p.home ≠ some i := by
  intro p hp hhome
  obtain ⟨k, hk⟩ := List.getElem?_of_mem hp
  have hmem := (h k).2 ⟨p, hk, hhome⟩
  cases hmem

end Lists

namespace Gathered

theorem widen (h : Gathered placements i fields first last) {last' : Nat} (hlast : last ≤ last') :
    Gathered placements i fields first last' where
  mem_iff := h.mem_iff
  inside q hq hhome := by
    obtain ⟨hfirst, hend⟩ := h.inside q hq hhome
    exact ⟨hfirst, by omega⟩

theorem skip (h : Gathered placements i fields first last) (hp : p.home ≠ some i) :
    Gathered (placements ++ [p]) i fields first last where
  mem_iff := Lists.skip h.mem_iff hp
  inside q hq hhome := by
    rcases List.mem_append.1 hq with hq | hq
    · exact h.inside q hq hhome
    · obtain rfl := List.mem_singleton.1 hq
      exact absurd hhome hp

/-- A field that names the section lies in it from now on. -/
theorem add (h : Gathered placements i fields first last) (hp : p.home = some i)
    (hfirst : first ≤ p.offset.toNat) {last' : Nat} (hend : p.offset.toNat + p.field.room ≤ last')
    (hlast : last ≤ last') :
    Gathered (placements ++ [p]) i (fields ++ [placements.length]) first last' where
  mem_iff := Lists.add h.mem_iff hp
  inside q hq hhome := by
    rcases List.mem_append.1 hq with hq | hq
    · exact (h.widen hlast).inside q hq hhome
    · obtain rfl := List.mem_singleton.1 hq
      exact ⟨hfirst, hend⟩

theorem empty (h : ∀ p ∈ placements, p.home ≠ some i) : Gathered placements i [] first last where
  mem_iff := Lists.empty h
  inside q hq hhome := absurd hhome (h q hq)

end Gathered

end Fields

/-- Fields and sections agree, with so many slots and blocks taken. -/
structure Arranged (placements : List Placement) (sections : List Section) (slots blocks : Nat) :
    Prop where
  ordered : placements.Pairwise Placement.Before
  slots_le : ∀ p ∈ placements, p.slot.toNat + p.field.slots ≤ slots
  isStop_field : ∀ p ∈ placements, p.field.isStop = false
  isSome_home : ∀ p ∈ placements, p.home.isSome = !p.field.isPadding
  gathered : ∀ i part, sections[i]? = some part →
    Gathered placements i part.fields (part.span.start.toNat * blockBits)
      (part.span.stop.toNat * blockBits)
  stop_eq : ∀ part ∈ sections, part.span.stop.toNat = part.span.start.toNat + part.span.count.toNat
  stop_le : ∀ part ∈ sections, part.span.stop.toNat ≤ blocks
  apart : sections.Pairwise fun part next => part.span.stop.toNat ≤ next.span.start.toNat

namespace Arranged

variable {placements : List Placement} {sections : List Section} {slots slots' blocks : Nat}

/-- Of two fields one comes first. -/
theorem before_or_before (h : Arranged placements sections slots blocks) {p q : Placement}
    {k k' : Nat} (hk : placements[k]? = some p) (hk' : placements[k']? = some q) (hne : k ≠ k') :
    p.Before q ∨ q.Before p := by
  obtain ⟨hlength, rfl⟩ := List.getElem?_eq_some_iff.1 hk
  obtain ⟨hlength', rfl⟩ := List.getElem?_eq_some_iff.1 hk'
  have hordered := List.pairwise_iff_getElem.1 h.ordered
  rcases Nat.lt_or_gt_of_ne hne with hlt | hlt
  · exact .inl (hordered k k' hlength hlength' hlt)
  · exact .inr (hordered k' k hlength' hlength hlt)

/-- No two sections have a block in common. -/
theorem section_unique (h : Arranged placements sections slots blocks) {part part' : Section}
    {i i' block : Nat} (hpart : sections[i]? = some part) (hpart' : sections[i']? = some part')
    (hblock : block ∈ part.span) (hblock' : block ∈ part'.span) : i' = i := by
  obtain ⟨hlength, rfl⟩ := List.getElem?_eq_some_iff.1 hpart
  obtain ⟨hlength', rfl⟩ := List.getElem?_eq_some_iff.1 hpart'
  have hapart := List.pairwise_iff_getElem.1 h.apart
  obtain ⟨hle, hlt⟩ := hblock
  obtain ⟨hle', hlt'⟩ := hblock'
  rcases Nat.lt_trichotomy i' i with hbefore | rfl | hbefore
  · have hstop := hapart i' i hlength' hlength hbefore
    omega
  · rfl
  · have hstop := hapart i i' hlength hlength' hbefore
    omega

/-- A field that a section lists is a named one that lies in it. -/
theorem field_of_section (h : Arranged placements sections slots blocks) {part : Section}
    {i k : Nat} (hpart : sections[i]? = some part) (hk : k ∈ part.fields) :
    ∃ p, placements[k]? = some p ∧ p.home = some i ∧ p.field.isPadding = false := by
  obtain ⟨p, hp, hhome⟩ := ((h.gathered i part hpart).mem_iff k).1 hk
  have hsome := h.isSome_home p (List.mem_of_getElem? hp)
  rw [hhome, Option.isSome_some, eq_comm, Bool.not_eq_true'] at hsome
  exact ⟨p, hp, hhome, hsome⟩

/-- One more field, behind all others and in no section so far. -/
theorem concat (h : Arranged placements sections slots blocks) {p : Placement}
    (hbefore : ∀ q ∈ placements, q.Before p) (hslots : p.slot.toNat + p.field.slots ≤ slots')
    (hle : slots ≤ slots') (hstop : p.field.isStop = false)
    (hhome : p.home.isSome = !p.field.isPadding)
    (hnew : ∀ i < sections.length, p.home ≠ some i) :
    Arranged (placements ++ [p]) sections slots' blocks where
  ordered := by
    refine List.pairwise_append.2 ⟨h.ordered, List.pairwise_singleton _ _, ?_⟩
    intro q hq p' hp'
    obtain rfl := List.mem_singleton.1 hp'
    exact hbefore q hq
  slots_le q hq := by
    rcases List.mem_append.1 hq with hq | hq
    · exact Nat.le_trans (h.slots_le q hq) hle
    · obtain rfl := List.mem_singleton.1 hq
      exact hslots
  isStop_field q hq := by
    rcases List.mem_append.1 hq with hq | hq
    · exact h.isStop_field q hq
    · obtain rfl := List.mem_singleton.1 hq
      exact hstop
  isSome_home q hq := by
    rcases List.mem_append.1 hq with hq | hq
    · exact h.isSome_home q hq
    · obtain rfl := List.mem_singleton.1 hq
      exact hhome
  gathered i part hpart :=
    (h.gathered i part hpart).skip (hnew i (List.getElem?_eq_some_iff.1 hpart).1)
  stop_eq := h.stop_eq
  stop_le := h.stop_le
  apart := h.apart

/-- One more section, behind all others. -/
theorem section_concat (h : Arranged placements sections slots blocks) {part : Section}
    (hgathered : Gathered placements sections.length part.fields
      (part.span.start.toNat * blockBits) (part.span.stop.toNat * blockBits))
    (hstop : part.span.stop.toNat = part.span.start.toNat + part.span.count.toNat)
    (hstart : part.span.start.toNat = blocks) :
    Arranged placements (sections ++ [part]) slots part.span.stop.toNat where
  ordered := h.ordered
  slots_le := h.slots_le
  isStop_field := h.isStop_field
  isSome_home := h.isSome_home
  gathered i part' hpart' := by
    rcases Nat.lt_or_ge i sections.length with hi | hi
    · rw [List.getElem?_append_left hi] at hpart'
      exact h.gathered i part' hpart'
    · have hlength := (List.getElem?_eq_some_iff.1 hpart').1
      rw [List.length_append, List.length_singleton] at hlength
      obtain rfl : i = sections.length := by omega
      rw [List.getElem?_concat_length] at hpart'
      cases hpart'
      exact hgathered
  stop_eq part' hpart' := by
    rcases List.mem_append.1 hpart' with hpart' | hpart'
    · exact h.stop_eq part' hpart'
    · obtain rfl := List.mem_singleton.1 hpart'
      exact hstop
  stop_le part' hpart' := by
    rcases List.mem_append.1 hpart' with hpart' | hpart'
    · have hle := h.stop_le part' hpart'
      omega
    · obtain rfl := List.mem_singleton.1 hpart'
      exact Nat.le.refl
  apart := by
    refine List.pairwise_append.2 ⟨h.apart, List.pairwise_singleton _ _, ?_⟩
    intro part' hpart' next hnext
    obtain rfl := List.mem_singleton.1 hnext
    have hle := h.stop_le part' hpart'
    omega

/-- More blocks of padding. -/
theorem widen (h : Arranged placements sections slots blocks) {blocks' : Nat}
    (hle : blocks ≤ blocks') : Arranged placements sections slots blocks' :=
  { h with stop_le := fun part hpart => Nat.le_trans (h.stop_le part hpart) hle }

end Arranged

/-! ## The compiler's steps -/

namespace Scan

/-- The fields so far agree with the sections so far, those behind the last cut with the section
that comes next, and they end where the next field starts. -/
structure Sound (scan : Scan) : Prop where
  counted : scan.Counted
  arranged : Arranged scan.placements scan.sections scan.slot.toNat scan.block.toNat
  uncut : Gathered scan.placements scan.sections.length scan.uncut
    (scan.block.toNat * blockBits) scan.offset.toNat
  room_le : ∀ p ∈ scan.placements, p.offset.toNat + p.field.room ≤ scan.offset.toNat
  home_le : ∀ p ∈ scan.placements, ∀ i, p.home = some i → i ≤ scan.sections.length
  slot_le : scan.slot.toNat ≤ scan.offset.toNat
  block_le : scan.block.toNat * blockBits ≤ scan.offset.toNat

theorem Sound.start : Sound {} where
  counted := .start
  arranged := by constructor <;> simp
  uncut := .empty fun _ hp => nomatch hp
  room_le _ hp := nomatch hp
  home_le _ hp := nomatch hp
  slot_le := Nat.le.refl
  block_le := Nat.le.refl

variable {scan scan' : Scan} {field : Field}

theorem toNat_run (h : scan.Sound) :
    scan.run.toNat = scan.offset.toNat - scan.block.toNat * blockBits := by
  have hblock : (scan.block * .ofNat blockBits).toNat = scan.block.toNat * blockBits := by
    rw [UInt64.toNat_mul]
    exact Nat.mod_eq_of_lt (Nat.lt_of_le_of_lt h.block_le scan.offset.toNat_lt)
  rw [h.counted, UInt64.toNat_sub_of_le, hblock]
  rw [UInt64.le_iff_toNat_le, hblock]
  exact h.block_le

theorem toNat_offset_put (hroom : scan.offset.toNat + field.room < 2 ^ 64) :
    (scan.put field).offset.toNat = scan.offset.toNat + field.room := by
  rw [offset_put, UInt64.toNat_add, Field.toNat_bits (by omega)]
  exact Nat.mod_eq_of_lt hroom

theorem mem_placements_put {q : Placement} (hq : q ∈ (scan.put field).placements) :
    q ∈ scan.placements ∨ q.offset = scan.offset ∧ q.field = field := by
  obtain ⟨home, hplacements⟩ := scan.placements_put field
  rw [hplacements] at hq
  rcases List.mem_append.1 hq with hq | hq
  · exact .inl hq
  · obtain rfl := List.mem_singleton.1 hq
    exact .inr ⟨rfl, rfl⟩

/-- A field that is put behind the others ends where the next one starts. -/
theorem Sound.room_le_put (h : scan.Sound) (hroom : scan.offset.toNat + field.room < 2 ^ 64) :
    ∀ q ∈ (scan.put field).placements,
      q.offset.toNat + q.field.room ≤ (scan.put field).offset.toNat := by
  intro q hq
  rw [toNat_offset_put hroom]
  rcases mem_placements_put hq with hq | ⟨hoffset, hfield⟩
  · have hend := h.room_le q hq
    omega
  · rw [hoffset, hfield]

/-- A slot for each element of a named field. -/
theorem toNat_slot_put_of_lt (hslots : scan.slot.toNat + field.slots < 2 ^ 64) :
    (scan.put field).slot.toNat = scan.slot.toNat + field.slots := by
  cases hp : field.isPadding with
  | true =>
    rw [put_of_padding hp, Field.slots_of_padding hp]
    rfl
  | false =>
    rw [Field.slots_of_named hp] at hslots ⊢
    rw [put_of_named hp]
    show (scan.slot + field.length).toNat = _
    rw [UInt64.toNat_add]
    exact Nat.mod_eq_of_lt hslots

theorem toNat_slot_put (h : scan.Sound) (hstop : field.isStop = false)
    (hroom : scan.offset.toNat + field.room < 2 ^ 64) :
    (scan.put field).slot.toNat = scan.slot.toNat + field.slots := by
  have hslots := Field.slots_le_room hstop
  have hslot := h.slot_le
  exact toNat_slot_put_of_lt (by omega)

theorem Sound.put (h : scan.Sound) (hstop : field.isStop = false)
    (hroom : scan.offset.toNat + field.room < 2 ^ 64) : (scan.put field).Sound := by
  have hcounted : (scan.put field).Counted := h.counted.put
  have hoffset := toNat_offset_put hroom
  have hend := toNat_slot_put h hstop hroom
  have hrooms := h.room_le_put hroom
  have hslots := Field.slots_le_room hstop
  have hslot := h.slot_le
  have hblock := h.block_le
  have hbefore (q : Placement) (hq : q ∈ scan.placements) (home : Option Nat) :
      q.Before { field, offset := scan.offset, slot := scan.slot, home } :=
    ⟨h.room_le q hq, h.arranged.slots_le q hq⟩
  cases hp : field.isPadding with
  | true =>
    -- padding takes bits, but no slot and no place in a section
    have hzero := Field.slots_of_padding hp
    rw [put_of_padding hp] at hcounted hoffset hrooms ⊢
    exact {
      counted := hcounted
      arranged := h.arranged.concat (fun q hq => hbefore q hq none)
        (by simp only [hzero]; omega) Nat.le.refl hstop (by simp [hp]) (by simp)
      uncut := (h.uncut.skip (by simp)).widen (by simp only [hoffset]; omega)
      room_le := hrooms
      home_le := by
        intro q hq i hi
        rcases List.mem_append.1 hq with hq | hq
        · exact h.home_le q hq i hi
        · obtain rfl := List.mem_singleton.1 hq
          cases hi
      slot_le := by simp only [hoffset]; omega
      block_le := by simp only [hoffset]; omega }
  | false =>
    -- a named field is counted among those of the section that the next cut makes
    rw [put_of_named hp] at hcounted hoffset hrooms hend ⊢
    exact {
      counted := hcounted
      arranged := h.arranged.concat (fun q hq => hbefore q hq _)
        (by simp only [hend]; omega) (by simp only [hend]; omega) hstop (by simp [hp])
        (by intro i hi; simp; omega)
      uncut := h.uncut.add rfl hblock (by simp only [hoffset]; omega)
        (by simp only [hoffset]; omega)
      room_le := hrooms
      home_le := by
        intro q hq i hi
        rcases List.mem_append.1 hq with hq | hq
        · exact h.home_le q hq i hi
        · obtain rfl := List.mem_singleton.1 hq
          cases hi
          exact Nat.le.refl
      slot_le := by simp only [hoffset, hend]; omega
      block_le := by simp only [hoffset]; omega }

/-- A cut that falls on the end of a block lies where the fields so far end. -/
theorem Sound.toNat_cut (h : scan.Sound) (hspill : scan.run % .ofNat blockBits = 0) :
    (scan.block + scan.run / .ofNat blockBits).toNat =
        scan.block.toNat + (scan.run / .ofNat blockBits).toNat ∧
      (scan.block + scan.run / .ofNat blockBits).toNat * blockBits = scan.offset.toNat := by
  have hblock := h.block_le
  have hlt := scan.offset.toNat_lt
  have hbits : (UInt64.ofNat blockBits).toNat = 32 := rfl
  have hrun := toNat_run h
  have hmod := congrArg UInt64.toNat hspill
  rw [UInt64.toNat_mod, hbits, hrun, UInt64.toNat_zero] at hmod
  have hcount : (scan.run / .ofNat blockBits).toNat * blockBits =
      scan.offset.toNat - scan.block.toNat * blockBits := by
    rw [UInt64.toNat_div, hbits, hrun]
    simp only [blockBits] at *
    omega
  have hstop : (scan.block + scan.run / .ofNat blockBits).toNat =
      scan.block.toNat + (scan.run / .ofNat blockBits).toNat := by
    rw [UInt64.toNat_add]
    refine Nat.mod_eq_of_lt ?_
    simp only [blockBits] at *
    omega
  refine ⟨hstop, ?_⟩
  rw [hstop, Nat.add_mul, hcount]
  omega

theorem Sound.closed (h : scan.Sound) (hspill : scan.run % .ofNat blockBits = 0) :
    scan.closed.Sound := by
  obtain ⟨hstop, hend⟩ := h.toNat_cut hspill
  have hcounted := h.counted.closed hspill
  by_cases huncut : scan.uncut = []
  · -- only padding since the last cut, so the next section is still the same one
    rw [closed_of_nil huncut] at hcounted ⊢
    exact {
      counted := hcounted
      arranged := h.arranged.widen (by simp only [hstop]; omega)
      uncut := {
        mem_iff := h.uncut.mem_iff
        inside := by
          intro q hq hhome
          have hnone := h.uncut.mem_iff
          rw [huncut] at hnone
          exact absurd hhome (Lists.home_ne_of_nil hnone q hq) }
      room_le := h.room_le
      home_le := h.home_le
      slot_le := h.slot_le
      block_le := Nat.le_of_eq hend }
  · -- the uncut fields are a section from now on, and no field names the one behind it yet
    rw [closed_of_ne_nil huncut] at hcounted ⊢
    exact {
      counted := hcounted
      arranged := h.arranged.section_concat (hend ▸ h.uncut) hstop rfl
      uncut := .empty fun q hq hhome => by
        have := h.home_le q hq _ hhome
        simp only [List.length_append, List.length_singleton] at this
        omega
      room_le := h.room_le
      home_le := by
        intro q hq i hi
        have := h.home_le q hq i hi
        simp only [List.length_append, List.length_singleton]
        omega
      slot_le := h.slot_le
      block_le := Nat.le_of_eq hend }

theorem Sound.place {name : String} (h : scan.Sound) (hstop : field.isStop = false)
    (hroom : scan.offset.toNat + field.room < 2 ^ 64)
    (hplace : scan.place name field = .ok scan') :
    scan'.Sound ∧ scan'.offset.toNat = scan.offset.toNat + field.room := by
  have hput := h.put hstop hroom
  have hoffset := toNat_offset_put hroom
  obtain ⟨_, ⟨_, rfl⟩ | ⟨_, hspill, rfl⟩⟩ := place_eq_ok_iff.1 hplace
  · exact ⟨hput, hoffset⟩
  · exact ⟨hput.closed hspill, by rw [offset_closed, hoffset]⟩

theorem Sound.foldlM {name : String} {fields : List Field} (h : scan.Sound)
    (hstop : ∀ field ∈ fields, field.isStop = false)
    (hroom : scan.offset.toNat + Field.roomOf fields < 2 ^ 64)
    (hfold : fields.foldlM (Scan.place name) scan = .ok scan') :
    scan'.Sound ∧ scan'.offset.toNat = scan.offset.toNat + Field.roomOf fields := by
  refine foldlM_induction (P := fun before next => next.Sound ∧
    next.offset.toNat = scan.offset.toNat + Field.roomOf before) ⟨h, rfl⟩ ?_ hfold
  rintro before field after scan' next rfl ⟨hsound, hoffset⟩ hplace
  rw [Field.roomOf_append, Field.roomOf_cons] at hroom
  obtain ⟨hnext, hend⟩ := hsound.place (hstop field (by simp)) (by omega) hplace
  rw [Field.roomOf_append, Field.roomOf_cons]
  exact ⟨hnext, by rw [hend, hoffset, Nat.add_assoc]; rfl⟩

end Scan

/-! ## Schemas -/

namespace Schema

/-- Fields and sections agree, every field with room has its section, and the blocks can be
announced. -/
structure Sound (schema : Schema) : Prop where
  arranged : Arranged schema.placements schema.sections schema.slotCount schema.blocks
  housed : ∀ p ∈ schema.placements, 0 < p.field.room → ∀ i, p.home = some i →
    i < schema.sections.length
  slotCount_lt : schema.slotCount < 2 ^ 64
  blocks_le : schema.blocks ≤ maskBlocks

theorem isStop_of_mem_declared {table : List Field} {field : Field} (h : field ∈ declared table) :
    field.isStop = false := by
  have hall := List.all_eq_true.1 List.all_takeWhile field h
  rwa [Bool.not_eq_true'] at hall

/-- Behind the last field of a table that compiles everything is cut. -/
theorem scan_sound {name : String} {table : List Field} {scan : Scan} (hfits : FitsSize table)
    (hfold : (declared table).foldlM (Scan.place name) {} = .ok scan) (hrun : scan.run = 0) :
    scan.Sound ∧ scan.offset.toNat = Field.roomOf (declared table) ∧
      scan.block.toNat * blockBits = scan.offset.toNat := by
  obtain ⟨hsound, hoffset⟩ := Scan.Sound.start.foldlM (fun _ => isStop_of_mem_declared)
    (Nat.lt_of_le_of_lt (Nat.le_of_eq (Nat.zero_add _)) hfits) hfold
  have hend : scan.offset.toNat - scan.block.toNat * blockBits = 0 := by
    rw [← Scan.toNat_run hsound, hrun]
    rfl
  have hblock := hsound.block_le
  exact ⟨hsound, hoffset.trans (Nat.zero_add _), by omega⟩

theorem compile_sound {settings : Settings} {name : String} {table : List Field} {schema : Schema}
    (hfits : FitsSize table) (hcompile : compile settings name table = .ok schema) :
    schema.Sound ∧ schema.blocks * blockBits = Field.roomOf (declared table) := by
  obtain ⟨scan, hfold, hrun, hblocks, rfl⟩ := compile_eq_ok_iff.1 hcompile
  obtain ⟨hsound, hoffset, hend⟩ := scan_sound hfits hfold hrun
  refine ⟨{
    arranged := hsound.arranged
    housed := ?_
    slotCount_lt := scan.slot.toNat_lt
    blocks_le := Nat.le_trans hblocks settings.maxBlocks_le }, hend.trans hoffset⟩
  intro p hp hroom i hi
  refine Nat.lt_of_le_of_ne (hsound.home_le p hp i hi) ?_
  rintro rfl
  obtain ⟨hfirst, hlast⟩ := hsound.uncut.inside p hp hi
  omega

end Schema

end ObjectSync
