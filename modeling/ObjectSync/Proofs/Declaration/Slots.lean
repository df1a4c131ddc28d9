import ObjectSync.Proofs.Declaration.Arrangement

/-!
# The slots of a compiled table

Every element of a named field has a slot of its own, and a record has all of them
(`Schema.Slotted`). For this the width of the table need not be a size: it is enough that the number
of the elements is one (`FitsSlots`), since slots are counted apart from bits
(**`Schema.compile_slotted`**).
-/

namespace ObjectSync

/-- The value slots that a table takes, as a number. -/
def Field.slotsOf (fields : List Field) : Nat := (fields.map slots).sum

@[simp] theorem Field.slotsOf_concat (fields : List Field) (f : Field) :
    slotsOf (fields ++ [f]) = slotsOf fields + f.slots := by
  rw [slotsOf, List.map_append, List.sum_append_nat]
  rfl

/-- The number of elements of the named fields is a size. -/
def FitsSlots (table : List Field) : Prop := Field.slotsOf (Schema.declared table) < 2 ^ 64

instance (table : List Field) : Decidable (FitsSlots table) :=
  inferInstanceAs (Decidable (_ < _))

/-- The slots of one field end before those of the other start. -/
def Placement.SlotsBefore (p q : Placement) : Prop :=
  p.slot.toNat + p.field.slots ≤ q.slot.toNat

/-! ## The scan -/

namespace Scan

/-- The slots of the fields so far follow one another, up to that of the next field. -/
structure Slotted (scan : Scan) (before : List Field) : Prop where
  ordered : scan.placements.Pairwise Placement.SlotsBefore
  slots_le : ∀ p ∈ scan.placements, p.slot.toNat + p.field.slots ≤ scan.slot.toNat
  slot_eq : scan.slot.toNat = Field.slotsOf before

namespace Slotted

variable {name : String} {scan next : Scan} {field : Field} {before : List Field}

theorem start : Slotted {} [] where
  ordered := .nil
  slots_le _ hp := nomatch hp
  slot_eq := rfl

theorem put (h : scan.Slotted before) (hslots : Field.slotsOf (before ++ [field]) < 2 ^ 64) :
    (scan.put field).Slotted (before ++ [field]) := by
  obtain ⟨home, hplacements⟩ := scan.placements_put field
  have hsum := Field.slotsOf_concat before field
  have hslot : (scan.put field).slot.toNat = scan.slot.toNat + field.slots :=
    toNat_slot_put_of_lt (by rw [h.slot_eq]; omega)
  exact {
    ordered := by
      rw [hplacements]
      refine List.pairwise_append.2 ⟨h.ordered, List.pairwise_singleton _ _, fun p hp q hq => ?_⟩
      obtain rfl := List.mem_singleton.1 hq
      exact h.slots_le p hp
    slots_le := by
      rw [hplacements, hslot]
      refine List.forall_mem_append.2 ⟨fun p hp => ?_, fun p hp => ?_⟩
      · exact Nat.le_trans (h.slots_le p hp) (Nat.le_add_right _ _)
      · obtain rfl := List.mem_singleton.1 hp
        exact Nat.le.refl
    slot_eq := by rw [hslot, h.slot_eq, hsum] }

theorem closed (h : scan.Slotted before) : scan.closed.Slotted before where
  ordered := by
    rw [placements_closed]
    exact h.ordered
  slots_le := by
    rw [placements_closed, slot_closed]
    exact h.slots_le
  slot_eq := by
    rw [slot_closed]
    exact h.slot_eq

theorem place (h : scan.Slotted before) (hslots : Field.slotsOf (before ++ [field]) < 2 ^ 64)
    (hplace : scan.place name field = .ok next) : next.Slotted (before ++ [field]) := by
  obtain ⟨_, ⟨_, rfl⟩ | ⟨_, _, rfl⟩⟩ := place_eq_ok_iff.1 hplace
  · exact h.put hslots
  · exact (h.put hslots).closed

theorem foldlM {fields : List Field} (hslots : Field.slotsOf fields < 2 ^ 64)
    (hfold : fields.foldlM (Scan.place name) {} = .ok scan) : scan.Slotted fields := by
  refine foldlM_induction (P := fun before scan => scan.Slotted before) start ?_ hfold
  rintro before field after scan next rfl h hplace
  refine h.place (Nat.lt_of_le_of_lt ?_ hslots) hplace
  simp [Field.slotsOf]

end Slotted

end Scan

/-! ## Compiled tables -/

namespace Schema

/-- The slots of the fields follow one another, up to the number of all slots. -/
structure Slotted (schema : Schema) : Prop where
  ordered : schema.placements.Pairwise Placement.SlotsBefore
  slots_le : ∀ p ∈ schema.placements, p.slot.toNat + p.field.slots ≤ schema.slotCount
  slotCount_lt : schema.slotCount < 2 ^ 64

theorem Sound.slotted {schema : Schema} (h : schema.Sound) : schema.Slotted where
  ordered := h.arranged.ordered.imp And.right
  slots_le := h.arranged.slots_le
  slotCount_lt := h.slotCount_lt

/-- Of two fields the first has the slots in front. -/
theorem Slotted.before {schema : Schema} (h : schema.Slotted) {k k' : Nat} {p q : Placement}
    (hk : schema.placement? k = some p) (hk' : schema.placement? k' = some q) (hlt : k < k') :
    p.slot.toNat + p.field.slots ≤ q.slot.toNat := by
  obtain ⟨hlength, rfl⟩ := List.getElem?_eq_some_iff.1 hk
  obtain ⟨hlength', rfl⟩ := List.getElem?_eq_some_iff.1 hk'
  exact List.pairwise_iff_getElem.1 h.ordered k k' hlength hlength' hlt

theorem compile_slotted {settings : Settings} {name : String} {table : List Field}
    {schema : Schema} (hfits : FitsSlots table)
    (hcompile : compile settings name table = .ok schema) : schema.Slotted := by
  obtain ⟨scan, hfold, _, _, rfl⟩ := compile_eq_ok_iff.1 hcompile
  have h := Scan.Slotted.foldlM hfits hfold
  exact ⟨h.ordered, h.slots_le, scan.slot.toNat_lt⟩

end Schema

end ObjectSync
