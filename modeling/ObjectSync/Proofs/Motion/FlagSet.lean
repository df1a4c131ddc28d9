import ObjectSync.Motion.FlagSet

/-!
# Flags in common

Whether two flag sets meet is decided bit by bit (`meets_iff`), so it follows the set operations:
adding flags adds what they meet (`meets_union`), taking flags away leaves what they do not meet
(`meets_sdiff_of_disjoint`), and a flag that is put in or taken out is there exactly when it was put
in (`meets_put_self`).
-/

namespace ObjectSync.FlagSet

variable {w : Nat} {a b c : FlagSet w}

theorem meets_iff : a.meets b = true ↔ ∃ i, a.bits.getLsbD i = true ∧ b.bits.getLsbD i = true := by
  rw [meets, bne_iff_ne, Ne, BitVec.eq_of_getLsbD_eq_iff]
  constructor
  · intro h
    simp only [Classical.not_forall] at h
    obtain ⟨i, _, hi⟩ := h
    rw [BitVec.getLsbD_and, show (0 : BitVec w).getLsbD i = false from BitVec.getLsbD_zero,
      Bool.not_eq_false, Bool.and_eq_true] at hi
    exact ⟨i, hi⟩
  · rintro ⟨i, ha, hb⟩ h
    have hi := h i (BitVec.lt_of_getLsbD ha)
    rw [BitVec.getLsbD_and, ha, hb, show (0 : BitVec w).getLsbD i = false from BitVec.getLsbD_zero]
      at hi
    cases hi

theorem subset_iff : a ⊆ b ↔ ∀ i, a.bits.getLsbD i = true → b.bits.getLsbD i = true := by
  show b.bits &&& a.bits = a.bits ↔ _
  constructor
  · intro h i hi
    rw [← h, BitVec.getLsbD_and, Bool.and_eq_true] at hi
    exact hi.1
  · intro h
    apply BitVec.eq_of_getLsbD_eq
    intro i _
    rw [BitVec.getLsbD_and]
    cases hi : a.bits.getLsbD i
    · rw [Bool.and_false]
    · rw [h i hi, Bool.and_true]

theorem getLsbD_union (i : Nat) :
    (a ∪ b).bits.getLsbD i = (a.bits.getLsbD i || b.bits.getLsbD i) := by
  rw [bits_union, BitVec.getLsbD_or]

theorem getLsbD_sdiff (i : Nat) :
    (a \ b).bits.getLsbD i = (a.bits.getLsbD i && !b.bits.getLsbD i) := by
  rw [bits_sdiff, BitVec.getLsbD_and, BitVec.getLsbD_not]
  cases hi : a.bits.getLsbD i with
  | false => rfl
  | true => rw [decide_eq_true (BitVec.lt_of_getLsbD hi), Bool.true_and]

/-- What is apart from a set is apart from its subsets. -/
theorem meets_of_subset (h : a.meets b = false) (hc : c ⊆ b) : a.meets c = false := by
  rw [← Bool.not_eq_true] at h ⊢
  intro hmeets
  obtain ⟨i, hi, hci⟩ := meets_iff.1 hmeets
  exact h (meets_iff.2 ⟨i, hi, subset_iff.1 hc i hci⟩)

/-! ## Set operations -/

theorem union_subset (ha : a ⊆ c) (hb : b ⊆ c) : a ∪ b ⊆ c := by
  refine subset_iff.2 fun i hi => ?_
  rw [getLsbD_union, Bool.or_eq_true] at hi
  exact hi.elim (subset_iff.1 ha i) (subset_iff.1 hb i)

theorem meets_empty : (∅ : FlagSet w).meets c = false := by
  show (0#w &&& c.bits != 0#w) = false
  rw [BitVec.zero_and, bne_self_eq_false]

theorem meets_union : (a ∪ b).meets c = (a.meets c || b.meets c) := by
  rw [Bool.eq_iff_iff, Bool.or_eq_true, meets_iff, meets_iff, meets_iff]
  simp only [bits_union, BitVec.getLsbD_or, Bool.or_eq_true, or_and_right, exists_or]

/-- Taking flags away leaves none of them. -/
theorem meets_sdiff_of_subset (h : c ⊆ b) : (a \ b).meets c = false := by
  rw [← Bool.not_eq_true, meets_iff]
  rintro ⟨i, hi, hc⟩
  rw [getLsbD_sdiff, subset_iff.1 h i hc, Bool.not_true, Bool.and_false] at hi
  cases hi

/-- Taking flags away leaves all others. -/
theorem meets_sdiff_of_disjoint (h : b.meets c = false) : (a \ b).meets c = a.meets c := by
  rw [Bool.eq_iff_iff, meets_iff, meets_iff]
  constructor
  · rintro ⟨i, hi, hc⟩
    rw [getLsbD_sdiff, Bool.and_eq_true] at hi
    exact ⟨i, hi.1, hc⟩
  · rintro ⟨i, hi, hc⟩
    have hb : b.bits.getLsbD i = false := by
      rw [← Bool.not_eq_true] at h ⊢
      exact fun hb => h (meets_iff.2 ⟨i, hb, hc⟩)
    refine ⟨i, ?_, hc⟩
    rw [getLsbD_sdiff, hi, hb]
    rfl

/-- What a set meets lies in any set that holds the flags asked for. -/
theorem meets_inter_of_subset (h : c ⊆ b) : (a ∩ b).meets c = a.meets c := by
  rw [Bool.eq_iff_iff, meets_iff, meets_iff]
  constructor
  · rintro ⟨i, hi, hc⟩
    rw [bits_inter, BitVec.getLsbD_and, Bool.and_eq_true] at hi
    exact ⟨i, hi.1, hc⟩
  · rintro ⟨i, hi, hc⟩
    refine ⟨i, ?_, hc⟩
    rw [bits_inter, BitVec.getLsbD_and, hi, subset_iff.1 h i hc]
    rfl

/-- Sets agree outside another one, if they agree on each flag that it does not have. -/
theorem sdiff_eq_sdiff_iff :
    a \ c = b \ c ↔
      ∀ i, c.bits.getLsbD i = false → a.bits.getLsbD i = b.bits.getLsbD i := by
  constructor
  · intro h i hc
    have hi := congrArg (·.bits.getLsbD i) h
    simpa only [getLsbD_sdiff, hc, Bool.not_false, Bool.and_true] using hi
  · intro h
    refine congrArg FlagSet.mk (BitVec.eq_of_getLsbD_eq fun i _ => ?_)
    show (a \ c).bits.getLsbD i = (b \ c).bits.getLsbD i
    rw [getLsbD_sdiff, getLsbD_sdiff]
    cases hc : c.bits.getLsbD i with
    | true => rw [Bool.not_true, Bool.and_false, Bool.and_false]
    | false => rw [h i hc]

/-! ## Flags that come and go -/

theorem getLsbD_put_of_not {present : Bool} {i : Nat} (h : b.bits.getLsbD i = false) :
    (a.put b present).bits.getLsbD i = a.bits.getLsbD i := by
  cases present with
  | false =>
    show (a \ b).bits.getLsbD i = _
    rw [getLsbD_sdiff, h, Bool.not_false, Bool.and_true]
  | true =>
    show (a ∪ b).bits.getLsbD i = _
    rw [getLsbD_union, h, Bool.or_false]

/-- A flag is there exactly when it was put in. -/
theorem meets_put_self {present : Bool} (h : c.meets c = true) :
    (a.put c present).meets c = present := by
  cases present with
  | false => exact meets_sdiff_of_subset (subset_iff.2 fun _ hi => hi)
  | true =>
    show (a ∪ c).meets c = true
    rw [meets_union, h, Bool.or_true]

/-- Putting a flag in or taking it out leaves all others. -/
theorem meets_put_of_disjoint {present : Bool} (h : b.meets c = false) :
    (a.put b present).meets c = a.meets c := by
  cases present with
  | false => exact meets_sdiff_of_disjoint h
  | true =>
    show (a ∪ b).meets c = a.meets c
    rw [meets_union, h, Bool.or_false]

theorem gate_subset {present : Bool} (h : b ⊆ c) : gate b present ⊆ c := by
  cases present with
  | false => exact subset_iff.2 fun i hi => by rw [gate, if_neg (by decide)] at hi; simp at hi
  | true => exact h

theorem meets_gate {present : Bool} : (gate b present).meets c = (present && b.meets c) := by
  cases present with
  | false => exact meets_empty
  | true => rfl

end ObjectSync.FlagSet
