import Mathlib.Data.List.Sort
import ObjectSync.State.DirtySet

/-!
# What a dirty set holds

A dirty set is read section by section. Taking the lowest bit out of a word until the word is empty
meets each of its bits once, in ascending order (`mem_bitsOf`, `pairwise_bitsOf`), so `indices` lists
exactly the numbers that the set `holds`, ascending (`mem_indices`, `pairwise_indices`). Flagging
adds the one number, clearing leaves none. `DirtySet.Sound` says that the words have room for every
section and that the count is the number of flags, so a set is empty exactly when it holds nothing
(`Sound.isEmpty_iff`).
-/

namespace ObjectSync.DirtySet

variable {set : DirtySet} {i j : Nat}

/-! ## Bits of a word -/

/-- Taking one from a number changes its lowest bit and those below, so what it has in common with
the number before is every bit but that one. -/
theorem testBit_and_pred {n low : Nat} (hset : n.testBit low = true)
    (hbelow : ∀ k < low, n.testBit k = false) (bit : Nat) :
    (n &&& (n - 1)).testBit bit = (n.testBit bit && decide (bit ≠ low)) := by
  have hmod : n % 2 ^ (low + 1) = 2 ^ low := by
    refine Nat.eq_of_testBit_eq fun k => ?_
    rw [Nat.testBit_mod_two_pow, Nat.testBit_two_pow]
    rcases Nat.lt_trichotomy k low with hk | rfl | hk
    · rw [hbelow k hk, Bool.and_false, decide_eq_false (by omega)]
    · rw [hset, decide_eq_true (by omega), decide_eq_true rfl, Bool.and_true]
    · rw [decide_eq_false (by omega), decide_eq_false (by omega), Bool.false_and]
  have hsplit : 2 ^ (low + 1) * (n / 2 ^ (low + 1)) + 2 ^ low = n := by
    have hdiv := Nat.div_add_mod n (2 ^ (low + 1))
    rwa [hmod] at hdiv
  have hpos : 0 < 2 ^ low := Nat.two_pow_pos low
  have hdouble : 2 ^ (low + 1) = 2 ^ low * 2 := Nat.pow_succ 2 low
  have hpred : n - 1 = 2 ^ (low + 1) * (n / 2 ^ (low + 1)) + (2 ^ low - 1) := by omega
  rw [Nat.testBit_and, hpred, Nat.testBit_two_pow_mul_add _ (by omega)]
  rcases Nat.lt_trichotomy bit low with hbit | rfl | hbit
  · rw [hbelow bit hbit, Bool.false_and, Bool.false_and]
  · rw [if_pos (Nat.lt_succ_self bit), Nat.testBit_two_pow_sub_one,
      decide_eq_false (Nat.lt_irrefl bit), decide_eq_false (fun h => h rfl)]
  · rw [if_neg (by omega), Nat.testBit_div_two_pow, Nat.sub_add_cancel hbit, Bool.and_self,
      decide_eq_true (Nat.ne_of_gt hbit), Bool.and_true]

theorem testBit_lowestBit {word : UInt64} (h : word ≠ 0) :
    word.toNat.testBit (lowestBit word) = true :=
  BitVec.getLsbD_true_ctz_of_ne_zero fun hzero => h (UInt64.toBitVec_inj.1 hzero)

theorem testBit_of_lt_lowestBit {word : UInt64} {bit : Nat} (h : bit < lowestBit word) :
    word.toNat.testBit bit = false :=
  BitVec.getLsbD_false_of_lt_ctz h

/-- Every bit but the lowest one stays. -/
theorem testBit_clearLowest {word : UInt64} (h : word ≠ 0) (bit : Nat) :
    (clearLowest word).toNat.testBit bit =
      (word.toNat.testBit bit && decide (bit ≠ lowestBit word)) := by
  rw [toNat_clearLowest h]
  exact testBit_and_pred (testBit_lowestBit h) (fun _ => testBit_of_lt_lowestBit) bit

/-- Taking out the lowest bit until none is left meets every bit that is set, and no other. -/
theorem mem_bitsOf {word : UInt64} {bit : Nat} :
    bit ∈ bitsOf word ↔ word.toNat.testBit bit = true := by
  induction word using bitsOf.induct with
  | case1 =>
    rw [bitsOf, if_pos rfl, UInt64.toNat_zero, Nat.zero_testBit]
    simp
  | case2 word hword ih =>
    rw [bitsOf, if_neg hword, List.mem_cons, ih, testBit_clearLowest hword, Bool.and_eq_true,
      decide_eq_true_eq]
    by_cases hlow : bit = lowestBit word
    · rw [hlow, testBit_lowestBit hword]
      simp
    · simp [hlow]

/-- Each bit that is met is above the one before. -/
theorem pairwise_bitsOf (word : UInt64) : (bitsOf word).Pairwise (· < ·) := by
  induction word using bitsOf.induct with
  | case1 =>
    rw [bitsOf, if_pos rfl]
    exact .nil
  | case2 word hword ih =>
    rw [bitsOf, if_neg hword]
    refine List.pairwise_cons.2 ⟨fun bit hbit => ?_, ih⟩
    rw [mem_bitsOf, testBit_clearLowest hword, Bool.and_eq_true, decide_eq_true_eq] at hbit
    refine Nat.lt_of_le_of_ne (Nat.le_of_not_gt fun hbelow => ?_) hbit.2.symm
    rw [testBit_of_lt_lowestBit hbelow] at hbit
    exact Bool.false_ne_true hbit.1

theorem lt_of_mem_bitsOf {word : UInt64} {bit : Nat} (h : bit ∈ bitsOf word) : bit < wordBits :=
  Nat.lt_of_not_le fun hle => by
    rw [mem_bitsOf, Nat.testBit_lt_two_pow (Nat.lt_of_lt_of_le word.toNat_lt
      (Nat.pow_le_pow_right (by decide) hle))] at h
    exact Bool.false_ne_true h

/-! ## Listing -/

theorem mem_indicesFrom {base : Nat} {words : List UInt64} :
    i ∈ indicesFrom base words ↔
      base ≤ i ∧
        ((words[(i - base) / wordBits]?).getD 0).toNat.testBit ((i - base) % wordBits) = true := by
  induction words generalizing base with
  | nil => simp [indicesFrom]
  | cons word rest ih =>
    rw [indicesFrom, List.mem_append, ih, List.mem_map]
    by_cases hfirst : i < base + wordBits
    · constructor
      · rintro (⟨bit, hbit, rfl⟩ | ⟨hle, _⟩)
        · have hlt := lt_of_mem_bitsOf hbit
          rw [Nat.add_sub_cancel_left, Nat.div_eq_of_lt hlt, Nat.mod_eq_of_lt hlt]
          exact ⟨Nat.le_add_right _ _, mem_bitsOf.1 hbit⟩
        · omega
      · rintro ⟨hle, htest⟩
        have hbit : i - base < wordBits := by omega
        rw [Nat.div_eq_of_lt hbit, Nat.mod_eq_of_lt hbit] at htest
        exact .inl ⟨i - base, mem_bitsOf.2 htest, by omega⟩
    · have hrest (hle : base + wordBits ≤ i) :
          (i - base) / wordBits = (i - (base + wordBits)) / wordBits + 1 ∧
            (i - base) % wordBits = (i - (base + wordBits)) % wordBits := by
        rw [show i - base = i - (base + wordBits) + wordBits by omega]
        exact ⟨Nat.add_div_right _ (by decide), Nat.add_mod_right _ _⟩
      obtain ⟨hdiv, hmod⟩ := hrest (by omega)
      rw [hdiv, hmod, List.getElem?_cons_succ]
      constructor
      · rintro (⟨bit, hbit, rfl⟩ | ⟨hle, htest⟩)
        · have hlt := lt_of_mem_bitsOf hbit
          omega
        · exact ⟨by omega, htest⟩
      · rintro ⟨_, htest⟩
        exact .inr ⟨by omega, htest⟩

theorem mem_indices : i ∈ set.indices ↔ set.holds i = true := by
  rw [indices, mem_indicesFrom, Nat.sub_zero]
  exact and_iff_right (Nat.zero_le i)

theorem pairwise_indicesFrom (base : Nat) (words : List UInt64) :
    (indicesFrom base words).Pairwise (· < ·) := by
  induction words generalizing base with
  | nil => exact .nil
  | cons word rest ih =>
    refine List.pairwise_append.2 ⟨?_, ih _, fun k hk k' hk' => ?_⟩
    · rw [List.pairwise_map]
      exact (pairwise_bitsOf word).imp fun h => by omega
    · obtain ⟨bit, hbit, rfl⟩ := List.mem_map.1 hk
      have hlt := lt_of_mem_bitsOf hbit
      have hle := (mem_indicesFrom.1 hk').1
      omega

theorem pairwise_indices (set : DirtySet) : set.indices.Pairwise (· < ·) :=
  pairwise_indicesFrom 0 set.words

/-! ## Flagging and clearing -/

theorem testBit_one_shiftLeft {bit : Nat} (hbit : bit < wordBits) :
    ((1 : UInt64) <<< UInt64.ofNat bit).toNat.testBit j = decide (j = bit) := by
  have hmod : (UInt64.ofNat bit).toNat % 64 = bit := by
    rw [UInt64.toNat_ofNat']
    simp only [wordBits] at hbit
    omega
  have hlt : 2 ^ bit < 2 ^ 64 := Nat.pow_lt_pow_right (by decide) hbit
  rw [UInt64.toNat_shiftLeft, hmod, UInt64.toNat_one, Nat.one_shiftLeft, Nat.mod_eq_of_lt hlt,
    Nat.testBit_two_pow]
  exact decide_eq_decide.2 eq_comm

/-- The words have a bit for the section. -/
def HasRoom (set : DirtySet) (i : Nat) : Prop := i / wordBits < set.words.length

/-- Flagging a section that the words have room for adds it and nothing else. -/
theorem holds_flagSection (hi : set.HasRoom i) :
    (set.flagSection i).holds j = (decide (j = i) || set.holds j) := by
  unfold HasRoom at hi
  rw [flagSection]
  cases hheld : set.holds i with
  | true =>
    rw [if_neg (by simp)]
    by_cases hj : j = i
    · rw [hj, hheld, Bool.or_true]
    · rw [decide_eq_false hj, Bool.false_or]
  | false =>
    rw [if_pos (by simp [hi]), holds, holds, List.getElem?_modify]
    by_cases hword : i / wordBits = j / wordBits
    · have hbit : j % wordBits = i % wordBits ↔ j = i := by
        simp only [wordBits] at *
        omega
      simp only [← hword, List.getElem?_eq_getElem hi]
      show ((set.words[i / wordBits] ||| 1 <<< UInt64.ofNat (i % wordBits)).toNat.testBit _) = _
      rw [UInt64.toNat_or, Nat.testBit_or, testBit_one_shiftLeft (Nat.mod_lt _ (by decide)),
        Bool.or_comm, decide_eq_decide.2 hbit]
      rfl
    · have hne : j ≠ i := fun h => hword (congrArg (· / wordBits) h.symm)
      simp only [if_neg hword]
      rw [decide_eq_false hne, Bool.false_or, id_map']

theorem flagSection_of_length_le (hi : set.words.length ≤ i / wordBits) :
    set.flagSection i = set := by
  rw [flagSection, if_neg]
  rw [decide_eq_false (by omega), Bool.false_and]
  decide

theorem holds_flagSection_iff :
    (set.flagSection i).holds j = true ↔ (set.HasRoom j ∧ i = j) ∨ set.holds j = true := by
  rcases Nat.lt_or_ge (i / wordBits) set.words.length with hi | hi
  · rw [holds_flagSection hi, Bool.or_eq_true, decide_eq_true_eq, eq_comm]
    refine or_congr_left (iff_and_self.2 ?_)
    rintro rfl
    exact hi
  · rw [flagSection_of_length_le hi]
    refine ⟨.inr, fun h => h.resolve_left ?_⟩
    rintro ⟨hroom, rfl⟩
    exact absurd hroom (Nat.not_lt.2 hi)

/-- To flag a section once more changes nothing. -/
theorem flagSection_flagSection : (set.flagSection i).flagSection i = set.flagSection i := by
  rcases Nat.lt_or_ge (i / wordBits) set.words.length with hi | hi
  · have hheld : (set.flagSection i).holds i = true := by
      rw [holds_flagSection hi, decide_eq_true rfl, Bool.true_or]
    rw [flagSection.eq_def (set.flagSection i), hheld, Bool.not_true, Bool.and_false,
      if_neg Bool.false_ne_true]
  · rw [flagSection_of_length_le hi, flagSection_of_length_le hi]

theorem holds_flagField_iff {schema : Schema} {field : Nat} :
    (set.flagField schema field).holds j = true ↔
      (set.HasRoom j ∧ schema.sectionOf? field = some j) ∨ set.holds j = true := by
  rw [flagField]
  cases schema.sectionOf? field with
  | none => simp
  | some i => exact holds_flagSection_iff.trans (by rw [Option.some_inj])

theorem holds_flagName_iff {schema : Schema} {name : String} :
    (set.flagName schema name).value.2.holds j = true ↔
      (set.HasRoom j ∧ schema.sectionNamed? name = some j) ∨ set.holds j = true := by
  rw [flagName]
  cases schema.sectionNamed? name with
  | none => simp
  | some i => exact holds_flagSection_iff.trans (by rw [Option.some_inj])

@[simp] theorem length_words_flagSection :
    (set.flagSection i).words.length = set.words.length := by
  rw [flagSection]
  split
  · exact List.length_modify ..
  · rfl

@[simp] theorem capacity_flagSection : (set.flagSection i).capacity = set.capacity := by
  rw [flagSection]
  split <;> rfl

@[simp] theorem holds_clear : set.clear.holds i = false := by
  rw [holds, clear, List.getElem?_map]
  cases set.words[i / wordBits]? <;> simp

@[simp] theorem holds_blank {capacity : Nat} : (blank capacity).holds i = false := by
  rw [holds, blank, List.getElem?_replicate]
  split <;> simp

/-! ## Sound sets -/

/-- The words have room for the sections of a record, and the flags are counted. -/
structure Sound (set : DirtySet) (capacity : Nat) : Prop where
  capacity_eq : set.capacity = capacity
  length_eq : set.words.length = (capacity + wordBits - 1) / wordBits
  count_eq : set.count = set.indices.length

namespace Sound

variable {capacity : Nat}

theorem indices_eq_nil (h : ∀ i, set.holds i = false) : set.indices = [] := by
  refine List.eq_nil_iff_forall_not_mem.2 fun i hi => ?_
  rw [mem_indices, h i] at hi
  cases hi

theorem blank (capacity : Nat) : Sound (.blank capacity) capacity where
  capacity_eq := rfl
  length_eq := List.length_replicate
  count_eq := by
    rw [indices_eq_nil fun _ => holds_blank]
    rfl

theorem clear (h : set.Sound capacity) : set.clear.Sound capacity where
  capacity_eq := h.capacity_eq
  length_eq := by
    rw [DirtySet.clear, List.length_map, h.length_eq]
  count_eq := by
    rw [indices_eq_nil fun _ => holds_clear]
    rfl

theorem flagSection (h : set.Sound capacity) (i : Nat) : (set.flagSection i).Sound capacity where
  capacity_eq := by rw [capacity_flagSection, h.capacity_eq]
  length_eq := by rw [length_words_flagSection, h.length_eq]
  count_eq := by
    by_cases hnew : i / wordBits < set.words.length ∧ set.holds i = false
    · have hperm : (set.flagSection i).indices.Perm (i :: set.indices) := by
        refine (List.perm_ext_iff_of_nodup (pairwise_indices _).nodup ?_).2 fun j => ?_
        · refine List.nodup_cons.2 ⟨?_, (pairwise_indices set).nodup⟩
          rw [mem_indices, hnew.2]
          decide
        · rw [mem_indices, holds_flagSection hnew.1, List.mem_cons, mem_indices, Bool.or_eq_true,
            decide_eq_true_eq]
      rw [hperm.length_eq, List.length_cons, ← h.count_eq, DirtySet.flagSection,
        if_pos (by simp [hnew])]
    · have hsame : set.flagSection i = set := by
        rw [DirtySet.flagSection, if_neg]
        simpa using hnew
      rw [hsame, h.count_eq]

/-- The flags are all there is to a set. -/
theorem ext {set' : DirtySet} (h : set.Sound capacity) (h' : set'.Sound capacity)
    (hholds : ∀ i, set.holds i = set'.holds i) : set = set' := by
  have hwords : set.words = set'.words := by
    refine List.ext_getElem (h.length_eq.trans h'.length_eq.symm) fun n hn hn' => ?_
    refine UInt64.toNat.inj (Nat.eq_of_testBit_eq fun j => ?_)
    rcases Nat.lt_or_ge j wordBits with hj | hj
    · have hbit := hholds (n * wordBits + j)
      have hdiv : (n * wordBits + j) / wordBits = n := by
        rw [Nat.mul_comm, Nat.mul_add_div (by decide), Nat.div_eq_of_lt hj, Nat.add_zero]
      have hmod : (n * wordBits + j) % wordBits = j := by
        rw [Nat.mul_comm, Nat.mul_add_mod, Nat.mod_eq_of_lt hj]
      rwa [holds, holds, hdiv, hmod, List.getElem?_eq_getElem hn, List.getElem?_eq_getElem hn']
        at hbit
    · have hzero (w : UInt64) : w.toNat.testBit j = false :=
        Nat.testBit_lt_two_pow
          (Nat.lt_of_lt_of_le w.toNat_lt (Nat.pow_le_pow_right (by decide) hj))
      rw [hzero, hzero]
  have hcapacity : set.capacity = set'.capacity := h.capacity_eq.trans h'.capacity_eq.symm
  have hcount : set.count = set'.count := by
    rw [h.count_eq, h'.count_eq, indices, indices, hwords]
  cases set
  cases set'
  cases hwords
  cases hcapacity
  cases hcount
  rfl

/-- Every section of the record has its bit. -/
theorem room (h : set.Sound capacity) (hi : i < capacity) : set.HasRoom i := by
  rw [HasRoom, h.length_eq]
  simp only [wordBits]
  omega

theorem isFlagged_eq (h : set.Sound capacity) (hi : i < capacity) :
    set.isFlagged i = set.holds i := by
  rw [isFlagged, h.capacity_eq, decide_eq_true hi, Bool.true_and]

theorem isEmpty_iff (h : set.Sound capacity) :
    set.isEmpty = true ↔ ∀ i, set.holds i = false := by
  rw [isEmpty, beq_iff_eq, h.count_eq, List.length_eq_zero_iff]
  constructor
  · intro hnil i
    rw [← Bool.not_eq_true, ← mem_indices, hnil]
    exact List.not_mem_nil
  · exact indices_eq_nil

end Sound

end ObjectSync.DirtySet
