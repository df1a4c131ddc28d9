import Mathlib.Order.Interval.Finset.Nat
import ObjectSync.Proofs.Blocks.Number

/-!
# Runs of writes

What a run of seeks and writes lays down is a list of `Patch`es: where each value begins, how wide it
is and what it is. A blank strip after the run is the number that all of them make together
(`Strip.number_run`), and since a bit can only be added, their order does not matter. Where no two
patches share a bit, each of them can be read back from its place.

**`Strip.writes_or`** puts this together: of one write to any strip, and of a whole run on a strip
that was reset.
-/

namespace ObjectSync

/-- A value that is laid down on the `width` bits from `first` on. -/
structure Patch where
  first : Nat
  width : Nat
  value : UInt64
deriving DecidableEq

namespace Patch

/-- The places of its bits. -/
def range (p : Patch) : Finset Nat := Finset.Ico p.first (p.first + p.width)

/-- What it adds to the number of a strip. -/
def number (p : Patch) : Nat := p.value.toNat % 2 ^ p.width * 2 ^ p.first

theorem testBit_number (p : Patch) (i : Nat) :
    p.number.testBit i = (decide (i ∈ p.range) && p.value.toNat.testBit (i - p.first)) := by
  rw [number, range, Nat.testBit_mul_two_pow, Nat.testBit_mod_two_pow, Bool.eq_iff_iff]
  simp only [Finset.mem_Ico, Bool.and_eq_true, decide_eq_true_eq]
  constructor
  · rintro ⟨hle, hlt, hbit⟩
    exact ⟨⟨hle, by omega⟩, hbit⟩
  · rintro ⟨⟨hle, hlt⟩, hbit⟩
    exact ⟨hle, by omega, hbit⟩

/-- Adds several patches to a number. -/
def addAll (n : Nat) (patches : List Patch) : Nat := patches.foldl (fun n p => n ||| p.number) n

theorem testBit_addAll (n : Nat) (patches : List Patch) (i : Nat) :
    (addAll n patches).testBit i = (n.testBit i || patches.any (·.number.testBit i)) := by
  induction patches generalizing n with
  | nil => rw [List.any_nil, Bool.or_false]; rfl
  | cons p rest ih =>
    rw [addAll, List.foldl_cons, ← addAll, ih, Nat.testBit_or, List.any_cons, Bool.or_assoc]

/-- It does not matter which patch is the first. -/
theorem addAll_perm {patches patches' : List Patch} (h : patches.Perm patches') (n : Nat) :
    addAll n patches = addAll n patches' :=
  Nat.eq_of_testBit_eq fun i => by rw [testBit_addAll, testBit_addAll, h.any_eq]

/-- No two of the patches share a bit. -/
def Apart (patches : List Patch) : Prop :=
  patches.Pairwise fun p q => Disjoint p.range q.range

instance (patches : List Patch) : Decidable (Apart patches) :=
  inferInstanceAs (Decidable (List.Pairwise ..))

theorem Apart.eq_of_mem {patches : List Patch} (h : Apart patches) {p q : Patch}
    (hp : p ∈ patches) (hq : q ∈ patches) {i : Nat} (hpi : i ∈ p.range) (hqi : i ∈ q.range) :
    p = q := by
  by_contra hne
  have : Std.Symm fun p q : Patch => Disjoint p.range q.range := ⟨fun _ _ h => h.symm⟩
  exact Finset.disjoint_left.1 (List.Pairwise.forall h hp hq hne) hpi hqi

/-- In its own place a patch is alone. -/
theorem Apart.testBit_addAll {patches : List Patch} (h : Apart patches) {p : Patch}
    (hp : p ∈ patches) {j : Nat} (hj : j < p.width) :
    (addAll 0 patches).testBit (p.first + j) = p.value.toNat.testBit j := by
  have hmem : p.first + j ∈ p.range := Finset.mem_Ico.2 ⟨by omega, by omega⟩
  have hown : p.number.testBit (p.first + j) = p.value.toNat.testBit j := by
    rw [testBit_number, decide_eq_true hmem, Bool.true_and, Nat.add_sub_cancel_left]
  rw [Patch.testBit_addAll, Nat.zero_testBit, Bool.false_or, Bool.eq_iff_iff, List.any_eq_true]
  constructor
  · rintro ⟨q, hq, hbit⟩
    have hqi : p.first + j ∈ q.range := by
      rw [testBit_number, Bool.and_eq_true, decide_eq_true_eq] at hbit
      exact hbit.1
    rw [← hown]
    exact h.eq_of_mem hp hq hmem hqi ▸ hbit
  · intro hbit
    exact ⟨p, hp, hown.trans hbit⟩

end Patch

namespace Strip

/-- What is done to a strip once it was reset. -/
inductive Step where
  | seek (bit : Nat)
  | write (value : UInt64) (width : Nat)

def step (s : Strip) : Step → Strip
  | .seek bit => s.seek bit
  | .write value width => s.write value width

/-- A step that gives up where a write is not safe. -/
def step? (s : Strip) : Step → Option Strip
  | .seek bit => some (s.seek bit)
  | .write value width => s.write? value width

def run (s : Strip) (steps : List Step) : Strip := steps.foldl step s

def run? (s : Strip) (steps : List Step) : Option Strip := steps.foldlM step? s

/-- What the steps lay down, if the cursor is where it is said to be. -/
def patches (cursor : Nat) : List Step → List Patch
  | [] => []
  | .seek bit :: rest => patches bit rest
  | .write value width :: rest =>
    { first := cursor, width, value } :: patches (cursor + width) rest

/-- All values are at most 64 bits wide, and lie on `count` blocks. -/
def Inside (count : Nat) (patches : List Patch) : Prop :=
  ∀ p ∈ patches, p.width ≤ 64 ∧ p.first + p.width ≤ count * blockBits

instance (count : Nat) (patches : List Patch) : Decidable (Inside count patches) :=
  inferInstanceAs (Decidable (∀ p ∈ patches, _))

@[simp] theorem size_words_run (s : Strip) (steps : List Step) :
    (s.run steps).words.size = s.words.size := by
  induction steps generalizing s with
  | nil => rfl
  | cons step rest ih =>
    rw [run, List.foldl_cons, ← run, ih]
    cases step with
    | seek bit => rfl
    | write value width => exact size_words_write s value width

/-- A run adds its patches, and no step of it is unsafe. -/
theorem number_run {s : Strip} {steps : List Step}
    (h : Inside s.words.size (patches s.cursor steps)) :
    s.run? steps = some (s.run steps) ∧
      (s.run steps).number = Patch.addAll s.number (patches s.cursor steps) := by
  induction steps generalizing s with
  | nil => exact ⟨rfl, rfl⟩
  | cons step rest ih =>
    cases step with
    | seek bit => exact @ih (s.seek bit) h
    | write value width =>
      obtain ⟨⟨hwidth, hstop⟩, hrest⟩ := List.forall_mem_cons.1 h
      -- the rest begins where this write ends, on a strip that is as long
      obtain ⟨hrun, hnumber⟩ := @ih (s.write value width) (by rwa [size_words_write])
      refine ⟨?_, ?_⟩
      · rw [run?, List.foldlM_cons, step?, write?_eq_some hwidth hstop]
        exact hrun
      · rw [run, List.foldl_cons, step, ← run, hnumber, number_write hwidth hstop]
        rfl

/-- A blank strip becomes what its patches make together. -/
theorem number_run_blank {count : Nat} {steps : List Step} (h : Inside count (patches 0 steps)) :
    (blank count).run? steps = some ((blank count).run steps) ∧
      ((blank count).run steps).number = Patch.addAll 0 (patches 0 steps) := by
  have hsize : (blank count).words.size = count := Array.size_replicate
  have hzero : (blank count).number = 0 :=
    Nat.eq_of_testBit_eq fun i => by rw [testBit_number, bit_blank, Nat.zero_testBit]
  have hrun := @number_run (blank count) steps (by rwa [hsize])
  rwa [hzero] at hrun

/-- What a write does to a strip, as one number. -/
structure Wrote (s : Strip) (value : UInt64) (width : Nat) : Prop where
  write?_eq : s.write? value width = some (s.write value width)
  size_eq : (s.write value width).words.size = s.words.size
  number_eq : (s.write value width).number =
    s.number ||| (value.toNat % 2 ^ width) * 2 ^ s.cursor
  cursor_eq : (s.write value width).cursor = s.cursor + width

/-- What a run of steps makes of a strip that was reset to `count` blocks. -/
structure Assembled (s : Strip) (count : Nat) (steps : List Step) : Prop where
  run?_eq : (s.reset count).run? steps = some ((s.reset count).run steps)
  size_eq : ((s.reset count).run steps).words.size = count
  /-- Each value can be read in its place. -/
  value_eq : ∀ p ∈ patches 0 steps,
    ((s.reset count).run steps).number / 2 ^ p.first % 2 ^ p.width = p.value.toNat % 2 ^ p.width
  /-- There is nothing elsewhere. -/
  zero : ∀ i, (∀ p ∈ patches 0 steps, i ∉ p.range) →
    ((s.reset count).run steps).number.testBit i = false
  /-- In any order, the writes give the same words, whatever the strip held before. -/
  any_order : ∀ (s' : Strip) (steps' : List Step), (patches 0 steps').Perm (patches 0 steps) →
    (s'.reset count).run? steps' = some ((s'.reset count).run steps') ∧
      ((s'.reset count).run steps').words = ((s.reset count).run steps).words

/-- A write is an OR into one number, and so are the writes of a run in any order. -/
theorem writes_or :
    (∀ (s : Strip) (value : UInt64) (width : Nat), width ≤ 64 →
      s.cursor + width ≤ s.words.size * blockBits → s.Wrote value width) ∧
    ∀ (s : Strip) (count : Nat) (steps : List Step), Inside count (patches 0 steps) →
      Patch.Apart (patches 0 steps) → Assembled s count steps := by
  refine ⟨fun s value width hwidth hstop => ?_, fun s count steps hinside hapart => ?_⟩
  · exact ⟨write?_eq_some hwidth hstop value, size_words_write s value width,
      number_write hwidth hstop value, rfl⟩
  · have hsize : (blank count).words.size = count := Array.size_replicate
    obtain ⟨hrun, hnumber⟩ := number_run_blank hinside
    constructor <;> simp only [reset_eq_blank]
    case run?_eq => exact hrun
    case size_eq => rw [size_words_run, hsize]
    case value_eq =>
      intro p hp
      refine Nat.eq_of_testBit_eq fun j => ?_
      rw [Nat.testBit_mod_two_pow, Nat.testBit_mod_two_pow, Nat.testBit_div_two_pow, hnumber]
      by_cases hj : j < p.width
      · rw [Nat.add_comm j, hapart.testBit_addAll hp hj]
      · rw [decide_eq_false hj, Bool.false_and, Bool.false_and]
    case zero =>
      intro i hi
      rw [hnumber, Patch.testBit_addAll, Nat.zero_testBit, Bool.false_or, List.any_eq_false]
      intro p hp
      rw [Patch.testBit_number, decide_eq_false (hi p hp), Bool.false_and]
      exact Bool.false_ne_true
    case any_order =>
      intro _ steps' h
      obtain ⟨hrun', hnumber'⟩ := number_run_blank fun p hp => hinside p (h.mem_iff.1 hp)
      refine ⟨hrun', Array.toList_inj.1 (eq_of_numberOf ?_ ?_)⟩
      · rw [Array.length_toList, Array.length_toList, size_words_run, size_words_run]
      · rw [← number, ← number, hnumber', hnumber, Patch.addAll_perm h]

/-- A value of 64 bits that begins within a block and takes three of them, and a run that goes back
to the start of the strip for its last write, where the strip was longer before and not blank. -/
theorem writes_or_three_blocks :
    Wrote { words := #[1, 2, 3], cursor := 20 } 0xFEDCBA9876543210 64 ∧
      Assembled { words := #[1, 2, 3, 4], cursor := 7 } 3
        [.seek 20, .write 0xFEDCBA9876543210 64, .write 1 1, .seek 0, .write 0xABCDE 20] :=
  ⟨writes_or.1 _ _ _ (by decide) (by decide), writes_or.2 _ _ _ (by decide) (by decide)⟩

end Strip

end ObjectSync
