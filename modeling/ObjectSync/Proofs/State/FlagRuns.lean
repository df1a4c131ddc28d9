import Mathlib.Data.Finset.Card
import ObjectSync.Proofs.Declaration.Tiling
import ObjectSync.Proofs.Lists
import ObjectSync.Proofs.State.Decoding

/-!
# Dirty sets as sets of numbers

However often sections are flagged and all flags taken away again, a dirty set stands for the
numbers flagged since that was last done, as far as its words have a bit for them
(`DirtySet.flagged`). That takes in the bits between the capacity and the end of the last word, and
no number behind them.

**`DirtySet.shows_reached`** says that everything that can be read off the set is read off these
numbers, and that they determine the set: the loop that takes bit after bit out of the words lists
each of them once, in ascending order, and the number kept beside the words counts them. The
sections that are flagged come in ascending block order where the width of the table is a size; in a
wider one two sections may start at the same block (`DirtySet.not_ascending_of_wrap`).
-/

namespace ObjectSync

namespace DirtySet

/-! ## Runs -/

/-- What is done to a dirty set. -/
inductive Step where
  | flag (index : Nat)
  | clear

def Step.index? : Step → Option Nat
  | flag index => some index
  | clear => none

def step (set : DirtySet) : Step → DirtySet
  | .flag index => set.flagSection index
  | .clear => set.clear

/-- The set that the operations make of an empty one. -/
def reached (capacity : Nat) (steps : List Step) : DirtySet := steps.foldl step (blank capacity)

/-- The numbers flagged since all flags were last taken away, the last one first. -/
def sinceClear (steps : List Step) : List Nat :=
  (steps.reverse.takeWhile (·.index?.isSome)).filterMap Step.index?

/-- The numbers flagged since all flags were last taken away, as far as the words of a set of this
capacity have a bit for them. -/
def flagged (capacity : Nat) (steps : List Step) : Finset Nat :=
  (sinceClear steps).toFinset.filter fun i => i / wordBits < (capacity + wordBits - 1) / wordBits

variable {set : DirtySet} {capacity i : Nat} {steps : List Step}

theorem mem_flagged :
    i ∈ flagged capacity steps ↔
      i ∈ sinceClear steps ∧ i / wordBits < (capacity + wordBits - 1) / wordBits := by
  simp [flagged]

@[simp] theorem sinceClear_flag (steps : List Step) (index : Nat) :
    sinceClear (steps ++ [.flag index]) = index :: sinceClear steps := by
  simp [sinceClear, Step.index?]

@[simp] theorem sinceClear_clear (steps : List Step) : sinceClear (steps ++ [.clear]) = [] := by
  simp [sinceClear, Step.index?]

theorem reached_concat (capacity : Nat) (steps : List Step) (step : Step) :
    reached capacity (steps ++ [step]) = (reached capacity steps).step step := by
  simp [reached]

theorem Sound.step (h : set.Sound capacity) (step : Step) : (set.step step).Sound capacity := by
  cases step with
  | flag index => exact h.flagSection index
  | clear => exact h.clear

theorem Sound.reached (capacity : Nat) (steps : List Step) :
    (reached capacity steps).Sound capacity := by
  induction steps using List.reverseRecOn with
  | nil => exact .blank capacity
  | append_singleton steps step ih =>
    rw [reached_concat]
    exact ih.step step

theorem Sound.hasRoom_iff (h : set.Sound capacity) :
    set.HasRoom i ↔ i / wordBits < (capacity + wordBits - 1) / wordBits := by
  rw [HasRoom, h.length_eq]

/-- Behind a run those bits are set that were flagged since the last clearing. -/
theorem holds_reached_iff (capacity : Nat) (steps : List Step) :
    (reached capacity steps).holds i = true ↔ i ∈ flagged capacity steps := by
  -- by the last operation: a flag is added where there is room for it, or all flags are gone
  induction steps using List.reverseRecOn with
  | nil =>
    have hblank : (reached capacity []).holds i = false := holds_blank
    simp [hblank, mem_flagged, sinceClear]
  | append_singleton steps step ih =>
    rw [reached_concat, mem_flagged]
    cases step with
    | flag index =>
      rw [DirtySet.step, holds_flagSection_iff, (Sound.reached capacity steps).hasRoom_iff, ih,
        mem_flagged, sinceClear_flag, List.mem_cons, or_and_right, @eq_comm _ i, and_comm]
    | clear =>
      rw [DirtySet.step, holds_clear, sinceClear_clear]
      simp

/-! ## What a set shows -/

/-- What is read off a set of some capacity is read off the numbers. -/
structure Shows (set : DirtySet) (capacity : Nat) (numbers : Finset Nat) : Prop where
  mem_indices : ∀ i, i ∈ set.indices ↔ i ∈ numbers
  pairwise_indices : set.indices.Pairwise (· < ·)
  count_eq : set.count = numbers.card
  isEmpty_iff : set.isEmpty = true ↔ numbers = ∅
  isFlagged_iff : ∀ i, set.isFlagged i = true ↔ i ∈ numbers ∧ i < capacity
  /-- The flagged sections of a schema are its sections at these numbers, in their order. -/
  sections_eq : ∀ schema : Schema, set.sections schema =
    (schema.sections.zipIdx.filter fun part => part.2 ∈ numbers).map Prod.fst

theorem Sound.shows (h : set.Sound capacity) {numbers : Finset Nat}
    (hholds : ∀ i, set.holds i = true ↔ i ∈ numbers) : set.Shows capacity numbers := by
  have hmem (i : Nat) : i ∈ set.indices ↔ i ∈ numbers := DirtySet.mem_indices.trans (hholds i)
  have hsorted := DirtySet.pairwise_indices set
  exact {
    mem_indices := hmem
    pairwise_indices := hsorted
    count_eq := by
      have hset : set.indices.toFinset = numbers := by
        ext i
        rw [List.mem_toFinset, hmem]
      rw [h.count_eq, ← List.toFinset_card_of_nodup (hsorted.imp Nat.ne_of_lt), hset]
    isEmpty_iff := by
      rw [h.isEmpty_iff, Finset.eq_empty_iff_forall_notMem]
      simp only [← hholds, Bool.not_eq_true]
    isFlagged_iff := by
      intro i
      rw [isFlagged, h.capacity_eq, Bool.and_eq_true, decide_eq_true_eq, hholds]
      exact and_comm
    sections_eq := by
      intro schema
      rw [sections, filterMap_getElem?_eq hsorted]
      simp only [hmem] }

/-- Sections that are listed by their start come out by their start. -/
theorem pairwise_sections {schema : Schema}
    (h : schema.sections.Pairwise fun part next => part.span.start.toNat < next.span.start.toNat)
    (set : DirtySet) :
    (set.sections schema).Pairwise fun part next =>
      part.span.start.toNat < next.span.start.toNat := by
  refine List.Pairwise.filterMap _ ?_ (DirtySet.pairwise_indices set)
  intro i j hlt part hpart next hnext
  obtain ⟨hi, rfl⟩ := List.getElem?_eq_some_iff.1 hpart
  obtain ⟨hj, rfl⟩ := List.getElem?_eq_some_iff.1 hnext
  exact List.pairwise_iff_getElem.1 h i j hi hj hlt

/-- A run leaves a set of the numbers flagged since the last clearing, and of nothing else. -/
theorem shows_reached (capacity : Nat) (steps : List Step) :
    (reached capacity steps).Shows capacity (flagged capacity steps) ∧
      (∀ steps' : List Step, reached capacity steps = reached capacity steps' ↔
        flagged capacity steps = flagged capacity steps') ∧
      ∀ settings name table schema, FitsSize table →
        Schema.compile settings name table = .ok schema →
        ((reached capacity steps).sections schema).Pairwise fun part next =>
          part.span.start.toNat < next.span.start.toNat := by
  refine ⟨?_, ?_, ?_⟩
  · exact (Sound.reached capacity steps).shows fun i => holds_reached_iff capacity steps
  · intro steps'
    constructor
    · intro hsame
      ext i
      rw [← holds_reached_iff, ← holds_reached_iff, hsame]
    · intro hsame
      refine (Sound.reached capacity steps).ext (Sound.reached capacity steps') fun i => ?_
      rw [Bool.eq_iff_iff, holds_reached_iff, holds_reached_iff, hsame]
  · intro settings name table schema hfits hcompile
    have hsound := (Schema.compile_sound hfits hcompile).1
    refine pairwise_sections (hsound.pairwise_start ?_ (fun _ hpart => hpart) ?_) _
    · exact Schema.count_pos_of_compile hfits hcompile
    · exact hsound.arranged.apart

/-- A flag that is taken away, two of sections, one of them twice, one between the capacity and the
end of the word, and one behind it. -/
theorem shows_reached_slack :
    let table : List Field := [.scalar "a" .u32, .scalar "b" .u64, .scalar "c" .u32]
    let steps : List Step := [.flag 0, .clear, .flag 2, .flag 63, .flag 64, .flag 1, .flag 2]
    FitsSize table ∧ flagged 3 steps = {1, 2, 63} ∧
      (reached 3 steps).Shows 3 (flagged 3 steps) ∧
      ∃ schema, Schema.compile {} "T" table = .ok schema ∧
        ((reached 3 steps).sections schema).Pairwise fun part next =>
          part.span.start.toNat < next.span.start.toNat := by
  intro table steps
  have hfits : FitsSize table := by decide
  obtain ⟨schema, hcompile⟩ : ∃ schema, Schema.compile {} "T" table = .ok schema := ⟨_, rfl⟩
  obtain ⟨hshows, -, hsections⟩ := shows_reached 3 steps
  exact ⟨hfits, by decide, hshows, schema, hcompile, hsections {} "T" table schema hfits hcompile⟩

/-- In a table that is wider than any size both sections start at block 0. -/
theorem not_ascending_of_wrap :
    ∃ schema, Schema.compile {} "T" Record.wrappedTable = .ok schema ∧
      ¬((reached schema.sections.length [.flag 0, .flag 1]).sections schema).Pairwise
        fun part next => part.span.start.toNat < next.span.start.toNat := by
  have hrun : (Schema.compile {} "T" Record.wrappedTable).toOption.map (fun schema =>
      ((reached schema.sections.length [.flag 0, .flag 1]).sections schema).map
        fun part => part.span.start.toNat) = some [0, 0] := by decide +kernel
  obtain ⟨schema, hcompile, hstarts⟩ := Schema.exists_of_compile hrun
  refine ⟨schema, hcompile, fun hascending => ?_⟩
  have hpairs := List.pairwise_map.2 hascending
  rw [hstarts] at hpairs
  simp at hpairs

end DirtySet

end ObjectSync
