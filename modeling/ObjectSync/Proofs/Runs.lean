import Mathlib.Data.List.Basic
import Mathlib.Data.List.Induction

/-!
# Runs of operations

What a run of operations leaves behind is told by the operations, not by the states in between.
`lastArg` looks up the last argument of a kind of operation, and `foldl_eq_lastArg` is the one
induction over runs: a view that every operation sets or leaves shows what the last one set.
-/

namespace ObjectSync

variable {σ ω α : Type} {arg : ω → Option α} {operations : List ω}

/-- What the last operation that has such an argument was given. -/
def lastArg (arg : ω → Option α) (operations : List ω) : Option α :=
  operations.reverse.findSome? arg

theorem lastArg_concat (arg : ω → Option α) (operations : List ω) (operation : ω) :
    lastArg arg (operations ++ [operation]) = (arg operation).or (lastArg arg operations) := by
  rw [lastArg, List.reverse_concat, List.findSome?_cons]
  cases arg operation <;> rfl

theorem lastArg_map {β : Type} (f : α → β) (arg : ω → Option α) (operations : List ω) :
    lastArg (fun operation => (arg operation).map f) operations =
      (lastArg arg operations).map f := by
  rw [lastArg, lastArg, List.map_findSome?]
  rfl

theorem lastArg_append (arg : ω → Option α) (operations operations' : List ω) :
    lastArg arg (operations ++ operations') =
      (lastArg arg operations').or (lastArg arg operations) := by
  rw [lastArg, List.reverse_append, List.findSome?_append]
  rfl

theorem lastArg_eq_none (h : ∀ operation ∈ operations, arg operation = none) :
    lastArg arg operations = none :=
  List.findSome?_eq_none_iff.2 fun operation hmem => h operation (List.mem_reverse.1 hmem)

/-- Operations that are made of others are looked through one by one. -/
theorem lastArg_flatMap {τ : Type} (arg : ω → Option α) (f : τ → List ω) (composites : List τ) :
    lastArg arg (composites.flatMap f) = lastArg (fun composite => lastArg arg (f composite))
      composites := by
  induction composites using List.reverseRecOn with
  | nil => rfl
  | append_singleton composites composite ih =>
    rw [List.flatMap_append, lastArg_append, ih, lastArg_concat, List.flatMap_singleton]

/-- The last argument decides what is read off it, if something is read off every argument. -/
theorem lastArg_bind {β : Type} {f : α → Option β}
    (h : ∀ operation ∈ operations, ∀ a, arg operation = some a → (f a).isSome = true) :
    lastArg (fun operation => (arg operation).bind f) operations =
      (lastArg arg operations).bind f := by
  induction operations using List.reverseRecOn with
  | nil => rfl
  | append_singleton operations operation ih =>
    rw [lastArg_concat, lastArg_concat, ih fun earlier hearlier =>
      h earlier (List.mem_append_left _ hearlier)]
    cases harg : arg operation with
    | none => rfl
    | some a =>
      obtain ⟨b, hb⟩ := Option.isSome_iff_exists.1
        (h operation (List.mem_append_right _ (List.mem_singleton.2 rfl)) a harg)
      rw [Option.bind_some, hb]
      exact hb.symm

/-- In a numbered list, each item is the last one with its number. -/
theorem lastArg_zipIdx (items : List α) (index : Nat) :
    lastArg (fun item : α × Nat => if item.2 = index then some item.1 else none) items.zipIdx =
      items[index]? := by
  induction items using List.reverseRecOn with
  | nil => rfl
  | append_singleton items item ih =>
    rw [List.zipIdx_append, List.zipIdx_singleton, lastArg_concat, ih, Nat.zero_add]
    rcases Nat.lt_trichotomy index items.length with hlt | rfl | hlt
    · rw [if_neg (show items.length ≠ index by omega), List.getElem?_append_left hlt]
      rfl
    · rw [if_pos rfl, List.getElem?_concat_length]
      rfl
    · rw [if_neg (show items.length ≠ index by omega), List.getElem?_eq_none (by omega),
        List.getElem?_eq_none (by rw [List.length_append, List.length_singleton]; exact hlt)]
      rfl

/-- What counts is which arguments were given in which order. -/
theorem lastArg_eq_getLast? (arg : ω → Option α) (operations : List ω) :
    lastArg arg operations = (operations.filterMap arg).getLast? := by
  rw [lastArg, List.getLast?_filterMap]

theorem lastArg_comp {τ : Type} (arg : ω → Option α) (f : τ → ω) (sources : List τ) :
    lastArg arg (sources.map f) = lastArg (fun source => arg (f source)) sources := by
  rw [lastArg, lastArg, ← List.map_reverse, List.findSome?_map]
  rfl

theorem lastArg_filterMap {τ : Type} (arg : ω → Option α) (f : τ → Option ω) (sources : List τ) :
    lastArg arg (sources.filterMap f) = lastArg (fun source => (f source).bind arg) sources := by
  rw [lastArg_eq_getLast?, lastArg_eq_getLast?, List.filterMap_filterMap]

theorem lastArg_congr {arg' : ω → Option α} (h : ∀ operation ∈ operations,
    arg operation = arg' operation) : lastArg arg operations = lastArg arg' operations := by
  rw [lastArg_eq_getLast?, lastArg_eq_getLast?, List.filterMap_congr h]

/-- If every operation sets what is seen of a state or leaves it, the last one that sets it decides.
It is enough that the operations do so in the states that are met. -/
theorem foldl_eq_lastArg_of {step : σ → ω → σ} {P : σ → Prop} (view : σ → α)
    (hkeep : ∀ state operation, P state → P (step state operation))
    (hstep : ∀ state operation, P state →
      view (step state operation) = (arg operation).getD (view state))
    {start : σ} (hstart : P start) (operations : List ω) :
    view (operations.foldl step start) = (lastArg arg operations).getD (view start) := by
  induction operations using List.reverseRecOn with
  | nil => rfl
  | append_singleton operations operation ih =>
    have hbefore : P (operations.foldl step start) :=
      List.foldlRecOn operations step hstart fun state h operation _ => hkeep state operation h
    rw [List.foldl_append, List.foldl_cons, List.foldl_nil, hstep _ _ hbefore, ih, lastArg_concat]
    cases arg operation <;> rfl

theorem foldl_eq_lastArg {step : σ → ω → σ} (view : σ → α)
    (hstep : ∀ state operation, view (step state operation) = (arg operation).getD (view state))
    (start : σ) (operations : List ω) :
    view (operations.foldl step start) = (lastArg arg operations).getD (view start) :=
  foldl_eq_lastArg_of (P := fun _ => True) view (fun _ _ _ => trivial)
    (fun state operation _ => hstep state operation) trivial operations

/-- Operations that only take away do not give the value that is there. -/
theorem lastArg_of_takes {arg arg' : ω → Option (Option α)}
    (h : ∀ operation, arg' operation = arg operation ∨
      arg operation = none ∧ arg' operation = some none)
    {operations : List ω} {a : α} (hlast : (lastArg arg' operations).join = some a) :
    lastArg arg operations = some (some a) := by
  induction operations using List.reverseRecOn with
  | nil => cases hlast
  | append_singleton operations operation ih =>
    rw [lastArg_concat] at hlast ⊢
    rcases h operation with hsame | ⟨_, htakes⟩
    · rw [hsame] at hlast
      cases hgiven : arg operation with
      | none =>
        rw [hgiven] at hlast
        exact ih hlast
      | some given =>
        rw [hgiven] at hlast
        exact congrArg some hlast
    · rw [htakes] at hlast
      cases hlast

end ObjectSync
