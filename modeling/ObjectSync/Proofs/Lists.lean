import Mathlib.Data.List.Induction
import Mathlib.Data.List.Sort

/-!
# Ascending lists and lists of pieces

Two ways to find something in a list. In an ascending list of places the number of places in front
tells where one stands (`countP_range_of_pairwise`), and what stands at such places in another list
comes in the order of that list (`filterMap_getElem?_eq`). In a list that is made of pieces of one
length, each piece is found by the number of those in front of it (`take_drop_flatMap`).
-/

namespace ObjectSync

/-! ## Ascending places -/

section Places

variable {α : Type} {items : List α} {places : List Nat}

/-- The places of a list below a number, ascending. -/
theorem filter_lt_eq_range_filter (h : places.Pairwise (· < ·)) (count : Nat) :
    places.filter (· < count) = (List.range count).filter (· ∈ places) := by
  refine (h.filter _).eq_of_mem_iff (List.pairwise_lt_range.filter _) fun k => ?_
  simp only [List.mem_filter, List.mem_range, decide_eq_true_eq]
  exact and_comm

/-- In an ascending list, as many places are in front of one as are smaller. -/
theorem countP_range_of_pairwise {front back : List Nat} {k : Nat}
    (h : (front ++ k :: back).Pairwise (· < ·)) :
    (List.range k).countP (· ∈ front ++ k :: back) = front.length := by
  obtain ⟨-, hback, hapart⟩ := List.pairwise_append.1 h
  have hbelow : front.filter (· < k) = front := by
    refine List.filter_eq_self.2 fun m hm => decide_eq_true ?_
    exact hapart m hm k List.mem_cons_self
  have hbehind : back.filter (· < k) = [] := by
    refine List.filter_eq_nil_iff.2 fun m hm => ?_
    have hlt := (List.pairwise_cons.1 hback).1 m hm
    simp only [decide_eq_true_eq]
    omega
  rw [List.countP_eq_length_filter, ← filter_lt_eq_range_filter h, List.filter_append, hbelow,
    List.filter_cons_of_neg (by simp), hbehind, List.append_nil]

theorem filterMap_range_filter (items : List α) (p : Nat → Bool) :
    ((List.range items.length).filter p).filterMap (items[·]?) =
      (items.zipIdx.filter fun item => p item.2).map Prod.fst := by
  induction items using List.reverseRecOn with
  | nil => rfl
  | append_singleton items a ih =>
    have hfront : ((List.range items.length).filter p).filterMap ((items ++ [a])[·]?) =
        ((List.range items.length).filter p).filterMap (items[·]?) := by
      refine List.filterMap_congr fun k hk => ?_
      have hlt : k < items.length := List.mem_range.1 (List.mem_filter.1 hk).1
      exact List.getElem?_append_left hlt
    rw [List.length_append, List.length_singleton, List.range_succ, List.filter_append,
      List.filterMap_append, hfront, ih, List.zipIdx_append, List.filter_append, List.map_append]
    cases hlast : p items.length <;> simp [hlast]

/-- What stands at ascending places is told by the places, each item in its turn. -/
theorem filterMap_getElem?_eq (h : places.Pairwise (· < ·)) (items : List α) :
    places.filterMap (items[·]?) =
      (items.zipIdx.filter fun item => item.2 ∈ places).map Prod.fst := by
  have hinside : places.filterMap (items[·]?) =
      (places.filter (· < items.length)).filterMap (items[·]?) := by
    rw [List.filterMap_filter]
    refine List.filterMap_congr fun k _ => ?_
    by_cases hk : k < items.length <;> simp [hk]
  rw [hinside, filter_lt_eq_range_filter h, filterMap_range_filter]

end Places

/-! ## Pieces of one length -/

section Pieces

variable {α β : Type} {f : α → List β} {size : Nat}

/-- Pieces that follow one another are the stretch from the first to the last. -/
theorem flatMap_range_take (items : List β) (start size count : Nat) :
    (List.range count).flatMap (fun i => (items.drop (start + size * i)).take size) =
      (items.drop start).take (size * count) := by
  induction count with
  | zero => simp
  | succ count ih =>
    rw [List.range_succ, List.flatMap_append, ih, List.flatMap_singleton, Nat.mul_succ,
      List.take_add, List.drop_drop]

theorem length_flatMap_of_length {items : List α} (h : ∀ a ∈ items, (f a).length = size) :
    (items.flatMap f).length = size * items.length := by
  induction items with
  | nil => simp
  | cons a rest ih =>
    obtain ⟨ha, hrest⟩ := List.forall_mem_cons.1 h
    rw [List.flatMap_cons, List.length_append, ha, ih hrest, List.length_cons, Nat.mul_succ,
      Nat.add_comm]

/-- Where all pieces have one length, each is found by the number of those in front of it. -/
theorem take_drop_flatMap {front back : List α} {a : α}
    (h : ∀ a' ∈ front ++ a :: back, (f a').length = size) :
    (((front ++ a :: back).flatMap f).drop (size * front.length)).take size = f a := by
  obtain ⟨hfront, hback⟩ := List.forall_mem_append.1 h
  have ha := (List.forall_mem_cons.1 hback).1
  rw [List.flatMap_append, List.flatMap_cons, ← length_flatMap_of_length hfront, List.drop_left,
    ← ha, List.take_left]

end Pieces

end ObjectSync
