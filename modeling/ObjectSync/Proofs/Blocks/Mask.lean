import Mathlib.Data.List.Sort
import ObjectSync.Blocks.Mask
import ObjectSync.Proofs.Blocks.Strip
import ObjectSync.Proofs.Bytes.Reader

/-!
# Reading block masks

`BlockMask.blocks` lists the blocks that a mask announces, in the order in which their words follow.
A mask to which ascending blocks were added announces exactly these
(**`BlockMask.blocks_marks`**), has no word behind that of the highest (`BlockMask.length_marks`),
and does not end in a word of zero (`BlockMask.trimmed_marks`). A mask that its count byte can
measure is read back (`Reads.mask`).
-/

namespace ObjectSync

namespace BlockMask

/-- The blocks that the mask announces, ascending. -/
def blocks (m : BlockMask) : List Nat :=
  (List.range (m.words.length * blockBits)).filter (· ∈ m)

/-- The mask of several blocks. -/
def marks (keys : List Nat) : BlockMask := keys.foldl mark ∅

/-! ## Marking -/

theorem mem_iff {m : BlockMask} {block : Nat} : block ∈ m ↔ bitAt m.words block = true := Iff.rfl

theorem getD_addTo (words : List UInt32) (word : Nat) (bits : UInt32) (n : Nat) :
    (addTo words word bits)[n]?.getD 0 =
      if n = word then words[n]?.getD 0 ||| bits else words[n]?.getD 0 := by
  fun_induction addTo words word bits generalizing n with
  | case1 bits => cases n <;> simp
  | case2 word bits ih =>
    cases n with
    | zero => simp
    | succ n => simpa using ih n
  | case3 w rest bits => cases n <;> simp
  | case4 w rest word bits ih =>
    cases n with
    | zero => simp
    | succ n => simpa using ih n

theorem length_addTo (words : List UInt32) (word : Nat) (bits : UInt32) :
    (addTo words word bits).length = max words.length (word + 1) := by
  fun_induction addTo words word bits with
  | case1 bits => rfl
  | case2 word bits ih =>
    rw [List.length_cons, ih]
    simp
  | case3 w rest bits =>
    rw [List.length_cons, List.length_cons]
    omega
  | case4 w rest word bits ih =>
    rw [List.length_cons, List.length_cons, ih]
    omega

theorem testBit_one_shiftLeft {i j : Nat} (hi : i < blockBits) :
    ((1 : UInt32) <<< UInt32.ofNat i).toNat.testBit j = decide (j = i) := by
  have hmod : (UInt32.ofNat i).toNat % 32 = i := by
    rw [UInt32.toNat_ofNat']
    simp only [blockBits] at hi
    omega
  have hlt : 2 ^ i < 2 ^ 32 := Nat.pow_lt_pow_right (by decide) hi
  rw [UInt32.toNat_shiftLeft, hmod, UInt32.toNat_one, Nat.one_shiftLeft, Nat.mod_eq_of_lt hlt,
    Nat.testBit_two_pow]
  exact decide_eq_decide.2 eq_comm

theorem mem_mark {m : BlockMask} {block k : Nat} : k ∈ m.mark block ↔ k = block ∨ k ∈ m := by
  rw [mem_iff, mem_iff, bitAt, bitAt, mark, getD_addTo]
  by_cases hword : k / blockBits = block / blockBits
  · have hbit : k % blockBits = block % blockBits ↔ k = block := by
      simp only [blockBits] at *
      omega
    rw [if_pos hword, UInt32.toNat_or, Nat.testBit_or,
      testBit_one_shiftLeft (Nat.mod_lt _ (by decide)), Bool.or_eq_true, decide_eq_true_eq, hbit]
    exact or_comm
  · have hne : k ≠ block := fun h => hword (congrArg (· / blockBits) h)
    rw [if_neg hword]
    exact ⟨.inr, fun h => h.resolve_left hne⟩

theorem mem_foldl_mark {m : BlockMask} {keys : List Nat} {k : Nat} :
    k ∈ keys.foldl mark m ↔ k ∈ keys ∨ k ∈ m := by
  induction keys generalizing m with
  | nil => simp
  | cons key rest ih =>
    rw [List.foldl_cons, ih, mem_mark, List.mem_cons]
    tauto

theorem not_mem_empty {k : Nat} : k ∉ (∅ : BlockMask) := by
  rw [mem_iff, bitAt_of_length_le (Nat.zero_le _)]
  exact Bool.false_ne_true

theorem mem_marks {keys : List Nat} {k : Nat} : k ∈ marks keys ↔ k ∈ keys := by
  rw [marks, mem_foldl_mark]
  exact or_iff_left not_mem_empty

theorem length_mark_le {m : BlockMask} {words block : Nat} (hm : m.words.length ≤ words)
    (hblock : block < words * blockBits) : (m.mark block).words.length ≤ words := by
  rw [mark, length_addTo]
  simp only [blockBits] at *
  omega

theorem length_foldl_mark_le {m : BlockMask} {words : Nat} (hm : m.words.length ≤ words)
    {keys : List Nat} (h : ∀ k ∈ keys, k < words * blockBits) :
    (keys.foldl mark m).words.length ≤ words := by
  induction keys generalizing m with
  | nil => exact hm
  | cons key rest ih =>
    exact ih (length_mark_le hm (h key List.mem_cons_self)) fun k hk =>
      h k (List.mem_cons_of_mem key hk)

/-- Blocks below the end of a number of words take no more words than these. -/
theorem length_marks_le {keys : List Nat} {words : Nat} (h : ∀ k ∈ keys, k < words * blockBits) :
    (marks keys).words.length ≤ words :=
  length_foldl_mark_le (Nat.zero_le _) h

theorem lt_of_mem {m : BlockMask} {k : Nat} (hk : k ∈ m) : k < m.words.length * blockBits := by
  rcases Nat.lt_or_ge k (m.words.length * blockBits) with h | h
  · exact h
  · rw [mem_iff, bitAt_of_length_le h] at hk
    cases hk

/-- The words end with that of the highest block. -/
theorem length_marks {keys : List Nat} {last : Nat} (hlast : last ∈ keys)
    (h : ∀ k ∈ keys, k ≤ last) : (marks keys).words.length = last / blockBits + 1 := by
  have hroom : last < (marks keys).words.length * blockBits := lt_of_mem (mem_marks.2 hlast)
  have hle : (marks keys).words.length ≤ last / blockBits + 1 := by
    refine length_marks_le fun k hk => ?_
    have hk := h k hk
    simp only [blockBits] at *
    omega
  simp only [blockBits] at *
  omega

/-! ## The last word -/

/-- No words of zero come at the end. -/
def Trimmed (m : BlockMask) : Prop := m.words.getLast? ≠ some 0

theorem getLast?_ne_of_cons {w : UInt32} {rest : List UInt32}
    (h : (w :: rest).getLast? ≠ some 0) : rest.getLast? ≠ some 0 := by
  cases rest with
  | nil => nofun
  | cons w' rest => rwa [List.getLast?_cons_cons] at h

theorem getLast?_cons_ne {w : UInt32} {rest : List UInt32} (h : rest.getLast? ≠ some 0)
    (hw : rest = [] → w ≠ 0) : (w :: rest).getLast? ≠ some 0 := by
  cases rest with
  | nil => simpa using hw rfl
  | cons w' rest => rwa [List.getLast?_cons_cons]

theorem getLast?_addTo {words : List UInt32} {word : Nat} {bits : UInt32}
    (h : words.getLast? ≠ some 0) (hbits : bits ≠ 0) :
    (addTo words word bits).getLast? ≠ some 0 := by
  have hfilled (words : List UInt32) (word : Nat) : addTo words word bits ≠ [] := by
    rw [← List.length_pos_iff, length_addTo]
    omega
  fun_induction addTo words word bits with
  | case1 bits => simpa using hbits
  | case2 word bits ih =>
    exact getLast?_cons_ne (ih h hbits hfilled) fun hnil => absurd hnil (hfilled _ _)
  | case3 w rest bits =>
    refine getLast?_cons_ne (getLast?_ne_of_cons h) fun _ hzero => hbits ?_
    rw [UInt32.or_eq_zero_iff] at hzero
    exact hzero.2
  | case4 w rest word bits ih =>
    exact getLast?_cons_ne (ih (getLast?_ne_of_cons h) hbits hfilled)
      fun hnil => absurd hnil (hfilled _ _)

/-- The words only grow to take a bit. -/
theorem Trimmed.mark {m : BlockMask} (h : m.Trimmed) (block : Nat) : (m.mark block).Trimmed := by
  refine getLast?_addTo h fun hzero => ?_
  have hset := testBit_one_shiftLeft (i := block % blockBits) (j := block % blockBits)
    (Nat.mod_lt _ (by decide))
  rw [hzero] at hset
  simp at hset

theorem Trimmed.foldl_mark {m : BlockMask} (h : m.Trimmed) (keys : List Nat) :
    (keys.foldl BlockMask.mark m).Trimmed := by
  induction keys generalizing m with
  | nil => exact h
  | cons key rest ih => exact ih (h.mark key)

theorem trimmed_empty : Trimmed ∅ := nofun

theorem trimmed_marks (keys : List Nat) : (marks keys).Trimmed :=
  trimmed_empty.foldl_mark keys

/-! ## Announced blocks -/

theorem mem_blocks {m : BlockMask} {k : Nat} : k ∈ m.blocks ↔ k ∈ m := by
  rw [blocks, List.mem_filter, List.mem_range, decide_eq_true_eq]
  exact and_iff_right_of_imp lt_of_mem

theorem pairwise_blocks (m : BlockMask) : m.blocks.Pairwise (· < ·) :=
  List.pairwise_lt_range.filter _

theorem blocks_marks {keys : List Nat} (h : keys.Pairwise (· < ·)) : (marks keys).blocks = keys :=
  (pairwise_blocks _).eq_of_mem_iff h fun _ => mem_blocks.trans mem_marks

/-- The bits of the first word come in front of those of the others. -/
theorem countP_bitAt (words : List UInt32) :
    (List.range (words.length * blockBits)).countP (bitAt words) =
      (words.map popCount).foldr (· + ·) 0 := by
  induction words with
  | nil => rfl
  | cons w rest ih =>
    have hfirst : (List.range blockBits).countP (bitAt (w :: rest)) = popCount w := by
      refine List.countP_congr fun k hk => ?_
      have hlt := List.mem_range.1 hk
      rw [bitAt, Nat.div_eq_of_lt hlt, Nat.mod_eq_of_lt hlt]
      rfl
    have hrest (k : Nat) : bitAt (w :: rest) (blockBits + k) = bitAt rest k := by
      rw [bitAt, Nat.add_div_left k (by decide), Nat.add_mod_left]
      rfl
    have hlength : (w :: rest).length * blockBits = blockBits + rest.length * blockBits := by
      rw [List.length_cons, Nat.add_mul, Nat.one_mul, Nat.add_comm]
    rw [hlength, List.range_add, List.countP_append, List.countP_map, hfirst, List.map_cons,
      List.foldr_cons, ← ih]
    exact congrArg _ (List.countP_congr fun k _ => by rw [Function.comp_apply, hrest])

/-- A mask announces as many blocks as it has bits. -/
theorem length_blocks (m : BlockMask) : m.blocks.length = m.blockCount := by
  rw [blocks, ← List.countP_eq_length_filter, blockCount, ← countP_bitAt]
  exact List.countP_congr fun k _ => by rw [decide_eq_true_eq, mem_iff]

/-! ## Reading -/

/-- The count byte and the words. -/
def reader : Reader BlockMask := do
  let count ← Reader.u8
  let words ← Reader.u32.times count.toNat
  return { words }

theorem toNat_count {m : BlockMask} (h : m.words.length ≤ maskWords) :
    (UInt8.ofNat (min m.words.length maskWords)).toNat = m.words.length := by
  rw [Nat.min_eq_left h, UInt8.toNat_ofNat']
  simp only [maskWords] at h
  omega

end BlockMask

theorem Reads.mask {m : BlockMask} (h : m.words.length ≤ maskWords) :
    Reads BlockMask.reader m.bytes m := by
  refine (Reads.u8 (UInt8.ofNat (min m.words.length maskWords))).bind ?_
  rw [BlockMask.toNat_count h]
  exact (Reads.times fun w _ => Reads.u32 w).last BlockMask.mk

end ObjectSync
