import ObjectSync.Blocks.Strip

/-!
# Bits of a strip

A strip is told by its bits: `bitAt` numbers those of a list of words, from the low bit of the first
word upwards. A write adds the low bits of its value at the cursor and changes nothing else
(`Strip.bit_write`), whichever words they fall into, and so bit `i` of a run of equally wide values
is found by division (`Strip.bit_writeAll`).
-/

namespace ObjectSync

/-- Bit `i` of a list of words. There are only zeros behind the last word. -/
def bitAt (words : List UInt32) (i : Nat) : Bool :=
  ((words[i / blockBits]?).getD 0).toNat.testBit (i % blockBits)

theorem bitAt_of_length_le {words : List UInt32} {i : Nat} (h : words.length * blockBits ≤ i) :
    bitAt words i = false := by
  rw [bitAt, List.getElem?_eq_none ((Nat.le_div_iff_mul_le (by decide)).2 h)]
  exact Nat.zero_testBit _

/-- The bits of one word. -/
theorem bitAt_mul_add (words : List UInt32) (n : Nat) {j : Nat} (hj : j < blockBits) :
    bitAt words (n * blockBits + j) = ((words[n]?).getD 0).toNat.testBit j := by
  rw [bitAt, Nat.mul_comm, Nat.mul_add_div (by decide), Nat.div_eq_of_lt hj, Nat.add_zero,
    Nat.mul_add_mod, Nat.mod_eq_of_lt hj]

/-- The words of a list are determined by its bits. -/
theorem eq_of_bitAt {words words' : List UInt32} (hlength : words.length = words'.length)
    (h : ∀ i, bitAt words i = bitAt words' i) : words = words' := by
  refine List.ext_getElem hlength fun n hn hn' => UInt32.toNat.inj (Nat.eq_of_testBit_eq fun j => ?_)
  rcases Nat.lt_or_ge j blockBits with hj | hj
  · have hbit := h (n * blockBits + j)
    rwa [bitAt_mul_add _ _ hj, bitAt_mul_add _ _ hj, List.getElem?_eq_getElem hn,
      List.getElem?_eq_getElem hn'] at hbit
  · have hzero (w : UInt32) : w.toNat.testBit j = false :=
      Nat.testBit_lt_two_pow (Nat.lt_of_lt_of_le w.toNat_lt (Nat.pow_le_pow_right (by decide) hj))
    rw [hzero, hzero]

namespace Strip

/-- Bit `i` of the strip. -/
def bit (s : Strip) (i : Nat) : Bool := bitAt s.words.toList i

theorem bit_blank (count i : Nat) : (blank count).bit i = false := by
  rw [bit, bitAt, blank, Array.toList_replicate, List.getElem?_replicate]
  split <;> exact Nat.zero_testBit _

/-! ## A single write -/

theorem testBit_lowBits {value : UInt64} {width : Nat} (h : width ≤ 64) (j : Nat) :
    (lowBits value width).testBit j = (decide (j < width) && value.toNat.testBit j) := by
  rw [lowBits]
  split
  · next hwidth =>
    subst hwidth
    by_cases hj : j < 64
    · rw [decide_eq_true hj, Bool.true_and]
    · rw [decide_eq_false hj, Bool.false_and]
      exact Nat.testBit_lt_two_pow
        (Nat.lt_of_lt_of_le value.toNat_lt (Nat.pow_le_pow_right (by decide) (by omega)))
  · next hwidth =>
    rw [Nat.mod_eq_of_lt (show width < 64 by omega), Nat.one_shiftLeft, Nat.testBit_mod_two_pow]

/-- A block gets those bits of the value that fall into it. -/
theorem testBit_chunk (value cursor width word : Nat) {j : Nat} (hj : j < blockBits) :
    (chunk value cursor width word).toNat.testBit j =
      (decide (cursor ≤ word * blockBits + j) && decide (word * blockBits + j < cursor + width)
        && value.testBit (word * blockBits + j - cursor)) := by
  rw [chunk, UInt32.toNat_ofNat', Nat.testBit_mod_two_pow, Nat.testBit_shiftLeft,
    Nat.one_shiftLeft, Nat.testBit_mod_two_pow, Nat.testBit_shiftRight, Bool.eq_iff_iff]
  simp only [Bool.and_eq_true, decide_eq_true_eq]
  generalize word * blockBits = start at *
  -- the bits of the value in front of the block are shifted out before the others are shifted in
  have hindex (hfirst : max cursor start - start ≤ j) :
      max cursor start - cursor + (j - (max cursor start - start)) = start + j - cursor := by
    omega
  constructor
  · rintro ⟨_, hfirst, hlast, hbit⟩
    rw [ge_iff_le] at hfirst
    rw [hindex hfirst] at hbit
    exact ⟨⟨by omega, by omega⟩, hbit⟩
  · rintro ⟨⟨hcursor, hend⟩, hbit⟩
    have hfirst : max cursor start - start ≤ j := by omega
    rw [hindex hfirst]
    exact ⟨hj, hfirst, by omega, hbit⟩

theorem chunk_of_not_mem {value cursor width word : Nat} (h : word ∉ wordsUnder cursor width) :
    chunk value cursor width word = 0 := by
  refine UInt32.toNat.inj (Nat.eq_of_testBit_eq fun j => ?_)
  rw [UInt32.toNat_zero, Nat.zero_testBit]
  rcases Nat.lt_or_ge j blockBits with hj | hj
  · rw [testBit_chunk _ _ _ _ hj, Bool.and_eq_false_iff, Bool.and_eq_false_iff]
    refine .inl ?_
    rw [decide_eq_false_iff_not, decide_eq_false_iff_not]
    by_cases hwidth : width = 0
    · omega
    · rw [wordsUnder, if_neg hwidth, List.mem_range'_1] at h
      simp only [blockBits] at *
      omega
  · exact Nat.testBit_lt_two_pow
      (Nat.lt_of_lt_of_le (UInt32.toNat_lt _) (Nat.pow_le_pow_right (by decide) hj))

/-- Words that are changed one after the other, each of them once. -/
theorem getElem?_foldl_modify (f : Nat → UInt32 → UInt32) {under : List Nat} (hnodup : under.Nodup)
    (words : Array UInt32) (word : Nat) :
    (under.foldl (fun words word => words.modify word (f word)) words)[word]? =
      if word ∈ under then words[word]?.map (f word) else words[word]? := by
  induction under generalizing words with
  | nil => rfl
  | cons first rest ih =>
    obtain ⟨hfirst, hrest⟩ := List.nodup_cons.1 hnodup
    rw [List.foldl_cons, ih hrest, Array.getElem?_modify]
    by_cases hword : first = word
    · subst hword
      rw [if_neg hfirst, if_pos rfl, if_pos List.mem_cons_self]
    · rw [if_neg hword]
      simp only [List.mem_cons, Ne.symm hword, false_or]

theorem nodup_wordsUnder (cursor width : Nat) : (wordsUnder cursor width).Nodup := by
  rw [wordsUnder]
  split
  · exact List.nodup_nil
  · exact List.nodup_range'

/-- A write adds to every word its part of the value, which is zero for most of them. -/
theorem getElem?_words_write (s : Strip) (value : UInt64) (width word : Nat) :
    (s.write value width).words[word]? =
      s.words[word]?.map (· ||| chunk (lowBits value width) s.cursor width word) := by
  rw [write]
  refine (getElem?_foldl_modify (fun word => (· ||| chunk (lowBits value width) s.cursor width word))
    (nodup_wordsUnder s.cursor width) s.words word).trans ?_
  split
  · rfl
  · next hword =>
    simp only [chunk_of_not_mem hword, UInt32.or_zero, Option.map_id']

/-- A write adds the low bits of the value at the cursor. -/
theorem bit_write (s : Strip) (value : UInt64) {width : Nat} (h : width ≤ 64) (i : Nat) :
    (s.write value width).bit i =
      (s.bit i || (decide (i < s.words.size * blockBits) && decide (s.cursor ≤ i)
        && decide (i < s.cursor + width) && value.toNat.testBit (i - s.cursor))) := by
  have hword : i / blockBits < s.words.size ↔ i < s.words.size * blockBits :=
    Nat.div_lt_iff_lt_mul (by decide)
  have hi : i / blockBits * blockBits + i % blockBits = i := Nat.div_add_mod' i blockBits
  rw [bit, bit, bitAt, bitAt, Array.getElem?_toList, Array.getElem?_toList, getElem?_words_write]
  by_cases hsize : i / blockBits < s.words.size
  · rw [Array.getElem?_eq_getElem hsize, Option.map_some, Option.getD_some, Option.getD_some,
      UInt32.toNat_or, Nat.testBit_or, testBit_chunk _ _ _ _ (Nat.mod_lt _ (by decide)), hi,
      testBit_lowBits h, decide_eq_true (hword.1 hsize), Bool.true_and]
    congr 1
    rw [Bool.eq_iff_iff]
    simp only [Bool.and_eq_true, decide_eq_true_eq]
    constructor
    · rintro ⟨hrange, _, hbit⟩
      exact ⟨hrange, hbit⟩
    · rintro ⟨hrange, hbit⟩
      exact ⟨hrange, by omega, hbit⟩
  · rw [Array.getElem?_eq_none (by omega), decide_eq_false (mt hword.2 hsize), Option.map_none,
      Bool.false_and, Bool.false_and, Bool.false_and, Bool.or_false]

/-! ## Several values -/

@[simp] theorem size_words_writeAll (s : Strip) (values : List UInt64) (width : Nat) :
    (s.writeAll values width).words.size = s.words.size := by
  induction values generalizing s with
  | nil => rfl
  | cons value rest ih => rw [writeAll, List.foldl_cons, ← writeAll, ih, size_words_write]

/-- Bit `i` of several values, each `width` bits wide and one behind the other. -/
def bitOf (values : List UInt64) (width i : Nat) : Bool :=
  ((values[i / width]?).getD 0).toNat.testBit (i % width)

theorem bit_writeAll (s : Strip) (values : List UInt64) {width : Nat} (hpos : 0 < width)
    (h : width ≤ 64) (i : Nat) :
    (s.writeAll values width).bit i =
      (s.bit i || (decide (i < s.words.size * blockBits) && decide (s.cursor ≤ i)
        && bitOf values width (i - s.cursor))) := by
  induction values generalizing s with
  | nil =>
    rw [bitOf, List.getElem?_nil, Option.getD_none, UInt64.toNat_zero, Nat.zero_testBit,
      Bool.and_false, Bool.or_false]
    rfl
  | cons value rest ih =>
    -- the first value has the first `width` bits, and for the others the quotient goes down by one
    have hbit : (decide (s.cursor ≤ i) && (decide (i < s.cursor + width)
          && value.toNat.testBit (i - s.cursor))
        || decide (s.cursor + width ≤ i) && bitOf rest width (i - (s.cursor + width))) =
        (decide (s.cursor ≤ i) && bitOf (value :: rest) width (i - s.cursor)) := by
      by_cases hfirst : i < s.cursor + width
      · rw [decide_eq_false (show ¬s.cursor + width ≤ i by omega), Bool.false_and, Bool.or_false,
          decide_eq_true hfirst, Bool.true_and]
        by_cases hi : s.cursor ≤ i
        · rw [bitOf, Nat.div_eq_of_lt (show i - s.cursor < width by omega),
            Nat.mod_eq_of_lt (show i - s.cursor < width by omega)]
          rfl
        · rw [decide_eq_false hi, Bool.false_and, Bool.false_and]
      · have hrest : i - s.cursor = i - (s.cursor + width) + width := by omega
        rw [decide_eq_false hfirst, Bool.false_and, Bool.and_false, Bool.false_or,
          decide_eq_true (show s.cursor + width ≤ i by omega),
          decide_eq_true (show s.cursor ≤ i by omega), Bool.true_and, Bool.true_and, bitOf, bitOf,
          hrest, Nat.add_div_right _ hpos, Nat.add_mod_right, List.getElem?_cons_succ]
    rw [writeAll, List.foldl_cons, ← writeAll, ih, bit_write s value h, size_words_write,
      cursor_write]
    simp only [Bool.or_assoc, Bool.and_assoc, ← Bool.and_or_distrib_left]
    rw [hbit]

end Strip

end ObjectSync
