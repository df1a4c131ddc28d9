import Mathlib.Data.Nat.Digits.Defs
import ObjectSync.Proofs.Blocks.Strip

/-!
# A strip as one number

The blocks of a strip are the digits of one number, the first block the lowest (`Strip.number`), and
a write adds the low bits of its value to this number, as far up as the cursor is
(`Strip.number_write`).

`Strip.write` lays down the pieces of a value as numbers without a limit. Here stands a write beside
it that goes from block to block and has only words of 64 and 32 bits (`Pour`). Each of its steps is
checked: it gives up if the block is not there, if a word would be shifted by as much as it is wide,
or if a bit falls out of a word. **`Strip.write?_eq_some`** says that it never gives up below the end
of the strip, and that it does what `Strip.write` does.
-/

namespace ObjectSync

/-! ## Words and their number -/

/-- The number with the given words for digits, the first word being the lowest. -/
def numberOf (words : List UInt32) : Nat :=
  Nat.ofDigits (2 ^ blockBits) (words.map UInt32.toNat)

theorem numberOf_cons (word : UInt32) (words : List UInt32) :
    numberOf (word :: words) = 2 ^ blockBits * numberOf words + word.toNat := by
  rw [numberOf, List.map_cons, Nat.ofDigits_cons, Nat.add_comm]
  rfl

theorem toNat_lt_two_pow (word : UInt32) : word.toNat < 2 ^ blockBits := word.toNat_lt

/-- The bits of the number are those of the words, one word behind the other. -/
theorem testBit_numberOf (words : List UInt32) (i : Nat) :
    (numberOf words).testBit i = bitAt words i := by
  induction words generalizing i with
  | nil => simp [numberOf, bitAt]
  | cons word rest ih =>
    rw [numberOf_cons, Nat.testBit_two_pow_mul_add _ (toNat_lt_two_pow word)]
    split
    · next hi =>
      rw [bitAt, Nat.div_eq_of_lt hi, Nat.mod_eq_of_lt hi]
      rfl
    · next hi =>
      have hback : i = i - blockBits + blockBits := by omega
      have hdiv : i / blockBits = (i - blockBits) / blockBits + 1 := by
        conv_lhs => rw [hback, Nat.add_div_right _ (by decide)]
      have hmod : i % blockBits = (i - blockBits) % blockBits := by
        conv_lhs => rw [hback, Nat.add_mod_right]
      rw [ih, bitAt, bitAt, hdiv, hmod, List.getElem?_cons_succ]

/-- Words are told by their number, if it is known how many they are. -/
theorem eq_of_numberOf {words words' : List UInt32} (hlength : words.length = words'.length)
    (h : numberOf words = numberOf words') : words = words' :=
  eq_of_bitAt hlength fun i => by rw [← testBit_numberOf, ← testBit_numberOf, h]

/-- A word is found at its place in the number. -/
theorem testBit_word (word : UInt32) (n i : Nat) :
    (word.toNat * 2 ^ (n * blockBits)).testBit i =
      (decide (n = i / blockBits) && word.toNat.testBit (i % blockBits)) := by
  rw [Nat.testBit_mul_two_pow, Bool.eq_iff_iff, Bool.and_eq_true, Bool.and_eq_true,
    decide_eq_true_eq, decide_eq_true_eq]
  have hi := Nat.div_add_mod' i blockBits
  constructor
  · rintro ⟨hle, hbit⟩
    -- a word has no bits behind those of a block
    have hlt : i - n * blockBits < blockBits := by
      refine Nat.lt_of_not_le fun hge => ?_
      rw [Nat.testBit_lt_two_pow (Nat.lt_of_lt_of_le (toNat_lt_two_pow word)
        (Nat.pow_le_pow_right (by decide) hge))] at hbit
      cases hbit
    have hdiv : n = i / blockBits := by
      simp only [blockBits] at *
      omega
    subst hdiv
    rw [show i % blockBits = i - i / blockBits * blockBits by omega]
    exact ⟨rfl, hbit⟩
  · rintro ⟨rfl, hbit⟩
    rw [show i - i / blockBits * blockBits = i % blockBits by omega]
    exact ⟨by omega, hbit⟩

/-- To add bits to one word is to add them to the number, as far up as the word is. -/
theorem numberOf_modify {words : List UInt32} {n : Nat} (hn : n < words.length) (bits : UInt32) :
    numberOf (words.modify n (· ||| bits)) =
      numberOf words ||| bits.toNat * 2 ^ (n * blockBits) := by
  refine Nat.eq_of_testBit_eq fun i => ?_
  rw [Nat.testBit_or, testBit_numberOf, testBit_numberOf, testBit_word, bitAt, bitAt,
    List.getElem?_modify]
  by_cases hword : n = i / blockBits
  · simp [← hword, hn]
  · simp [hword]

/-! ## Block by block -/

/-- The low bits of a word, cut out by a mask of ones. -/
def lowOnes (value : UInt64) (width : Nat) : UInt64 := value &&& ((1 <<< UInt64.ofNat width) - 1)

theorem toNat_lowOnes {width : Nat} (h : width < 64) (value : UInt64) :
    (lowOnes value width).toNat = value.toNat % 2 ^ width := by
  have hpow : 2 ^ width < 2 ^ 64 := Nat.pow_lt_pow_right (by decide) h
  have hshift : ((1 : UInt64) <<< UInt64.ofNat width).toNat = 2 ^ width := by
    rw [UInt64.toNat_shiftLeft, UInt64.toNat_ofNat', UInt64.toNat_one, Nat.one_shiftLeft,
      Nat.mod_eq_of_lt (show width < 2 ^ 64 by omega), Nat.mod_eq_of_lt h, Nat.mod_eq_of_lt hpow]
  have hones : ((1 : UInt64) <<< UInt64.ofNat width - 1).toNat = 2 ^ width - 1 := by
    rw [UInt64.toNat_sub_of_le, hshift, UInt64.toNat_one]
    rw [UInt64.le_iff_toNat_le, hshift, UInt64.toNat_one]
    exact Nat.one_le_two_pow
  rw [lowOnes, UInt64.toNat_and, hones, Nat.and_two_pow_sub_one_eq_mod]

/-- A value that is being written: the words so far, where its next bit goes, the bits that are left
of it, and how many they are. -/
structure Pour where
  words : Array UInt32
  cursor : Nat
  value : UInt64
  left : Nat

namespace Pour

/-- The block under the cursor. -/
def block (p : Pour) : Nat := p.cursor / blockBits

/-- The bits of the block that are in front of the cursor. -/
def shift (p : Pour) : Nat := p.cursor % blockBits

/-- The number of bits that the block takes. -/
def taken (p : Pour) : Nat := min p.left (blockBits - p.shift)

/-- The bits that the block takes, as one of its words. -/
def piece (p : Pour) : UInt32 := (lowOnes p.value p.taken).toUInt32

/-- The block is there, words are shifted by less than they have bits, and no bit that the block
takes is lost, neither as the word is made smaller nor as it is shifted to its place. -/
structure Safe (p : Pour) : Prop where
  block_lt : p.block < p.words.size
  taken_lt : p.taken < 64
  shift_lt : p.shift < 32
  toNat_piece : p.piece.toNat = (lowOnes p.value p.taken).toNat
  toNat_shiftLeft : (p.piece <<< UInt32.ofNat p.shift).toNat = p.piece.toNat * 2 ^ p.shift

instance (p : Pour) : Decidable p.Safe :=
  decidable_of_iff (p.block < p.words.size ∧ p.taken < 64 ∧ p.shift < 32 ∧
      p.piece.toNat = (lowOnes p.value p.taken).toNat ∧
      (p.piece <<< UInt32.ofNat p.shift).toNat = p.piece.toNat * 2 ^ p.shift)
    ⟨fun ⟨h₁, h₂, h₃, h₄, h₅⟩ => ⟨h₁, h₂, h₃, h₄, h₅⟩,
      fun ⟨h₁, h₂, h₃, h₄, h₅⟩ => ⟨h₁, h₂, h₃, h₄, h₅⟩⟩

/-- Fills up the block under the cursor, and goes on to the next. -/
def next (p : Pour) : Pour where
  words := p.words.modify p.block (· ||| p.piece <<< UInt32.ofNat p.shift)
  cursor := p.cursor + p.taken
  value := p.value >>> UInt64.ofNat p.taken
  left := p.left - p.taken

theorem taken_pos {p : Pour} (h : p.left ≠ 0) : 0 < p.taken := by
  have hshift : p.shift < blockBits := Nat.mod_lt _ (by decide)
  rw [taken]
  omega

/-- Writes what is left, block by block. Gives up where a step is not safe. -/
def run? (p : Pour) : Option Pour :=
  if p.left = 0 then some p
  else if p.Safe then p.next.run?
  else none
termination_by p.left
decreasing_by
  have hpos := taken_pos (p := p) (by assumption)
  show p.left - p.taken < p.left
  omega

/-- There are blocks for all bits that are left. -/
structure Fits (p : Pour) : Prop where
  value_lt : p.value.toNat < 2 ^ p.left
  stop_le : p.cursor + p.left ≤ p.words.size * blockBits

/-- The number that the words are to become. -/
def goal (p : Pour) : Nat := numberOf p.words.toList ||| p.value.toNat * 2 ^ p.cursor

variable {p : Pour}

theorem taken_le (p : Pour) : p.taken ≤ p.left ∧ p.taken ≤ blockBits - p.shift :=
  ⟨Nat.min_le_left _ _, Nat.min_le_right _ _⟩

theorem toNat_lowOnes_taken (p : Pour) :
    (lowOnes p.value p.taken).toNat = p.value.toNat % 2 ^ p.taken := by
  have hle := p.taken_le.2
  refine toNat_lowOnes ?_ _
  simp only [blockBits] at hle
  omega

theorem toNat_lowOnes_lt (p : Pour) : (lowOnes p.value p.taken).toNat < 2 ^ p.taken := by
  rw [toNat_lowOnes_taken]
  exact Nat.mod_lt _ (Nat.two_pow_pos _)

theorem taken_add_shift_le (p : Pour) : p.taken + p.shift ≤ 32 := by
  have hle := p.taken_le.2
  have hshift : p.shift < blockBits := Nat.mod_lt _ (by decide)
  simp only [blockBits] at hle hshift
  omega

theorem toNat_piece (p : Pour) : p.piece.toNat = (lowOnes p.value p.taken).toNat := by
  have hle := p.taken_add_shift_le
  rw [piece, UInt64.toNat_toUInt32]
  exact Nat.mod_eq_of_lt (Nat.lt_of_lt_of_le p.toNat_lowOnes_lt
    (Nat.pow_le_pow_right (by decide) (by omega)))

/-- Nothing is lost in a word that is shifted up to where the cursor is. -/
theorem toNat_shiftLeft_piece (p : Pour) :
    (p.piece <<< UInt32.ofNat p.shift).toNat = p.piece.toNat * 2 ^ p.shift := by
  have hle := p.taken_add_shift_le
  have hshift : p.shift < 32 := Nat.mod_lt _ (by decide)
  have hroom : p.piece.toNat * 2 ^ p.shift < 2 ^ 32 :=
    calc p.piece.toNat * 2 ^ p.shift
      _ < 2 ^ p.taken * 2 ^ p.shift :=
          Nat.mul_lt_mul_of_pos_right (p.toNat_piece ▸ p.toNat_lowOnes_lt) (Nat.two_pow_pos _)
      _ = 2 ^ (p.taken + p.shift) := (Nat.pow_add ..).symm
      _ ≤ 2 ^ 32 := Nat.pow_le_pow_right (by decide) hle
  rw [UInt32.toNat_shiftLeft, UInt32.toNat_ofNat', Nat.mod_eq_of_lt (show p.shift < 2 ^ 32 by omega),
    Nat.mod_eq_of_lt hshift, Nat.shiftLeft_eq, Nat.mod_eq_of_lt hroom]

theorem Fits.safe (h : p.Fits) (hleft : p.left ≠ 0) : p.Safe where
  block_lt := (Nat.div_lt_iff_lt_mul (by decide)).2 (by have := h.stop_le; omega)
  taken_lt := by have := p.taken_add_shift_le; omega
  shift_lt := Nat.mod_lt _ (by decide)
  toNat_piece := p.toNat_piece
  toNat_shiftLeft := p.toNat_shiftLeft_piece

theorem toNat_value_next (p : Pour) : p.next.value.toNat = p.value.toNat / 2 ^ p.taken := by
  have hle := p.taken_add_shift_le
  rw [next, UInt64.toNat_shiftRight, UInt64.toNat_ofNat',
    Nat.mod_eq_of_lt (show p.taken < 2 ^ 64 by omega), Nat.mod_eq_of_lt (show p.taken < 64 by omega),
    Nat.shiftRight_eq_div_pow]

theorem Fits.next (h : p.Fits) : p.next.Fits where
  value_lt := by
    rw [toNat_value_next]
    refine Nat.div_lt_of_lt_mul ?_
    rw [show p.next.left = p.left - p.taken from rfl, ← Nat.pow_add,
      Nat.add_sub_of_le p.taken_le.1]
    exact h.value_lt
  stop_le := by
    have hle := p.taken_le.1
    have hstop := h.stop_le
    show p.cursor + p.taken + (p.left - p.taken) ≤ (Array.modify ..).size * blockBits
    rw [Array.size_modify]
    omega

/-- A number is put together again from its low part and from what is behind it. -/
theorem low_or_high (n width start : Nat) :
    n % 2 ^ width * 2 ^ start ||| n / 2 ^ width * 2 ^ (start + width) = n * 2 ^ start := by
  refine Nat.eq_of_testBit_eq fun i => ?_
  rw [Nat.testBit_or, Nat.testBit_mul_two_pow, Nat.testBit_mul_two_pow, Nat.testBit_mul_two_pow,
    Nat.testBit_mod_two_pow, Nat.testBit_div_two_pow, Bool.eq_iff_iff]
  simp only [Bool.or_eq_true, Bool.and_eq_true, decide_eq_true_eq]
  constructor
  · rintro (⟨hle, _, hbit⟩ | ⟨hle, hbit⟩)
    · exact ⟨hle, hbit⟩
    · rw [show i - (start + width) + width = i - start by omega] at hbit
      exact ⟨by omega, hbit⟩
  · rintro ⟨hle, hbit⟩
    by_cases hlow : i - start < width
    · exact .inl ⟨hle, hlow, hbit⟩
    · refine .inr ⟨by omega, ?_⟩
      rwa [show i - (start + width) + width = i - start by omega]

/-- A block takes a part of the value to where it has to be in the number. -/
theorem Fits.goal_next (h : p.Fits) (hleft : p.left ≠ 0) : p.next.goal = p.goal := by
  have hblock : p.block < p.words.toList.length := (h.safe hleft).block_lt
  have hcursor : p.shift + p.block * blockBits = p.cursor := Nat.mod_add_div' p.cursor blockBits
  rw [goal, goal, toNat_value_next]
  show numberOf (p.words.modify p.block (· ||| p.piece <<< UInt32.ofNat p.shift)).toList |||
      p.value.toNat / 2 ^ p.taken * 2 ^ (p.cursor + p.taken) = _
  rw [Array.toList_modify, numberOf_modify hblock, toNat_shiftLeft_piece, toNat_piece,
    toNat_lowOnes_taken, Nat.mul_assoc, ← Nat.pow_add, hcursor, Nat.or_assoc, low_or_high]

/-- Where there are blocks for all bits, all of them are written. -/
theorem Fits.run?_eq (h : p.Fits) : ∃ q, p.run? = some q ∧ q.words.size = p.words.size ∧
    numberOf q.words.toList = p.goal ∧ q.cursor = p.cursor + p.left := by
  fun_induction run? p with
  | case1 p hleft =>
    have hvalue : p.value.toNat = 0 := by
      have hlt := h.value_lt
      rw [hleft, Nat.pow_zero] at hlt
      omega
    refine ⟨p, rfl, rfl, ?_, by rw [hleft, Nat.add_zero]⟩
    rw [goal, hvalue, Nat.zero_mul, Nat.or_zero]
  | case2 p hleft _ ih =>
    obtain ⟨q, hrun, hsize, hnumber, hcursor⟩ := ih h.next
    refine ⟨q, hrun, hsize.trans Array.size_modify, hnumber.trans (h.goal_next hleft), ?_⟩
    have hle := p.taken_le.1
    rw [hcursor]
    show p.cursor + p.taken + (p.left - p.taken) = _
    omega
  | case3 p hleft hsafe => exact absurd (h.safe hleft) hsafe

end Pour

/-! ## A write -/

namespace Strip

/-- The blocks as one number, the first block lowest. -/
def number (s : Strip) : Nat := numberOf s.words.toList

theorem testBit_number (s : Strip) (i : Nat) : s.number.testBit i = s.bit i := testBit_numberOf _ i

/-- Writes the low bits of a value block by block, and gives up where that is not safe. -/
def write? (s : Strip) (value : UInt64) (width : Nat) : Option Strip :=
  let low := if width = 64 then value else lowOnes value width
  let start : Pour := { words := s.words, cursor := s.cursor, value := low, left := width }
  start.run?.map fun stop => { words := stop.words, cursor := stop.cursor }

variable {s : Strip} {width : Nat}

/-- A write adds its value to the number. -/
theorem number_write (hwidth : width ≤ 64) (hstop : s.cursor + width ≤ s.words.size * blockBits)
    (value : UInt64) : (s.write value width).number =
      s.number ||| value.toNat % 2 ^ width * 2 ^ s.cursor := by
  refine Nat.eq_of_testBit_eq fun i => ?_
  rw [testBit_number, bit_write s value hwidth, Nat.testBit_or, testBit_number,
    Nat.testBit_mul_two_pow, Nat.testBit_mod_two_pow]
  congr 1
  rw [Bool.eq_iff_iff]
  simp only [Bool.and_eq_true, decide_eq_true_eq]
  constructor
  · rintro ⟨⟨⟨_, hle⟩, hlt⟩, hbit⟩
    exact ⟨hle, by omega, hbit⟩
  · rintro ⟨hle, hlt, hbit⟩
    exact ⟨⟨⟨by omega, hle⟩, by omega⟩, hbit⟩

/-- Below the end of the strip, a write that is done block by block loses nothing. -/
theorem write?_eq_some (hwidth : width ≤ 64) (hstop : s.cursor + width ≤ s.words.size * blockBits)
    (value : UInt64) : s.write? value width = some (s.write value width) := by
  let low := if width = 64 then value else lowOnes value width
  have hlow : low.toNat = value.toNat % 2 ^ width := by
    by_cases h : width = 64
    · rw [show low = value from if_pos h, h, Nat.mod_eq_of_lt value.toNat_lt]
    · rw [show low = lowOnes value width from if_neg h, toNat_lowOnes (by omega)]
  let start : Pour := { words := s.words, cursor := s.cursor, value := low, left := width }
  have hfits : start.Fits := ⟨hlow ▸ Nat.mod_lt _ (Nat.two_pow_pos _), hstop⟩
  obtain ⟨stop, hrun, hsize, hnumber, hcursor⟩ := hfits.run?_eq
  -- the words are told by the number, and for that it is known
  have hwords : stop.words = (s.write value width).words := by
    refine Array.toList_inj.1 (eq_of_numberOf ?_ ?_)
    · rw [Array.length_toList, Array.length_toList, hsize, size_words_write]
    · rw [hnumber, ← number, number_write hwidth hstop, Pour.goal, hlow]
      rfl
  show start.run?.map _ = _
  rw [hrun, Option.map_some, hwords, hcursor]
  rfl

end Strip

end ObjectSync
