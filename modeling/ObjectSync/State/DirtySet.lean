import ObjectSync.Declaration.Schema

/-!
# Dirty sets

The sections of a record that changed since they were last sent, one bit for each section in words
of 64. The number of bits set is kept beside the words.

The capacity is the number of sections, and the words are as many as it needs. The bits between the
capacity and the end of the last word can be flagged too; they belong to no section.
-/

namespace ObjectSync

/-- A set of section numbers. -/
structure DirtySet where
  words : List UInt64
  capacity : Nat
  count : Nat
deriving DecidableEq, Repr, Inhabited

namespace DirtySet

/-- The number of bits in a word. -/
def wordBits : Nat := 64

/-- The empty set over `capacity` sections. -/
def blank (capacity : Nat) : DirtySet where
  words := List.replicate ((capacity + wordBits - 1) / wordBits) 0
  capacity
  count := 0

/-- Whether bit `section` of the words is set. -/
def holds (set : DirtySet) (index : Nat) : Bool :=
  ((set.words[index / wordBits]?).getD 0).toNat.testBit (index % wordBits)

def isFlagged (set : DirtySet) (index : Nat) : Bool :=
  index < set.capacity && set.holds index

/-- Flags a section. A number past the words is ignored. -/
def flagSection (set : DirtySet) (index : Nat) : DirtySet :=
  if index / wordBits < set.words.length && !set.holds index then
    { set with
      words := set.words.modify (index / wordBits) (· ||| 1 <<< UInt64.ofNat (index % wordBits))
      count := set.count + 1 }
  else set

/-- Flags the section that holds a field. Padding and numbers past the table are ignored. -/
def flagField (set : DirtySet) (schema : Schema) (field : Nat) : DirtySet :=
  match schema.sectionOf? field with
  | some index => set.flagSection index
  | none => set

/-- Flags the section that holds the named field, and says whether there is one. -/
def flagName (set : DirtySet) (schema : Schema) (name : String) : Logged (Bool × DirtySet) :=
  match schema.sectionNamed? name with
  | some index => pure (true, set.flagSection index)
  | none => { value := (false, set), notices := schema.onMiss.notice?.toList }

/-- The number of the lowest bit that is set in a word that has one. -/
def lowestBit (word : UInt64) : Nat := word.toBitVec.ctz.toNat

/-- The word without its lowest bit. -/
def clearLowest (word : UInt64) : UInt64 := word &&& (word - 1)

theorem toNat_clearLowest {word : UInt64} (h : word ≠ 0) :
    (clearLowest word).toNat = word.toNat &&& (word.toNat - 1) := by
  have hone : 1 ≤ word := by
    rw [UInt64.le_iff_toNat_le]
    exact Nat.pos_of_ne_zero fun hzero => h (UInt64.toNat.inj hzero)
  rw [clearLowest, UInt64.toNat_and, UInt64.toNat_sub_of_le word 1 hone]
  rfl

theorem toNat_clearLowest_lt {word : UInt64} (h : word ≠ 0) :
    (clearLowest word).toNat < word.toNat := by
  have hpos : 0 < word.toNat := Nat.pos_of_ne_zero fun hzero => h (UInt64.toNat.inj hzero)
  rw [toNat_clearLowest h]
  exact Nat.lt_of_le_of_lt Nat.and_le_right (Nat.sub_lt hpos Nat.one_pos)

/-- The numbers of the bits that are set in a word: the lowest is taken out until none is left. -/
def bitsOf (word : UInt64) : List Nat :=
  if word = 0 then [] else lowestBit word :: bitsOf (clearLowest word)
termination_by word.toNat
decreasing_by exact toNat_clearLowest_lt ‹_›

/-- The numbers of the bits that are set in a list of words, when the first bit is number `base`. -/
def indicesFrom (base : Nat) : List UInt64 → List Nat
  | [] => []
  | word :: rest => (bitsOf word).map (base + ·) ++ indicesFrom (base + wordBits) rest

/-- The flagged numbers, ascending. -/
def indices (set : DirtySet) : List Nat := indicesFrom 0 set.words

/-- The flagged sections of a schema, in ascending block order. -/
def sections (set : DirtySet) (schema : Schema) : List Section :=
  set.indices.filterMap (schema.sections[·]?)

def isEmpty (set : DirtySet) : Bool := set.count == 0

def clear (set : DirtySet) : DirtySet :=
  { set with words := set.words.map fun _ => 0, count := 0 }

end DirtySet

end ObjectSync
