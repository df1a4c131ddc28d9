/-!
# Flag sets

The optional parts of a movement block are announced by sets of flags. A flag set is a bit vector of
the width in which it is sent or kept, a single flag is the set of itself, and bits without a name
are kept like any other.
-/

namespace ObjectSync

/-- A set of flags in `w` bits. -/
structure FlagSet (w : Nat) where
  bits : BitVec w
deriving DecidableEq, Repr, Inhabited

namespace FlagSet

variable {w : Nat}

instance : EmptyCollection (FlagSet w) := ⟨⟨0⟩⟩

instance : Union (FlagSet w) := ⟨fun a b => ⟨a.bits ||| b.bits⟩⟩

instance : Inter (FlagSet w) := ⟨fun a b => ⟨a.bits &&& b.bits⟩⟩

instance : SDiff (FlagSet w) := ⟨fun a b => ⟨a.bits &&& ~~~b.bits⟩⟩

instance : HasSubset (FlagSet w) := ⟨fun a b => b.bits &&& a.bits = a.bits⟩

instance (a b : FlagSet w) : Decidable (a ⊆ b) :=
  inferInstanceAs (Decidable (b.bits &&& a.bits = a.bits))

def meets (a b : FlagSet w) : Bool := a.bits &&& b.bits != 0

def isEmpty (a : FlagSet w) : Bool := a.bits == 0

/-- Adds the flags of `b` or takes them away. -/
def put (a b : FlagSet w) (present : Bool) : FlagSet w := if present then a ∪ b else a \ b

/-- The flags of `b` when they are `present`, and none otherwise. -/
def gate (b : FlagSet w) (present : Bool) : FlagSet w := if present then b else ∅

/-- The union of the sets with the given names, which stand between bars. Unknown names are
empty. -/
def ofNames (named : List (String × FlagSet w)) (text : String) : FlagSet w :=
  (text.splitOn "|").foldl (fun set name => set ∪ (named.lookup name).getD ∅) ∅

@[simp] theorem bits_empty : (∅ : FlagSet w).bits = 0 := rfl

@[simp] theorem bits_union (a b : FlagSet w) : (a ∪ b).bits = a.bits ||| b.bits := rfl

@[simp] theorem bits_inter (a b : FlagSet w) : (a ∩ b).bits = a.bits &&& b.bits := rfl

@[simp] theorem bits_sdiff (a b : FlagSet w) : (a \ b).bits = a.bits &&& ~~~b.bits := rfl

end FlagSet

end ObjectSync
