/-!
# Object types

The kinds of world object, and the set of kinds that an object belongs to: a player is also a unit
and an object. The code of a type is the byte sent when an object appears and the bit of the type
in a `TypeMask`.
-/

namespace ObjectSync

inductive ObjectType where
  /-- The base of every kind. -/
  | object
  | item
  /-- A bag. -/
  | container
  /-- A creature. -/
  | unit
  /-- A player's avatar. -/
  | player
  /-- A fixture of the world, such as a door or a chest. -/
  | gameObject
  /-- An area effect. -/
  | dynamicObject
  | corpse
deriving DecidableEq, Repr, Inhabited

namespace ObjectType

/-- Every type, by ascending code. -/
def all : List ObjectType :=
  [object, item, container, unit, player, gameObject, dynamicObject, corpse]

/-- The byte of the type in messages, and its bit in a mask. -/
def code : ObjectType → Nat
  | object => 0
  | item => 1
  | container => 2
  | unit => 3
  | player => 4
  | gameObject => 5
  | dynamicObject => 6
  | corpse => 7

def ofCode? (n : Nat) : Option ObjectType := all[n]?

@[simp] theorem ofCode?_code (t : ObjectType) : ofCode? t.code = some t := by
  cases t <;> rfl

end ObjectType

/-- A set of object types, one bit each. Bits without a type are kept. -/
structure TypeMask where
  bits : UInt32
deriving DecidableEq, Repr, Inhabited

namespace TypeMask

instance : EmptyCollection TypeMask := ⟨⟨0⟩⟩

def singleton (t : ObjectType) : TypeMask := ⟨1 <<< UInt32.ofNat t.code⟩

instance : Union TypeMask where
  union a b := ⟨a.bits ||| b.bits⟩

instance : Membership ObjectType TypeMask where
  mem mask t := mask.bits &&& (singleton t).bits ≠ 0

instance (mask : TypeMask) (t : ObjectType) : Decidable (t ∈ mask) :=
  inferInstanceAs (Decidable (mask.bits &&& (singleton t).bits ≠ 0))

def ofTypes (types : List ObjectType) : TypeMask :=
  types.foldl (fun mask t => mask ∪ singleton t) ∅

def unit : TypeMask := ofTypes [.object, .unit]

def player : TypeMask := ofTypes [.object, .unit, .player]

end TypeMask

end ObjectSync
