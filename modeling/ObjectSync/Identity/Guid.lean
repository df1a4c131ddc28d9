import ObjectSync.Bytes.Basic

/-!
# Object identifiers

A `Guid` is a 64-bit object identifier. Most identifiers are small, so messages carry them packed:
one presence byte, whose bit `i` says that byte `i` of the identifier is not zero, and then only the
bytes that are not zero, least significant first.

```text
0x0000000000120034  ->  [0b00000101] [0x34] [0x12]
```
-/

namespace ObjectSync

/-- A globally unique object identifier. -/
structure Guid where
  raw : UInt64
deriving DecidableEq, Repr, Inhabited

namespace Guid

/-- The identifier of no object. -/
def empty : Guid := ⟨0⟩

def low (g : Guid) : UInt32 := g.raw.toUInt32

def high (g : Guid) : UInt32 := (g.raw >>> 32).toUInt32

def isEmpty (g : Guid) : Bool := g.raw == 0

/-- The eight bytes of the identifier, least significant first. -/
def octets (g : Guid) : Bytes := Bytes.u64 g.raw

/-- The number whose bit `i` is set when byte `i` is not zero. -/
def presence : Bytes → Nat
  | [] => 0
  | b :: rest => (if b = 0 then 0 else 1) + 2 * presence rest

/-- The packed form: the presence byte, then the bytes that are not zero. -/
def packed (g : Guid) : Bytes :=
  UInt8.ofNat (presence g.octets) :: g.octets.filter (· ≠ 0)

@[simp] theorem length_octets (g : Guid) : g.octets.length = 8 := by
  simp [octets, Bytes.u64]

end Guid

end ObjectSync
