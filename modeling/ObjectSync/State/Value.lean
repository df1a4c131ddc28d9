import ObjectSync.Geometry
import ObjectSync.Identity.Guid
import ObjectSync.Identity.ObjectType

/-!
# Values

What a caller puts into a field and reads back. A record keeps a value as its bits, extended to 64
with zeros, and a reader takes from them the bits of the type that it asks for: `read_bits` says
that it gets back what was put in when the two types agree.
-/

namespace ObjectSync

/-- The types of value that a field may be given. -/
inductive ValueType where
  | bool
  | u8
  | i8
  | u16
  | i16
  | u32
  | i32
  | u64
  | i64
  | f32
  | guid
  | typeMask
deriving DecidableEq, Repr, Inhabited

namespace ValueType

def named : List (String × ValueType) :=
  [("bool", bool), ("u8", u8), ("i8", i8), ("u16", u16), ("i16", i16), ("u32", u32), ("i32", i32),
   ("u64", u64), ("i64", i64), ("f32", f32), ("guid", guid), ("typemask", typeMask)]

def ofLabel? (label : String) : Option ValueType := named.lookup label

end ValueType

/-- A value for a field. -/
inductive Value where
  | bool (v : Bool)
  | u8 (v : UInt8)
  | i8 (v : Int8)
  | u16 (v : UInt16)
  | i16 (v : Int16)
  | u32 (v : UInt32)
  | i32 (v : Int32)
  | u64 (v : UInt64)
  | i64 (v : Int64)
  | f32 (v : Single)
  | guid (v : Guid)
  | typeMask (v : TypeMask)
deriving DecidableEq

namespace Value

/-- The value of a type that an integer or a truth value stands for. Bits past the type are cut
off. -/
def ofInt (n : Int) : ValueType → Value
  | .bool => .bool (n != 0)
  | .u8 => .u8 (UInt8.ofInt n)
  | .i8 => .i8 (Int8.ofInt n)
  | .u16 => .u16 (UInt16.ofInt n)
  | .i16 => .i16 (Int16.ofInt n)
  | .u32 => .u32 (UInt32.ofInt n)
  | .i32 => .i32 (Int32.ofInt n)
  | .u64 => .u64 (UInt64.ofInt n)
  | .i64 => .i64 (Int64.ofInt n)
  | .f32 => .f32 (UInt32.ofInt n)
  | .guid => .guid ⟨UInt64.ofInt n⟩
  | .typeMask => .typeMask ⟨UInt32.ofInt n⟩

/-- The integer that a value stands for. -/
def toInt : Value → Int
  | bool v => v.toInt
  | u8 v => v.toNat
  | i8 v => v.toInt
  | u16 v => v.toNat
  | i16 v => v.toInt
  | u32 v => v.toNat
  | i32 v => v.toInt
  | u64 v => v.toNat
  | i64 v => v.toInt
  | f32 v => v.toNat
  | guid v => v.raw.toNat
  | typeMask v => v.bits.toNat

def type : Value → ValueType
  | bool _ => .bool
  | u8 _ => .u8
  | i8 _ => .i8
  | u16 _ => .u16
  | i16 _ => .i16
  | u32 _ => .u32
  | i32 _ => .i32
  | u64 _ => .u64
  | i64 _ => .i64
  | f32 _ => .f32
  | guid _ => .guid
  | typeMask _ => .typeMask

/-- The bits of a value, extended with zeros. -/
def bits : Value → UInt64
  | bool v => if v then 1 else 0
  | u8 v => v.toUInt64
  | i8 v => v.toUInt8.toUInt64
  | u16 v => v.toUInt64
  | i16 v => v.toUInt16.toUInt64
  | u32 v => v.toUInt64
  | i32 v => v.toUInt32.toUInt64
  | u64 v => v
  | i64 v => v.toUInt64
  | f32 v => v.toUInt64
  | guid v => v.raw
  | typeMask v => v.bits.toUInt64

end Value

/-- The value of a type that the low bits of a word hold. -/
def ValueType.read (bits : UInt64) : ValueType → Value
  | bool => .bool (bits &&& 1 == 1)
  | u8 => .u8 bits.toUInt8
  | i8 => .i8 bits.toUInt8.toInt8
  | u16 => .u16 bits.toUInt16
  | i16 => .i16 bits.toUInt16.toInt16
  | u32 => .u32 bits.toUInt32
  | i32 => .i32 bits.toUInt32.toInt32
  | u64 => .u64 bits
  | i64 => .i64 bits.toInt64
  | f32 => .f32 bits.toUInt32
  | guid => .guid ⟨bits⟩
  | typeMask => .typeMask ⟨bits.toUInt32⟩

@[simp] theorem ValueType.read_bits (value : Value) : value.type.read value.bits = value := by
  cases value with
  | bool v => cases v <;> rfl
  | _ => simp [Value.type, Value.bits, ValueType.read]

end ObjectSync
