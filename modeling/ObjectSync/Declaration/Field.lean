import ObjectSync.Blocks.Size

/-!
# Declared fields

The state of an entity type is declared as a table of fields. The table is read from the top, each
field taking the bits behind those of the field before it, and what stands behind the first end
marker is not read.
-/

namespace ObjectSync

/-- The element type of a field. -/
inductive FieldKind where
  | bool
  | u8
  | i8
  | u16
  | i16
  | u32
  | i32
  | f32
  | u64
  | i64
  /-- Ends the table. -/
  | stop
deriving DecidableEq, Repr, Inhabited

/-- The bits that one element takes. -/
def FieldKind.bits : FieldKind → Nat
  | bool => 1
  | u8 | i8 => 8
  | u16 | i16 => 16
  | u32 | i32 | f32 => 32
  | u64 | i64 => 64
  | stop => 0

namespace FieldKind

/-- The kinds by the names that tables of fields give them. -/
def named : List (String × FieldKind) :=
  [("Bool", bool), ("U8", u8), ("I8", i8), ("U16", u16), ("I16", i16), ("U32", u32), ("I32", i32),
   ("F32", f32), ("U64", u64), ("I64", i64), ("End", stop)]

def label (kind : FieldKind) : String :=
  ((named.find? fun entry => entry.2 == kind).map Prod.fst).getD ""

def ofLabel? (label : String) : Option FieldKind := named.lookup label

@[simp] theorem ofLabel?_label (kind : FieldKind) : ofLabel? kind.label = some kind := by
  cases kind <;> decide

end FieldKind

/-- A declared field: a scalar, or an array of a fixed length. -/
structure Field where
  name : String
  kind : FieldKind
  length : Size := 1
deriving DecidableEq, Repr, Inhabited

namespace Field

/-- The name of padding, which takes room and is never sent. -/
def paddingName : String := "_"

/-- A field of one element. -/
def scalar (name : String) (kind : FieldKind) : Field := { name, kind }

/-- A field of `length` elements. -/
def array (name : String) (kind : FieldKind) (length : Size) : Field := { name, kind, length }

/-- Padding that takes the room of `length` elements. -/
def padding (kind : FieldKind) (length : Size) : Field := { name := paddingName, kind, length }

def stop : Field := { name := "END", kind := .stop, length := 0 }

/-- The bits that the field takes. -/
def bits (f : Field) : Size := .ofNat f.kind.bits * f.length

def isPadding (f : Field) : Bool := f.name == paddingName

/-- Whether the field ends its table, whatever its name. -/
def isStop (f : Field) : Bool := f.kind == .stop

end Field

end ObjectSync
