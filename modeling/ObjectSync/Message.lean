import ObjectSync.Identity.ObjectType
import ObjectSync.Motion.Movement

/-!
# Update messages

A message tells a client what happened to the objects around it, as a counted list of updates.

```text
batch:           [count u32][update]...
values changed:  [0][guid][values]
moved:           [1][guid][movement]
appeared:        [2 or 3][guid][object type u8][movement][values]
left view:       [4][count u32][guid]...
nearby:          [5][count u32][guid]...
```
-/

namespace ObjectSync

/-- Something that happened to objects. -/
inductive Update where
  | valuesChanged (guid : Guid) (values : Bytes)
  | moved (guid : Guid) (movement : Movement)
  /-- An object came into view, or was only just `spawned`. -/
  | appeared (guid : Guid) (type : ObjectType) (movement : Movement) (values : Bytes)
      (spawned : Bool)
  | leftView (guids : List Guid)
  | nearby (guids : List Guid)
deriving DecidableEq, Repr

namespace Update

/-- The byte that opens the update. -/
def code : Update → UInt8
  | valuesChanged .. => 0
  | moved .. => 1
  | appeared _ _ _ _ spawned => if spawned then 3 else 2
  | leftView _ => 4
  | nearby _ => 5

/-- The guids behind their number. -/
def guidBytes (guids : List Guid) : Logged Bytes :=
  Bytes.counted (fun guid => pure guid.packed) guids

/-- What stands behind the first byte. -/
def body : Update → Logged Bytes
  | valuesChanged guid values => pure (guid.packed ++ values)
  | moved guid movement => pure guid.packed ++ movement.bytes
  | appeared guid type movement values _ =>
    pure (guid.packed ++ Bytes.u8 (UInt8.ofNat type.code)) ++ movement.bytes ++ pure values
  | leftView guids | nearby guids => guidBytes guids

def bytes (u : Update) : Logged Bytes := pure (Bytes.u8 u.code) ++ u.body

end Update

structure Batch where
  updates : List Update := []
deriving DecidableEq, Repr, Inhabited

namespace Batch

def bytes (b : Batch) : Logged Bytes := Bytes.counted Update.bytes b.updates

end Batch

end ObjectSync
