import ObjectSync.Bytes.Counted
import ObjectSync.Geometry
import ObjectSync.Motion.SplineFlags

/-!
# Splines

The path along which the server moves an object, carried at the end of a living region.

```text
[flags u32][facing?][time passed u32][duration u32][id u32]
[duration factor][next duration factor][vertical acceleration][effect start u32]
[node count u32][nodes][mode u8][destination]
```
-/

namespace ObjectSync

/-- What an object faces at the end of its path. -/
inductive Facing where
  | ahead
  | point (p : Position)
  | target (guid : UInt64)
  | angle (a : Single)
deriving DecidableEq, Repr, Inhabited

namespace Facing

def flag : Facing → SplineFlags
  | ahead => ∅
  | point _ => .finalPoint
  | target _ => .finalTarget
  | angle _ => .finalAngle

/-- The data behind the flags. -/
def bytes : Facing → Bytes
  | ahead => []
  | point p => p.bytes
  | target guid => Bytes.u64 guid
  | angle a => Bytes.u32 a

end Facing

/-- A path and how far along it an object is. -/
structure Spline where
  /-- Facing flags among these are not sent. -/
  flags : SplineFlags := ∅
  facing : Facing := .ahead
  timePassed : UInt32 := 0
  duration : UInt32 := 0
  id : UInt32 := 0
  durationFactor : Single := 0
  nextDurationFactor : Single := 0
  verticalAcceleration : Single := 0
  effectStart : UInt32 := 0
  nodes : List Position := []
  /-- How positions between nodes are found. -/
  mode : UInt8 := 0
  destination : Position := {}
deriving DecidableEq, Repr, Inhabited

namespace Spline

/-- The flags as sent: the facing alone decides on the facing flags. -/
def wireFlags (s : Spline) : SplineFlags := (s.flags \ SplineFlags.facing) ∪ s.facing.flag

def bytes (s : Spline) : Logged Bytes :=
  pure (Bytes.u32 ⟨s.wireFlags.bits⟩ ++ s.facing.bytes
    ++ Bytes.u32 s.timePassed ++ Bytes.u32 s.duration ++ Bytes.u32 s.id
    ++ Bytes.u32 s.durationFactor ++ Bytes.u32 s.nextDurationFactor
    ++ Bytes.u32 s.verticalAcceleration ++ Bytes.u32 s.effectStart)
  ++ Bytes.counted (fun node => pure node.bytes) s.nodes
  ++ pure (Bytes.u8 s.mode ++ s.destination.bytes)

end Spline

end ObjectSync
