import ObjectSync.Motion.Living
import ObjectSync.Motion.UpdateFlags

/-!
# Movement blocks

Where an object is and how it moves. An object lives and moves, or stands on a transport, or stands
still, or none of it is said; data of other kinds may follow. Each of the three regions is kept for
itself, and setting one clears the other two. The flags in front are read off the data that are
there, so no flag announces data that are missing.

```text
[flags u16][living | position | stationary]?
[high guid u32?][low guid u32?][attacking target?][transport time u32?]
[vehicle id u32, orientation?][rotation u64?]
```
-/

namespace ObjectSync

/-- A place on a transport for an object that does not live. -/
structure CarriedPosition where
  /-- Empty when the object is on no transport. -/
  transport : Guid
  position : Position
  transportOffset : Position
  orientation : Single
  corpseOrientation : Single
deriving DecidableEq, Repr, Inhabited

def CarriedPosition.bytes (p : CarriedPosition) : Bytes :=
  p.transport.packed ++ p.position.bytes ++ p.transportOffset.bytes ++ Bytes.u32 p.orientation
    ++ Bytes.u32 p.corpseOrientation

/-- A vehicle that the object is. -/
structure Vehicle where
  id : UInt32
  orientation : Single
deriving DecidableEq, Repr, Inhabited

def Vehicle.bytes (v : Vehicle) : Bytes := Bytes.u32 v.id ++ Bytes.u32 v.orientation

structure Movement where
  /-- Whether the object is the receiver's own avatar. -/
  isSelf : Bool := false
  living : Option Living := none
  /-- A place on a transport. -/
  carried : Option CarriedPosition := none
  /-- A place where the object stands still. -/
  stationary : Option Pose := none
  highGuid : Option UInt32 := none
  lowGuid : Option UInt32 := none
  attackingTarget : Option Guid := none
  transportTime : Option UInt32 := none
  vehicle : Option Vehicle := none
  rotation : Option UInt64 := none
deriving DecidableEq, Repr, Inhabited

namespace Movement

/-- The flags that announce what is there. -/
def flags (m : Movement) : UpdateFlags :=
  FlagSet.gate UpdateFlags.self m.isSelf
  ∪ FlagSet.gate UpdateFlags.living m.living.isSome
  ∪ FlagSet.gate UpdateFlags.position m.carried.isSome
  ∪ FlagSet.gate UpdateFlags.stationaryPosition m.stationary.isSome
  ∪ FlagSet.gate UpdateFlags.highGuid m.highGuid.isSome
  ∪ FlagSet.gate UpdateFlags.lowGuid m.lowGuid.isSome
  ∪ FlagSet.gate UpdateFlags.hasAttackingTarget m.attackingTarget.isSome
  ∪ FlagSet.gate UpdateFlags.transport m.transportTime.isSome
  ∪ FlagSet.gate UpdateFlags.vehicle m.vehicle.isSome
  ∪ FlagSet.gate UpdateFlags.rotation m.rotation.isSome

/-! ## Regions -/

/-- Sets the living region, which clears the other two, or clears it. -/
def setLiving (m : Movement) (living : Option Living) : Movement :=
  if living.isSome then { m with living, carried := none, stationary := none }
  else { m with living }

/-- Sets a place on a transport, which clears the other two regions, or clears it. -/
def setCarried (m : Movement) (carried : Option CarriedPosition) : Movement :=
  if carried.isSome then { m with carried, living := none, stationary := none }
  else { m with carried }

/-- Sets a fixed place, which clears the other two regions, or clears it. -/
def setStationary (m : Movement) (stationary : Option Pose) : Movement :=
  if stationary.isSome then { m with stationary, living := none, carried := none }
  else { m with stationary }

def ofLiving (l : Living) : Movement := setLiving {} (some l)

/-! ## Encoding -/

/-- The region that is sent. Of several, a living one comes before a place on a transport, and that
before a fixed place. -/
def regionBytes (m : Movement) : Logged Bytes :=
  match m.living, m.carried, m.stationary with
  | some l, _, _ => l.bytes
  | none, some place, _ => pure place.bytes
  | none, none, some pose => pure pose.bytes
  | none, none, none => pure []

/-- The data behind the region. -/
def trailer (m : Movement) : Bytes :=
  Bytes.optional Bytes.u32 m.highGuid ++ Bytes.optional Bytes.u32 m.lowGuid
    ++ Bytes.optional Guid.packed m.attackingTarget ++ Bytes.optional Bytes.u32 m.transportTime
    ++ Bytes.optional Vehicle.bytes m.vehicle ++ Bytes.optional Bytes.u64 m.rotation

def bytes (m : Movement) : Logged Bytes :=
  pure (Bytes.u16 ⟨m.flags.bits⟩) ++ m.regionBytes ++ pure m.trailer

end Movement

end ObjectSync
