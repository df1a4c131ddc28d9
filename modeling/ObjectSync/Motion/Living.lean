import ObjectSync.Identity.Guid
import ObjectSync.Motion.LivingFlags
import ObjectSync.Motion.Spline

/-!
# Living regions

How a living object moves: its kinematics, always sent, and data that flags announce. The setter of
each kind of data keeps flag and data together; `insertFlags` and `removeFlags` touch only flags
that announce nothing.

```text
[flags u48][time u32][pose][transport time u32?][passenger?][pitch?]
[fall time][fall?][spline elevation?][speeds][spline?]
```

Swimming, flying and free pitching share one angle. The last one that is set gives it, and it goes
when the last of the three goes. Riding a transport as a passenger and being moved with it by
interpolation exclude each other: each is kept for itself, and setting one clears the other.
-/

namespace ObjectSync

/-- How fast an object may move and turn, the turn rates in radians per second. -/
structure Speeds where
  walk : Single
  run : Single
  runBack : Single
  swim : Single
  swimBack : Single
  flight : Single
  flightBack : Single
  turnRate : Single
  pitchRate : Single
deriving DecidableEq, Repr

namespace Speeds

/-- The speeds of a character without any enchantment: 2.5, 7 and 4.5 for walking, running and
running back, 4.722222 for swimming, π for both rates. -/
def standard : Speeds where
  walk := 0x40200000
  run := 0x40E00000
  runBack := 0x40900000
  swim := 0x40971C71
  swimBack := 0x40200000
  flight := 0x40E00000
  flightBack := 0x40900000
  turnRate := 0x40490FDB
  pitchRate := 0x40490FDB

instance : Inhabited Speeds := ⟨standard⟩

def bytes (s : Speeds) : Bytes :=
  Bytes.u32 s.walk ++ Bytes.u32 s.run ++ Bytes.u32 s.runBack ++ Bytes.u32 s.swim
    ++ Bytes.u32 s.swimBack ++ Bytes.u32 s.flight ++ Bytes.u32 s.flightBack
    ++ Bytes.u32 s.turnRate ++ Bytes.u32 s.pitchRate

end Speeds

/-- What is sent of every living object. -/
structure Kinematics where
  /-- In milliseconds, by the clock of the receiver. -/
  timestamp : UInt32 := 0
  pose : Pose := {}
  /-- Sent whether the object falls or not. -/
  fallTime : Single := 0
  speeds : Speeds := .standard
deriving DecidableEq, Repr, Inhabited

/-- The velocity of a jump or a fall. -/
structure Fall where
  zSpeed : Single
  cosAngle : Single
  sinAngle : Single
  xySpeed : Single
deriving DecidableEq, Repr, Inhabited

def Fall.bytes (f : Fall) : Bytes :=
  Bytes.u32 f.zSpeed ++ Bytes.u32 f.cosAngle ++ Bytes.u32 f.sinAngle ++ Bytes.u32 f.xySpeed

/-- Where a passenger sits on its transport. -/
structure Passenger where
  transport : Guid
  offset : Pose
  timestamp : UInt32
  seat : UInt8
deriving DecidableEq, Repr, Inhabited

def Passenger.bytes (p : Passenger) : Bytes :=
  p.transport.packed ++ p.offset.bytes ++ Bytes.u32 p.timestamp ++ Bytes.u8 p.seat

structure Living where
  kinematics : Kinematics := {}
  flags : LivingFlags := ∅
  /-- The time by which the object is moved with its transport. -/
  interpolated : Option UInt32 := none
  passenger : Option Passenger := none
  pitch : Option Single := none
  fall : Option Fall := none
  elevation : Option Single := none
  spline : Option Spline := none
deriving DecidableEq, Repr, Inhabited

namespace Living

/-! ## Flags without data -/

/-- Adds flags. Those that announce data are left out, which raises a notice. -/
def insertFlags (l : Living) (flags : LivingFlags) : Logged Living where
  value := { l with flags := l.flags ∪ (flags \ LivingFlags.payload) }
  notices := if flags.meets LivingFlags.payload then [.payloadFlags] else []

/-- Takes flags away. Those that announce data stay. -/
def removeFlags (l : Living) (flags : LivingFlags) : Living :=
  { l with flags := l.flags \ (flags \ LivingFlags.payload) }

/-! ## Flags with data -/

/-- Moves the object with its transport by interpolation, which takes it off its seat, or stops doing
so. -/
def setInterpolated (l : Living) (interpolated : Option UInt32) : Living :=
  let flags := l.flags.put LivingFlags.transportInterpolatedMovement interpolated.isSome
  if interpolated.isSome then
    { l with flags := flags \ LivingFlags.onTransport, interpolated, passenger := none }
  else { l with flags, interpolated }

/-- Seats the object on its transport, which ends its interpolation, or takes it off its seat. -/
def setPassenger (l : Living) (passenger : Option Passenger) : Living :=
  let flags := l.flags.put LivingFlags.onTransport passenger.isSome
  if passenger.isSome then
    { l with
      flags := flags \ LivingFlags.transportInterpolatedMovement
      passenger
      interpolated := none }
  else { l with flags, passenger }

/-- Sets one of the flags that share the pitch, with the pitch, or takes it away. -/
def setPitch (l : Living) (flag : LivingFlags) (pitch : Option Single) : Living :=
  let flags := l.flags.put flag pitch.isSome
  { l with
    flags
    pitch := match pitch with
      | some angle => some angle
      | none => if flags.meets LivingFlags.pitch then l.pitch else none }

/-- Lets the object swim at a pitch, or stops it. -/
def setSwimming (l : Living) (pitch : Option Single) : Living :=
  l.setPitch LivingFlags.swimming pitch

/-- Lets the object fly at a pitch, or stops it. -/
def setFlying (l : Living) (pitch : Option Single) : Living :=
  l.setPitch LivingFlags.flying pitch

/-- Lets the object pitch on land, or stops it. -/
def setAlwaysAllowPitching (l : Living) (pitch : Option Single) : Living :=
  l.setPitch LivingFlags.alwaysAllowPitching pitch

/-- Lets the object fall, or stops it. -/
def setFalling (l : Living) (fall : Option Fall) : Living :=
  { l with flags := l.flags.put LivingFlags.falling fall.isSome, fall }

/-- Sets or clears the elevation along the spline. -/
def setElevation (l : Living) (elevation : Option Single) : Living :=
  { l with flags := l.flags.put LivingFlags.splineElevation elevation.isSome, elevation }

/-- Sets or clears the spline. -/
def setSpline (l : Living) (spline : Option Spline) : Living :=
  { l with flags := l.flags.put LivingFlags.splineEnabled spline.isSome, spline }

/-! ## Encoding -/

def bytes (l : Living) : Logged Bytes :=
  pure (Bytes.u48 ⟨l.flags.bits⟩ ++ Bytes.u32 l.kinematics.timestamp ++ l.kinematics.pose.bytes
    ++ Bytes.optional Bytes.u32 l.interpolated ++ Bytes.optional Passenger.bytes l.passenger
    ++ Bytes.optional Bytes.u32 l.pitch
    ++ Bytes.u32 l.kinematics.fallTime ++ Bytes.optional Fall.bytes l.fall
    ++ Bytes.optional Bytes.u32 l.elevation ++ l.kinematics.speeds.bytes)
  ++ (match l.spline with
    | some spline => spline.bytes
    | none => pure [])

end Living

end ObjectSync
