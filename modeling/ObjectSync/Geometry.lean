import ObjectSync.Bytes.Basic

/-!
# Positions and poses

Single-precision numbers are carried by their bit patterns, so a value passes through the codec
unchanged, whatever it is: a signed zero, an infinity, a NaN with its payload. Only
`Position.distanceSquared` computes with them.
-/

namespace ObjectSync

/-- A single-precision number, by its IEEE 754 bit pattern. -/
abbrev Single := UInt32

/-- The bit pattern of `1.0`. -/
def Single.one : Single := 0x3F800000

/-- A point of the world, an offset or a node of a path. -/
structure Position where
  x : Single := 0
  y : Single := 0
  z : Single := 0
deriving DecidableEq, Repr, Inhabited

/-- A position with a facing angle in radians. -/
structure Pose where
  position : Position := {}
  orientation : Single := 0
deriving DecidableEq, Repr, Inhabited

namespace Position

def bytes (p : Position) : Bytes := Bytes.u32 p.x ++ Bytes.u32 p.y ++ Bytes.u32 p.z

/-- The position facing the given angle. -/
def withOrientation (p : Position) (orientation : Single) : Pose := { position := p, orientation }

/-- The square of the distance between two positions, in single precision: each product and each
sum is rounded, and the sum over the coordinates runs from left to right. -/
def distanceSquared (p q : Position) : Float32 :=
  let dx := Float32.ofBits p.x - Float32.ofBits q.x
  let dy := Float32.ofBits p.y - Float32.ofBits q.y
  let dz := Float32.ofBits p.z - Float32.ofBits q.z
  dx * dx + dy * dy + dz * dz

end Position

/-- The coordinates, then the facing angle. -/
def Pose.bytes (p : Pose) : Bytes := p.position.bytes ++ Bytes.u32 p.orientation

end ObjectSync
