import ObjectSync.Motion.FlagSet

/-!
# Living flags

How a living object moves. Most flags only say so; those of `payload` also announce data that
follow, and the three of `pitch` announce one angle between them.

The flags are kept in 64 bits, of which the low 48 are sent.
-/

namespace ObjectSync

abbrev LivingFlags := FlagSet 64

namespace LivingFlags

def forward : LivingFlags := ⟨0x1⟩
def backward : LivingFlags := ⟨0x2⟩
def strafeLeft : LivingFlags := ⟨0x4⟩
def strafeRight : LivingFlags := ⟨0x8⟩
def left : LivingFlags := ⟨0x10⟩
def right : LivingFlags := ⟨0x20⟩
def pitchUp : LivingFlags := ⟨0x40⟩
def pitchDown : LivingFlags := ⟨0x80⟩
def walking : LivingFlags := ⟨0x100⟩
def onTransport : LivingFlags := ⟨0x200⟩
def disableGravity : LivingFlags := ⟨0x400⟩
def root : LivingFlags := ⟨0x800⟩
def falling : LivingFlags := ⟨0x1000⟩
def fallingFar : LivingFlags := ⟨0x2000⟩
def pendingStop : LivingFlags := ⟨0x4000⟩
def pendingStrafeStop : LivingFlags := ⟨0x8000⟩
def pendingForward : LivingFlags := ⟨0x10000⟩
def pendingBackward : LivingFlags := ⟨0x20000⟩
def pendingStrafeLeft : LivingFlags := ⟨0x40000⟩
def pendingStrafeRight : LivingFlags := ⟨0x80000⟩
def pendingRoot : LivingFlags := ⟨0x100000⟩
def swimming : LivingFlags := ⟨0x200000⟩
def ascending : LivingFlags := ⟨0x400000⟩
def descending : LivingFlags := ⟨0x800000⟩
def canFly : LivingFlags := ⟨0x1000000⟩
def flying : LivingFlags := ⟨0x2000000⟩
def splineElevation : LivingFlags := ⟨0x4000000⟩
def splineEnabled : LivingFlags := ⟨0x8000000⟩
def waterwalking : LivingFlags := ⟨0x10000000⟩
def fallingSlow : LivingFlags := ⟨0x20000000⟩
def hover : LivingFlags := ⟨0x40000000⟩
def noStrafe : LivingFlags := ⟨0x100000000⟩
def noJumping : LivingFlags := ⟨0x200000000⟩
def unknown1 : LivingFlags := ⟨0x400000000⟩
def fullSpeedTurning : LivingFlags := ⟨0x800000000⟩
def fullSpeedPitching : LivingFlags := ⟨0x1000000000⟩
def alwaysAllowPitching : LivingFlags := ⟨0x2000000000⟩
def unknown2 : LivingFlags := ⟨0x4000000000⟩
def unknown3 : LivingFlags := ⟨0x8000000000⟩
def unknown4 : LivingFlags := ⟨0x10000000000⟩
def unknown5 : LivingFlags := ⟨0x20000000000⟩
def transportInterpolatedMovement : LivingFlags := ⟨0x40000000000⟩
def transportInterpolatedTurning : LivingFlags := ⟨0x80000000000⟩
def transportInterpolatedPitching : LivingFlags := ⟨0x100000000000⟩
def unknown6 : LivingFlags := ⟨0x200000000000⟩
def transitionBetweenSwimAndFly : LivingFlags := ⟨0x400000000000⟩
def unknown8 : LivingFlags := ⟨0x800000000000⟩

/-- The flags that announce the pitch angle. -/
def pitch : LivingFlags := swimming ∪ flying ∪ alwaysAllowPitching

/-- The flags that announce data. -/
def payload : LivingFlags :=
  transportInterpolatedMovement ∪ onTransport ∪ pitch ∪ falling ∪ splineElevation ∪ splineEnabled

/-- The bits that are sent. -/
def wire : LivingFlags := ⟨(1 <<< 48) - 1⟩

/-- The flags by name, lowest bit first, and the groups of flags behind them. -/
def named : List (String × LivingFlags) :=
  [("EMPTY", ∅), ("FORWARD", forward), ("BACKWARD", backward), ("STRAFE_LEFT", strafeLeft),
   ("STRAFE_RIGHT", strafeRight), ("LEFT", left), ("RIGHT", right), ("PITCH_UP", pitchUp),
   ("PITCH_DOWN", pitchDown), ("WALKING", walking), ("ON_TRANSPORT", onTransport),
   ("DISABLE_GRAVITY", disableGravity), ("ROOT", root), ("FALLING", falling),
   ("FALLING_FAR", fallingFar), ("PENDING_STOP", pendingStop),
   ("PENDING_STRAFE_STOP", pendingStrafeStop), ("PENDING_FORWARD", pendingForward),
   ("PENDING_BACKWARD", pendingBackward), ("PENDING_STRAFE_LEFT", pendingStrafeLeft),
   ("PENDING_STRAFE_RIGHT", pendingStrafeRight), ("PENDING_ROOT", pendingRoot),
   ("SWIMMING", swimming), ("ASCENDING", ascending), ("DESCENDING", descending),
   ("CAN_FLY", canFly), ("FLYING", flying), ("SPLINE_ELEVATION", splineElevation),
   ("SPLINE_ENABLED", splineEnabled), ("WATERWALKING", waterwalking),
   ("FALLING_SLOW", fallingSlow), ("HOVER", hover), ("NO_STRAFE", noStrafe),
   ("NO_JUMPING", noJumping), ("UNKNOWN1", unknown1), ("FULL_SPEED_TURNING", fullSpeedTurning),
   ("FULL_SPEED_PITCHING", fullSpeedPitching), ("ALWAYS_ALLOW_PITCHING", alwaysAllowPitching),
   ("UNKNOWN2", unknown2), ("UNKNOWN3", unknown3), ("UNKNOWN4", unknown4), ("UNKNOWN5", unknown5),
   ("TRANSPORT_INTERPOLATED_MOVEMENT", transportInterpolatedMovement),
   ("TRANSPORT_INTERPOLATED_TURNING", transportInterpolatedTurning),
   ("TRANSPORT_INTERPOLATED_PITCHING", transportInterpolatedPitching), ("UNKNOWN6", unknown6),
   ("TRANSITION_BETWEEN_SWIM_AND_FLY", transitionBetweenSwimAndFly), ("UNKNOWN8", unknown8),
   ("PITCH", pitch), ("PAYLOAD", payload)]

end LivingFlags

end ObjectSync
