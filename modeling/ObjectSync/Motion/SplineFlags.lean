import ObjectSync.Motion.FlagSet

/-!
# Spline flags

How an object moves along a spline. The flags of `facing` follow from what the object faces at the
end, and announce it.
-/

namespace ObjectSync

/-- Flags of a spline, sent in 32 bits. -/
abbrev SplineFlags := FlagSet 32

namespace SplineFlags

def done : SplineFlags := ⟨0x100⟩
def falling : SplineFlags := ⟨0x200⟩
def noSpline : SplineFlags := ⟨0x400⟩
def parabolic : SplineFlags := ⟨0x800⟩
def walkMode : SplineFlags := ⟨0x1000⟩
def flying : SplineFlags := ⟨0x2000⟩
def orientationFixed : SplineFlags := ⟨0x4000⟩
def finalPoint : SplineFlags := ⟨0x8000⟩
def finalTarget : SplineFlags := ⟨0x10000⟩
def finalAngle : SplineFlags := ⟨0x20000⟩
def catmullrom : SplineFlags := ⟨0x40000⟩
def cyclic : SplineFlags := ⟨0x80000⟩
def enterCycle : SplineFlags := ⟨0x100000⟩
def animation : SplineFlags := ⟨0x200000⟩
def frozen : SplineFlags := ⟨0x400000⟩
def transportEnter : SplineFlags := ⟨0x800000⟩
def transportExit : SplineFlags := ⟨0x1000000⟩

/-- The flags that announce what the object faces at the end. -/
def facing : SplineFlags := finalPoint ∪ finalTarget ∪ finalAngle

/-- The flags by name, lowest bit first, and the groups of flags behind them. -/
def named : List (String × SplineFlags) :=
  [("EMPTY", ∅), ("DONE", done), ("FALLING", falling), ("NO_SPLINE", noSpline),
   ("PARABOLIC", parabolic), ("WALK_MODE", walkMode), ("FLYING", flying),
   ("ORIENTATION_FIXED", orientationFixed), ("FINAL_POINT", finalPoint),
   ("FINAL_TARGET", finalTarget), ("FINAL_ANGLE", finalAngle), ("CATMULLROM", catmullrom),
   ("CYCLIC", cyclic), ("ENTER_CYCLE", enterCycle), ("ANIMATION", animation), ("FROZEN", frozen),
   ("TRANSPORT_ENTER", transportEnter), ("TRANSPORT_EXIT", transportExit), ("FACING", facing)]

end SplineFlags

end ObjectSync
