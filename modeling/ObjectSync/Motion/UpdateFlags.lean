import ObjectSync.Motion.FlagSet

/-!
# Update flags

Which parts a movement block has. Apart from `self`, each flag says that a part follows.
-/

namespace ObjectSync

/-- Flags of a movement block, sent in 16 bits. -/
abbrev UpdateFlags := FlagSet 16

namespace UpdateFlags

def self : UpdateFlags := ⟨0x1⟩
def transport : UpdateFlags := ⟨0x2⟩
def hasAttackingTarget : UpdateFlags := ⟨0x4⟩
def lowGuid : UpdateFlags := ⟨0x8⟩
def highGuid : UpdateFlags := ⟨0x10⟩
def living : UpdateFlags := ⟨0x20⟩
def stationaryPosition : UpdateFlags := ⟨0x40⟩
def vehicle : UpdateFlags := ⟨0x80⟩
def position : UpdateFlags := ⟨0x100⟩
def rotation : UpdateFlags := ⟨0x200⟩

/-- The flags by name, lowest bit first. -/
def named : List (String × UpdateFlags) :=
  [("EMPTY", ∅), ("SELF", self), ("TRANSPORT", transport),
   ("HAS_ATTACKING_TARGET", hasAttackingTarget), ("LOW_GUID", lowGuid),
   ("HIGH_GUID", highGuid), ("LIVING", living), ("STATIONARY_POSITION", stationaryPosition),
   ("VEHICLE", vehicle), ("POSITION", position), ("ROTATION", rotation)]

end UpdateFlags

end ObjectSync
