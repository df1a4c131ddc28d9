import ObjectSync.Entity.Property

/-!
# Powers and stats of a unit

A unit has one field for each power (mana, rage and so on), one for the most of each power, and one
for each primary stat. Callers that have a number rather than a name find the field here; numbers
past the last are ignored, and read as zero.
-/

namespace ObjectSync

/-- A family of unit fields that are numbered from zero. -/
inductive UnitFamily where
  | power
  | maxPower
  | stat
deriving DecidableEq, Repr

namespace UnitFamily

def ofLabel? : String → Option UnitFamily
  | "power" => some power
  | "max_power" => some maxPower
  | "stat" => some stat
  | _ => none

/-- The fields of the family by number. -/
def fields : UnitFamily → List String
  | power => ["mana", "rage", "focus", "energy", "happiness", "runes", "runic_power"]
  | maxPower =>
    ["max_mana", "max_rage", "max_focus", "max_energy", "max_happiness", "max_runes",
      "max_runic_power"]
  | stat => ["strength", "agility", "stamina", "intellect", "spirit"]

/-- Writes one field of the family and flags its section. -/
def put (family : UnitFamily) (record : Record) (index : Nat) (value : UInt32) : Record :=
  match family.fields[index]? with
  | some name => record.setNamed name 0 (.u32 value)
  | none => record

/-- Reads one field of the family. -/
def read (family : UnitFamily) (record : Record) (index : Nat) : Value :=
  match family.fields[index]? with
  | some name => record.getNamed .u32 name 0
  | none => .u32 0

end UnitFamily

end ObjectSync
