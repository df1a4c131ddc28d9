import ObjectSync.Entity.Property

/-!
# Entries of a player

The quest log, the visible items and the skills of a player are sequences of entries of several
numbers each. The client knows them as such; they are sent as plain arrays, one entry behind the
other. Entries past the last are ignored, and read as zeros.
-/

namespace ObjectSync

/-- A sequence of entries in an array field. -/
structure EntryArray where
  /-- The field that holds the entries. -/
  field : String
  /-- The type of the numbers in an entry. -/
  type : ValueType
  /-- How many numbers an entry has. -/
  width : Nat
  /-- How many entries there are. -/
  size : Nat
deriving DecidableEq, Repr

namespace EntryArray

def read (array : EntryArray) (record : Record) (index : Nat) : List Value :=
  if index < array.size then
    (List.range array.width).map fun i =>
      record.getNamed array.type array.field (index * array.width + i)
  else List.replicate array.width (array.type.read 0)

def put (array : EntryArray) (record : Record) (index : Nat) (values : List Value) : Record :=
  if index < array.size then
    values.zipIdx.foldl (fun record (value, i) =>
      record.setNamed array.field (index * array.width + i) value) record
  else record

end EntryArray

/-! ## Quest log -/

structure Quest where
  id : UInt32 := 0
  state : UInt32 := 0
  /-- The counters of its objectives. -/
  count : UInt64 := 0
  /-- The time that is left. -/
  time : UInt32 := 0
deriving DecidableEq, Repr, Inhabited

namespace Quest

/-- The quest log: 25 entries of five words. -/
def log : EntryArray := { field := "quest_log", type := .u32, width := 5, size := 25 }

/-- The numbers of an entry. The low half of the counters comes first. -/
def values (quest : Quest) : List Value :=
  [.u32 quest.id, .u32 quest.state, .u32 quest.count.toUInt32,
    .u32 (quest.count >>> 32).toUInt32, .u32 quest.time]

def ofValues : List Value → Quest
  | [.u32 id, .u32 state, .u32 low, .u32 high, .u32 time] =>
    { id, state, count := low.toUInt64 ||| high.toUInt64 <<< 32, time }
  | _ => {}

end Quest

/-! ## Visible items -/

/-- What is seen in a slot for equipment. -/
structure VisibleItem where
  id : UInt32 := 0
  enchantment : UInt32 := 0
deriving DecidableEq, Repr, Inhabited

namespace VisibleItem

/-- The slots for equipment: 19 entries of two words. -/
def slots : EntryArray := { field := "visible_items", type := .u32, width := 2, size := 19 }

def values (item : VisibleItem) : List Value := [.u32 item.id, .u32 item.enchantment]

def ofValues : List Value → VisibleItem
  | [.u32 id, .u32 enchantment] => { id, enchantment }
  | _ => {}

end VisibleItem

/-! ## Skills -/

/-- A skill and how far it is learned. -/
structure Skill where
  id : UInt16 := 0
  step : UInt16 := 0
  level : UInt16 := 0
  cap : UInt16 := 0
  temporaryBonus : UInt16 := 0
  permanentBonus : UInt16 := 0
deriving DecidableEq, Repr, Inhabited

namespace Skill

/-- The skills: 128 entries of six half words. -/
def list : EntryArray := { field := "skills", type := .u16, width := 6, size := 128 }

def values (skill : Skill) : List Value :=
  [.u16 skill.id, .u16 skill.step, .u16 skill.level, .u16 skill.cap,
    .u16 skill.temporaryBonus, .u16 skill.permanentBonus]

def ofValues : List Value → Skill
  | [.u16 id, .u16 step, .u16 level, .u16 cap, .u16 temporaryBonus, .u16 permanentBonus] =>
    { id, step, level, cap, temporaryBonus, permanentBonus }
  | _ => {}

end Skill

/-! ## Reading and writing -/

namespace Record

def quest (record : Record) (index : Nat) : Quest := .ofValues (Quest.log.read record index)

def setQuest (record : Record) (index : Nat) (quest : Quest) : Record :=
  Quest.log.put record index quest.values

def visibleItem (record : Record) (index : Nat) : VisibleItem :=
  .ofValues (VisibleItem.slots.read record index)

def setVisibleItem (record : Record) (index : Nat) (item : VisibleItem) : Record :=
  VisibleItem.slots.put record index item.values

def skill (record : Record) (index : Nat) : Skill := .ofValues (Skill.list.read record index)

def setSkill (record : Record) (index : Nat) (skill : Skill) : Record :=
  Skill.list.put record index skill.values

end Record

end ObjectSync
