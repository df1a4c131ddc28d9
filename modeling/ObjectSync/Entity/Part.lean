import ObjectSync.Declaration.SharedCatalog
import ObjectSync.Entity.Table.Object
import ObjectSync.Entity.Table.Player
import ObjectSync.Entity.Table.Unit

/-!
# Parts of entities

Three parts make up the entities of the world: every entity is an object, creatures and players are
units, and players have a part of their own.
-/

namespace ObjectSync

inductive Part where
  | object
  | unit
  | player
deriving DecidableEq, Repr, Inhabited

namespace Part

def table : Part → PartTable
  | object => .object
  | unit => .unit
  | player => .player

/-- The name of a part, which is that of its schema. -/
def name (part : Part) : String := part.table.name

/-- The fields of a part, in the order in which they are sent. -/
def fields (part : Part) : List Field := part.table.fields

instance : Declared Part where
  name := Part.name
  table := Part.fields

end Part

end ObjectSync
