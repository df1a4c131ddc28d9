import ObjectSync.Entity.Part

/-!
# Entities

An entity is made of parts that share one mask: a creature of an object and a unit part, a player of
these and a player part. The key `κ` under which a catalog keeps schemas may name more types than
the parts; `key` says how it names these.
-/

namespace ObjectSync

inductive EntityKind where
  | creature
  | player
deriving DecidableEq, Repr, Inhabited

namespace EntityKind

def name : EntityKind → String
  | creature => "creature"
  | player => "player"

/-- The parts, in the order in which they are sent. -/
def parts : EntityKind → List Part
  | creature => [.object, .unit]
  | player => [.object, .unit, .player]

/-- The type that is sent when the entity appears. -/
def objectType : EntityKind → ObjectType
  | creature => .unit
  | player => .player

/-- The types that the entity is of. -/
def typeMask : EntityKind → TypeMask
  | creature => .unit
  | player => .player

/-- The number of blocks of the entity. -/
def blocks : EntityKind → Nat
  | creature => 6 + 142
  | player => 6 + 142 + 1178

end EntityKind

/-- An entity: the records of its parts and where they lie in the common mask. -/
structure Entity where
  kind : EntityKind
  layout : Layout
  /-- The records of the parts, in the order in which they are sent. -/
  records : List Record
deriving DecidableEq, Repr, Inhabited

namespace Entity

variable {κ : Type} [BEq κ] [Declared κ]

/-- The record of a new part. -/
def newRecord (key : Part → κ) (part : Part) : SharedCatalog.Use κ Record :=
  Record.blank <$> SharedCatalog.schemaOf (key part)

/-- A new object part: identifier, types and size are set, and count as sent. -/
def newObject (record : Record) (kind : EntityKind) (guid : Guid) : Record :=
  record
    |>.setNamed "guid" 0 (.guid guid)
    |>.setNamed "type" 0 (.typeMask kind.typeMask)
    |>.setNamed "scale_x" 0 (.f32 Single.one)
    |>.clearDirty

/-- A new entity with nothing changed. -/
def create (key : Part → κ) (kind : EntityKind) (guid : Guid) : SharedCatalog.Use κ Entity := do
  let records ← kind.parts.mapM fun part => do
    let record ← newRecord key part
    return if part = .object then newObject record kind guid else record
  let layout ← SharedCatalog.layoutOf kind.name (records.map Record.schema)
  return { kind, layout, records }

/-- The place of a part among the records. -/
def index? (entity : Entity) (part : Part) : Option Nat :=
  entity.kind.parts.findIdx? (· == part)

def record? (entity : Entity) (part : Part) : Option Record :=
  entity.index? part >>= (entity.records[·]?)

def modify (entity : Entity) (part : Part) (change : Record → Record) : Entity :=
  match entity.index? part with
  | some index => { entity with records := entity.records.modify index change }
  | none => entity

def guid (entity : Entity) : Guid :=
  match (entity.record? .object).map (·.getNamed .guid "guid" 0) with
  | some (Value.guid guid) => guid
  | _ => .empty

def isDirty (entity : Entity) : Bool := entity.records.any Record.isDirty

/-- The entity as one values block, and the entity after it was sent. -/
def marshal (entity : Entity) (onlyDirty : Bool) : Logged (Bytes × Entity) := do
  let (bytes, records) ← entity.layout.marshal entity.records onlyDirty
  return (bytes, { entity with records })

end Entity

/-! ## Registering the parts -/

namespace Catalog

variable {κ : Type} [BEq κ] [Declared κ]

/-- Registers parts in order, and gives their schemas. Those before one that does not compile stay
registered. -/
def registerParts (key : Part → κ) :
    List Part → ExceptT SchemaFault (StateM (Catalog κ)) (List Schema)
  | [] => return []
  | part :: rest => do
    let schema ← ExceptT.mk (modifyGet (register · (key part)))
    return schema :: (← registerParts key rest)

/-- Registers the three parts, and checks that creatures and players fit the mask. -/
def registerBuiltin (key : Part → κ) : ExceptT SchemaFault (StateM (Catalog κ)) Unit := do
  let schemas ← registerParts key EntityKind.player.parts
  for kind in [EntityKind.creature, EntityKind.player] do
    let _ ← (← get).layout kind.name (schemas.take kind.parts.length)

end Catalog

/-- Registers the three parts in the shared catalog. -/
def SharedCatalog.registerBuiltin {κ : Type} [BEq κ] [Declared κ] (key : Part → κ)
    (shared : SharedCatalog κ) : Except SchemaFault Unit × SharedCatalog κ :=
  shared.onCatalog (Catalog.registerBuiltin key).run

end ObjectSync
