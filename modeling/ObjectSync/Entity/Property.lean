import ObjectSync.State.Record

/-!
# Properties

A property is a named, typed way to a field of a part: to a scalar, or to the elements of an array
one by one. A part table lists the fields of a part of an entity in the order in which they are
sent, and the properties that the part offers.
-/

namespace ObjectSync

/-- A named, typed way to a field. -/
structure Property where
  name : String
  /-- The field that holds the property. -/
  field : String
  type : ValueType
  /-- Whether the property is one element of an array. -/
  isElement : Bool
deriving DecidableEq, Repr

namespace Property

/-- A property with the name of its scalar field. -/
def ofField (name : String) (type : ValueType) : Property :=
  { name, field := name, type, isElement := false }

/-- A property with another name than its scalar field. -/
def renamed (name field : String) (type : ValueType) : Property :=
  { name, field, type, isElement := false }

/-- A property that is one element of an array. -/
def element (name field : String) (type : ValueType) : Property :=
  { name, field, type, isElement := true }

/-- Writes the property, or element `index` of it, and flags its section. -/
def put (property : Property) (record : Record) (index : Nat) (value : Value) : Record :=
  match record.schema.fieldNamed? property.field with
  | some field => record.setAt field (if property.isElement then index else 0) value
  | none => record

/-- Reads the property, or element `index` of it. -/
def read (property : Property) (record : Record) (index : Nat) : Value :=
  match record.schema.fieldNamed? property.field with
  | some field => record.getAt property.type field (if property.isElement then index else 0)
  | none => property.type.read 0

end Property

/-- The declaration of a part of an entity. -/
structure PartTable where
  name : String
  fields : List Field
  properties : List Property
deriving Repr

def PartTable.property? (table : PartTable) (name : String) : Option Property :=
  table.properties.find? fun property => property.name == name

/-! ## Fields by name -/

namespace Record

/-- Writes element `index` of the named field and flags its section. -/
def setNamed (record : Record) (name : String) (index : Nat) (value : Value) : Record :=
  match record.schema.fieldNamed? name with
  | some field => record.setAt field index value
  | none => record

/-- Reads element `index` of the named field. -/
def getNamed (record : Record) (type : ValueType) (name : String) (index : Nat) : Value :=
  match record.schema.fieldNamed? name with
  | some field => record.getAt type field index
  | none => type.read 0

end Record

end ObjectSync
