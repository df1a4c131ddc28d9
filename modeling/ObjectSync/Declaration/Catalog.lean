import ObjectSync.Declaration.Layout

/-!
# Catalogs

A catalog keeps the compiled schema of each entity type. A type is compiled when it is first
registered, under the settings of the catalog, and never again; a type that does not compile is not
kept.
-/

namespace ObjectSync

/-- The entity types that `κ` names have a schema name and a table of fields. -/
class Declared (κ : Type) where
  name : κ → String
  table : κ → List Field

/-- The schemas compiled so far, and the settings that they were compiled under. -/
structure Catalog (κ : Type) where
  settings : Settings := {}
  schemas : List (κ × Schema) := []
deriving Repr

namespace Catalog

variable {κ : Type}

def get? [BEq κ] (catalog : Catalog κ) (type : κ) : Option Schema := catalog.schemas.lookup type

def size (catalog : Catalog κ) : Nat := catalog.schemas.length

/-- The schema of a type, compiled if the type is new, and the catalog after that. -/
def register [BEq κ] [Declared κ] (catalog : Catalog κ) (type : κ) :
    Except SchemaFault Schema × Catalog κ :=
  match catalog.get? type with
  | some schema => (.ok schema, catalog)
  | none =>
    match Schema.compile catalog.settings (Declared.name type) (Declared.table type) with
    | .ok schema => (.ok schema, { catalog with schemas := catalog.schemas ++ [(type, schema)] })
    | .error fault => (.error fault, catalog)

/-- The layout of several schemas under the settings of the catalog. -/
def layout (catalog : Catalog κ) (name : String) (schemas : List Schema) :
    Except SchemaFault Layout :=
  Layout.ofSchemas catalog.settings name schemas

end Catalog

end ObjectSync
