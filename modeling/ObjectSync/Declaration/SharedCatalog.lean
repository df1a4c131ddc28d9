import ObjectSync.Declaration.Catalog

/-!
# The shared catalog

Everything in a process shares one catalog. Its settings may be installed once, before anything uses
it; its first use without them takes the default ones.

Where an entity is created its declaration has to be right, so `schemaOf` and `layoutOf` answer a
fault as a `Misdeclaration`, which comes with a notice.
-/

namespace ObjectSync

/-- A declaration that an entity was to be created from, and that is at fault. -/
inductive Misdeclaration where
  | schema (name : String) (fault : SchemaFault)
  | composite (name : String) (fault : SchemaFault)
deriving DecidableEq, Repr

namespace Misdeclaration

def message : Misdeclaration → String
  | schema name fault => "invalid schema declaration for " ++ name ++ ": " ++ fault.message
  | composite name fault => "invalid composite declaration for " ++ name ++ ": " ++ fault.message

/-- The notice raised with it. -/
def notice : Misdeclaration → Notice
  | schema _ _ => .invalidSchema
  | composite _ _ => .invalidComposite

end Misdeclaration

/-- The catalog that everything in a process shares. -/
structure SharedCatalog (κ : Type) where
  /-- The catalog, once something has used it or settings were installed. -/
  inUse? : Option (Catalog κ) := none
deriving Repr

namespace SharedCatalog

variable {κ : Type}

/-- The catalog as its next use finds it. -/
def catalog (shared : SharedCatalog κ) : Catalog κ := shared.inUse?.getD {}

/-- A catalog in use. -/
def ofCatalog (catalog : Catalog κ) : SharedCatalog κ := { inUse? := some catalog }

/-- The catalog as a use of it finds it. The first use puts it in use, with the default settings. -/
def use (shared : SharedCatalog κ) : Catalog κ × SharedCatalog κ :=
  (shared.catalog, ofCatalog shared.catalog)

/-- Asks something of the catalog that may change it. -/
def onCatalog {α : Type} (request : Catalog κ → α × Catalog κ) (shared : SharedCatalog κ) :
    α × SharedCatalog κ :=
  let (catalog, _) := shared.use
  let (answer, catalog) := request catalog
  (answer, ofCatalog catalog)

/-- Installs settings, if they are valid and nothing has used the catalog. -/
def install (shared : SharedCatalog κ) (settings : Settings) :
    Except SettingsFault Unit × SharedCatalog κ :=
  match settings.validate with
  | .error fault => (.error fault, shared)
  | .ok settings =>
    match shared.inUse? with
    | some _ => (.error .alreadyInstalled, shared)
    | none => (.ok (), ofCatalog { settings })

/-- A use of the shared catalog that may meet a misdeclaration. -/
abbrev Use (κ : Type) := ExceptT Misdeclaration (StateM (SharedCatalog κ))

/-- The schema of a type, compiled when it is first asked for. -/
def schemaOf [BEq κ] [Declared κ] (type : κ) : Use κ Schema := do
  match ← modifyGet (onCatalog (·.register type)) with
  | .ok schema => return schema
  | .error fault => throw (.schema (Declared.name type) fault)

/-- The layout of several schemas under the settings of the catalog. -/
def layoutOf (name : String) (schemas : List Schema) : Use κ Layout := do
  let catalog ← modifyGet use
  match catalog.layout name schemas with
  | .ok layout => return layout
  | .error fault => throw (.composite name fault)

end SharedCatalog

end ObjectSync
