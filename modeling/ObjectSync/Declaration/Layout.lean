import ObjectSync.Declaration.Schema

/-!
# Layouts of composites

An entity may be made of several parts, each under a schema of its own, that share one mask: the
blocks of a part come behind all blocks of the parts before it. A `Layout` holds the sizes of the
parts and their sum. It is built by `ofSchemas` or by `single`: the sum is taken once, and it has to
fit the mask.

```text
object [0, 6) | unit [6, 148) | player [148, 1326)
```
-/

namespace ObjectSync

/-- The sizes of the parts of a composite. -/
structure Layout where
  name : String
  /-- The number of blocks of each part, in order. -/
  parts : List Nat
  /-- The number of blocks of all parts. -/
  total : Nat
deriving DecidableEq, Repr, Inhabited

namespace Layout

/-- The number of blocks of several parts together. -/
def blocksOf (parts : List Nat) : Nat := parts.foldr (· + ·) 0

def blocks? (layout : Layout) (part : Nat) : Option Nat := layout.parts[part]?

def offset? (layout : Layout) (part : Nat) : Option Nat :=
  if part < layout.parts.length then some (blocksOf (layout.parts.take part)) else none

/-- The first block and the number of blocks of each part, when the first part starts at `start`. -/
def placedFrom (start : Nat) : List Nat → List (Nat × Nat)
  | [] => []
  | blocks :: rest => (start, blocks) :: placedFrom (start + blocks) rest

/-- The first block and the number of blocks of each part. -/
def placed (layout : Layout) : List (Nat × Nat) := placedFrom 0 layout.parts

/-- The layout of several schemas, if it fits the mask. -/
def ofSchemas (settings : Settings) (name : String) (schemas : List Schema) :
    Except SchemaFault Layout :=
  let parts := schemas.map Schema.blocks
  let total := blocksOf parts
  if settings.maxBlocks < total then .error (.tooLarge name total settings.maxBlocks)
  else .ok { name, parts, total }

/-- The layout of one schema, which was found to fit when it was compiled. -/
def single (schema : Schema) : Layout where
  name := schema.name
  parts := [schema.blocks]
  total := schema.blocks

end Layout

end ObjectSync
