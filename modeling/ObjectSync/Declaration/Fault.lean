import ObjectSync.Text.Quoted

/-!
# Faults of a declaration

What can be wrong with a table of fields or with a composite of several tables. All of it is found
when the declaration is compiled; encoding meets no fault.
-/

namespace ObjectSync

/-- Why a declaration is refused. -/
inductive SchemaFault where
  /-- The fields from block `block` on end `spill` bits past the end of a block. -/
  | misaligned (schema : String) (block spill : Nat)
  | duplicateField (schema field : String)
  /-- The declaration takes more blocks than a mask may announce. -/
  | tooLarge (schema : String) (blocks limit : Nat)
deriving DecidableEq, Repr

def SchemaFault.message : SchemaFault → String
  | misaligned schema block spill =>
    "schema " ++ schema ++ ": fields ending at block " ++ toString block ++ " spill "
      ++ toString spill ++ " bits past a 32-bit boundary"
  | duplicateField schema field =>
    "schema " ++ schema ++ ": duplicate field name " ++ Text.quoted field
  | tooLarge schema blocks limit =>
    "schema " ++ schema ++ ": " ++ toString blocks ++ " blocks exceed the mask limit of "
      ++ toString limit

end ObjectSync
