import ObjectSync.Bytes.Hex
import ObjectSync.Entity.Composite
import ObjectSync.Message
import ObjectSync.Settings.Document

/-!
# A sample dump

The messages for a sample player, as hexadecimal text to compare with captured traffic: one that
makes the player appear, and one that follows when its health changes.
-/

namespace ObjectSync.Sample

/-- What keeps the sample from being made. -/
inductive Fault where
  | settings (fault : SettingsFault)
  | schema (fault : SchemaFault)
  | entity (fault : Misdeclaration)
deriving DecidableEq, Repr

def Fault.message : Fault → String
  | settings fault => fault.message
  | schema fault => fault.message
  | entity fault => fault.message

/-- Two upper-case digits for each byte, with a space between bytes. -/
def hex (bytes : Bytes) : String :=
  " ".intercalate (bytes.map fun b => String.ofList ((Bytes.hexDigits b).map Char.toUpper))

/-- The identifier of the sample player. -/
def guid : Guid := ⟨1⟩

/-- The unit part of the sample player: a level 1 character with full health. -/
def unit (record : Record) : Record :=
  [("race", .u8 1), ("class", .u8 1), ("power_type", .u8 1), ("health", .u32 100),
    ("max_health", .u32 100), ("level", .u32 1), ("faction_template", .u32 1),
    ("display_id", .u32 49), ("native_display_id", .u32 49),
    ("bounding_radius", .f32 0x3EC72B02), ("combat_reach", .f32 0x3FC00000)].foldl
    (fun record (name, value) => record.setNamed name 0 value) record

/-- Where the sample player stands. -/
def movement : Movement :=
  { Movement.ofLiving { kinematics := {
      pose := { position := { x := 0xC60BD7CD, y := 0xC3047E35, z := 0x42A70FF9 } } } } with
    isSelf := true }

def message (update : Update) : Logged Bytes := Batch.bytes { updates := [update] }

/-- The two messages of the sample player. -/
def messages (player : Entity) : Logged (Bytes × Bytes) := do
  let (values, player) ← (player.modify .unit unit).marshal false
  let create ← message (.appeared guid player.kind.objectType movement values false)
  let hurt := player.modify .unit (·.setNamed "health" 0 (.u32 80))
  let (values, _) ← hurt.marshal true
  let change ← message (.valuesChanged guid values)
  return (create, change)

/-- The lines of the dump, made under the given settings. -/
def dump (settings : Settings) : Except Fault (List String) := do
  let unused : SharedCatalog Part := {}
  let (installed, shared) := unused.install settings
  installed.mapError .settings
  let (registered, shared) := shared.registerBuiltin id
  registered.mapError .schema
  let (player, _) := (Entity.create id .player guid).run shared
  let (create, change) := (messages (← player.mapError .entity)).value
  return ["create:  " ++ hex create, "partial: " ++ hex change]

/-- The lines of the dump, under the settings in the file with the given content if one is named. -/
def dumpUnder (file : Option (Except SettingsFault ByteArray)) : Except Fault (List String) := do
  match file with
  | none => dump {}
  | some content => dump (← (content >>= Settings.ofFile).mapError .settings)

end ObjectSync.Sample
