import ObjectSync.Settings.Basic
import ObjectSync.Settings.Document.Table

/-!
# Settings documents

```toml
max_mask_words = 42
unknown_field_log = "warn"
```

A name that is not given keeps its default, and a name that is not known is refused. The choice of
a report may also be written as a table whose one entry is empty: `unknown_field_log.off = []`.
-/

namespace ObjectSync

namespace Document

/-- The number of mask words that a node gives. -/
def maskWords? : Node → Option UInt8
  | .integer value => if 0 ≤ value ∧ value < 256 then some (UInt8.ofNat value.toNat) else none
  | _ => none

/-- Whether a node holds nothing. -/
def isEmptyNode : Node → Bool
  | .emptyList | .table _ [] => true
  | _ => false

/-- The report that a node chooses. -/
def missReport? : Node → Option MissReport
  | .text chars => MissReport.ofWord? (String.ofList chars)
  | .table _ [(name, node)] => do
    guard (isEmptyNode node)
    MissReport.ofWord? (String.ofList name)
  | _ => none

/-- The settings changed by one entry of the document. -/
def withEntry? (settings : Settings) (entry : List Char × Node) : Option Settings :=
  match String.ofList entry.1 with
  | "max_mask_words" => do return { settings with maxMaskWords := ← maskWords? entry.2 }
  | "unknown_field_log" => do return { settings with onMiss := ← missReport? entry.2 }
  | _ => none

end Document

/-- The settings that a document spells. -/
def Settings.ofDocument (source : String) : Except SettingsFault Settings :=
  match Document.entries? source >>= (·.foldlM Document.withEntry? {}) with
  | some settings => settings.validate
  | none => .error .malformed

/-- The settings that the bytes of a file spell. -/
def Settings.ofFile (content : ByteArray) : Except SettingsFault Settings :=
  match String.fromUTF8? content with
  | some source => Settings.ofDocument source
  | none => .error .unreadable

end ObjectSync
