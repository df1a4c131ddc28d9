import ObjectSync.Blocks.Span
import ObjectSync.Notice

/-!
# Settings

The two choices that a deployment makes once, before any schema is compiled: how many mask words a
values block may carry, and how loudly a dirty flag for an unknown field is reported. Settings made
in code are checked by `validate`; settings from a document are checked as they are read.
-/

namespace ObjectSync

/-- How a dirty flag for an unknown field is reported. -/
inductive MissReport where
  | off
  | debug
  | warn
deriving DecidableEq, Repr, Inhabited

namespace MissReport

/-- The word for the choice in a settings document. -/
def word : MissReport → String
  | off => "off"
  | debug => "debug"
  | warn => "warn"

def ofWord? (word : String) : Option MissReport :=
  [off, debug, warn].find? fun report => report.word == word

@[simp] theorem ofWord?_word (report : MissReport) : ofWord? report.word = some report := by
  cases report <;> decide

/-- The notice that a miss raises, if any. -/
def notice? : MissReport → Option Notice
  | off => none
  | debug => some (.unknownField .debug)
  | warn => some (.unknownField .warn)

end MissReport

/-- The choices of a deployment. -/
structure Settings where
  /-- The most mask words that a values block may carry. -/
  maxMaskWords : UInt8 := 255
  onMiss : MissReport := .warn
deriving DecidableEq, Repr, Inhabited

inductive SettingsFault where
  /-- The file cannot be read as text. -/
  | unreadable
  /-- The document is not a settings document. -/
  | malformed
  | noMaskWords
  /-- The shared catalog already has its settings. -/
  | alreadyInstalled
deriving DecidableEq, Repr

def SettingsFault.message : SettingsFault → String
  | unreadable => "failed to read configuration"
  | malformed => "invalid configuration: not a settings document"
  | noMaskWords => "invalid configuration: max_mask_words must be at least 1"
  | alreadyInstalled => "invalid configuration: schema registry already initialized"

namespace Settings

/-- The number of blocks that a mask may announce under these settings. -/
def maxBlocks (s : Settings) : Nat := min s.maxMaskWords.toNat maskWords * blockBits

/-- Refuses settings under which nothing but an empty schema would fit. -/
def validate (s : Settings) : Except SettingsFault Settings :=
  if s.maxMaskWords = 0 then .error .noMaskWords else .ok s

theorem maxBlocks_le (s : Settings) : s.maxBlocks ≤ maskBlocks :=
  Nat.mul_le_mul_right _ (Nat.min_le_right _ _)

end Settings

end ObjectSync
