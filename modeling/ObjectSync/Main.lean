import ObjectSync.Entity.Sample

/-!
# The dump program

Prints the messages for a sample player. The first argument, if there is one, names a settings
document.
-/

namespace ObjectSync

/-- The content of a file, if it can be read. -/
def readSettings (path : String) : IO (Except SettingsFault ByteArray) := do
  try
    return .ok (← IO.FS.readBinFile path)
  catch _ =>
    return .error .unreadable

end ObjectSync

open ObjectSync

/-- Prints the dump, or says why there is none. -/
def main (arguments : List String) : IO UInt32 := do
  let file ← arguments.head?.mapM readSettings
  match Sample.dumpUnder file with
  | .ok lines =>
    lines.forM IO.println
    return 0
  | .error fault =>
    IO.eprintln fault.message
    return 1
