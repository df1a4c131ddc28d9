import ObjectSync.Bytes.Basic
import ObjectSync.Notice

/-!
# Counted lists

A list is sent behind the number of its items. A list may announce at most `longest` items; what
stands behind them is left out, and a notice says so.
-/

namespace ObjectSync.Bytes

/-- The most items that a list may announce. -/
def longest : Nat := 65535

/-- The number that a list of the given length announces. -/
def announced (length : Nat) : Nat := min length longest

/-- The count of a list of the given length. -/
def count (length : Nat) : Logged Bytes where
  value := u32 (UInt32.ofNat (announced length))
  notices := if longest < length then [.listTruncated] else []

/-- The count, then the items that it announces. -/
def counted {α : Type} (encode : α → Logged Bytes) (items : List α) : Logged Bytes :=
  count items.length ++ Logged.flatten ((items.take longest).map encode)

end ObjectSync.Bytes
