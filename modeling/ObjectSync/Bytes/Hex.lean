import ObjectSync.Bytes.Basic

/-!
# Hexadecimal text

Bytes as text, two lower-case digits each, and back. Digits of either case are read.
-/

namespace ObjectSync.Bytes

def hexDigits (b : UInt8) : List Char :=
  [Nat.digitChar (b.toNat / 16), Nat.digitChar (b.toNat % 16)]

def toHex (bytes : Bytes) : String := String.ofList (bytes.flatMap hexDigits)

def hexValue? (c : Char) : Option Nat :=
  if c.isDigit then some (c.toNat - '0'.toNat)
  else if 'a' ≤ c ∧ c ≤ 'f' then some (c.toNat - 'a'.toNat + 10)
  else if 'A' ≤ c ∧ c ≤ 'F' then some (c.toNat - 'A'.toNat + 10)
  else none

/-- The bytes that pairs of digits spell, put in front of `bytes` in reverse. -/
def readHex? : List Char → (bytes : Bytes) → Option Bytes
  | [], bytes => some bytes.reverse
  | high :: low :: rest, bytes => do
    readHex? rest (UInt8.ofNat ((← hexValue? high) * 16 + (← hexValue? low)) :: bytes)
  | _, _ => none

def ofHex? (text : String) : Option Bytes := readHex? text.toList []

end ObjectSync.Bytes
