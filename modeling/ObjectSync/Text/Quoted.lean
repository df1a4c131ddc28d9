import ObjectSync.Text.Unprinted

/-!
# Quoted names

A name inside an error text stands in double quotes. A quote and a backslash are escaped by a
backslash, a tab, a line feed, a carriage return and a null have their letter, and every other
character of `isUnprinted` is given by its number in lower-case hexadecimal. All else, the single
quote included, stands for itself.

```text
tab<HT>here  ->  "tab\there"
```
-/

namespace ObjectSync.Text

/-- A character as it stands between the quotes. -/
def quotedChar (c : Char) : List Char :=
  match c with
  | '"' => ['\\', '"']
  | '\\' => ['\\', '\\']
  | '\t' => ['\\', 't']
  | '\n' => ['\\', 'n']
  | '\r' => ['\\', 'r']
  | '\x00' => ['\\', '0']
  | _ =>
    if isUnprinted c then ['\\', 'u', '\x7b'] ++ Nat.toDigits 16 c.toNat ++ ['\x7d'] else [c]

def quoted (name : String) : String :=
  String.ofList ('"' :: name.toList.flatMap quotedChar ++ ['"'])

end ObjectSync.Text
