import ObjectSync.Bytes.Hex

/-!
# Tokens of a settings document

Settings documents are written in TOML. Its tokens are words (bare keys and integers alike), quoted
texts, marks and line ends; blanks and comments only separate them. `Token.scan?` refuses a document
that holds a character no token can hold, such as a control character or a carriage return that
ends no line.
-/

namespace ObjectSync.Document

inductive Token where
  /-- A bare key or an integer. -/
  | word (chars : List Char)
  /-- A quoted text. Only a text in single rather than triple quotes may be a key. -/
  | text (chars : List Char) (canBeKey : Bool)
  | mark (c : Char)
  | lineEnd
deriving DecidableEq, Repr

namespace Token

def isBlank (c : Char) : Bool := c == ' ' || c == '\t'

/-- A character that a comment or a quoted text may hold. -/
def isPrintable (c : Char) : Bool := c == '\t' || (' ' ≤ c && c != '\x7f')

/-- A character of a bare key or an integer. -/
def isWordChar (c : Char) : Bool := c.isAlphanum || c == '_' || c == '-' || c == '+'

/-- The number that digits spell in base 16. -/
def hexNumber? (digits : List Char) : Option Nat :=
  digits.foldlM (fun value c => return value * 16 + (← Bytes.hexValue? c)) 0

/-- The character with the number written in the first `count` characters. -/
def numbered? (count : Nat) (chars : List Char) : Option Char := do
  let digits := chars.take count
  guard (digits.length == count)
  let value ← hexNumber? digits
  guard value.isValidChar
  return Char.ofNat value

/-- The character that stands behind a backslash, and how many characters spell it. -/
def escape? : List Char → Option (Char × Nat)
  | 'b' :: _ => some ('\x08', 1)
  | 't' :: _ => some ('\t', 1)
  | 'n' :: _ => some ('\n', 1)
  | 'f' :: _ => some ('\x0c', 1)
  | 'r' :: _ => some ('\r', 1)
  | '"' :: _ => some ('"', 1)
  | '\\' :: _ => some ('\\', 1)
  | 'u' :: digits => do return (← numbered? 4 digits, 5)
  | 'U' :: digits => do return (← numbered? 8 digits, 9)
  | _ => none

/-- The blanks and lines that a backslash at the end of a line joins, if it stands at one. -/
def joined? (chars : List Char) : Option Nat := do
  guard ((chars.dropWhile isBlank).head? == some '\n')
  return (chars.takeWhile fun c => isBlank c || c == '\n').length

/-- A text up to its closing double quote, and how many characters it takes with the quote. -/
def escapedText? : List Char → Option (List Char × Nat)
  | [] => none
  | '"' :: _ => some ([], 1)
  | '\\' :: rest => do
    let (c, taken) ← escape? rest
    let (content, length) ← escapedText? (rest.drop taken)
    return (c :: content, 1 + taken + length)
  | c :: rest =>
    if isPrintable c then do
      let (content, length) ← escapedText? rest
      return (c :: content, 1 + length)
    else none
termination_by chars => chars.length

/-- A text over several lines up to three closing double quotes, and how many characters it takes
with them. -/
def escapedLines? : List Char → Option (List Char × Nat)
  | [] => none
  | '"' :: '"' :: '"' :: _ => some ([], 3)
  | '\\' :: rest =>
    match joined? rest with
    | some gap => do
      let (content, length) ← escapedLines? (rest.drop gap)
      return (content, 1 + gap + length)
    | none => do
      let (c, taken) ← escape? rest
      let (content, length) ← escapedLines? (rest.drop taken)
      return (c :: content, 1 + taken + length)
  | c :: rest =>
    if isPrintable c || c == '\n' then do
      let (content, length) ← escapedLines? rest
      return (c :: content, 1 + length)
    else none
termination_by chars => chars.length

/-- A text without escapes up to its closing quote, and how many characters it takes with it. -/
def plainText? : List Char → Option (List Char × Nat)
  | [] => none
  | '\x27' :: _ => some ([], 1)
  | c :: rest =>
    if isPrintable c then do
      let (content, length) ← plainText? rest
      return (c :: content, 1 + length)
    else none

/-- A text without escapes over several lines up to three closing quotes, and how many characters
it takes with them. -/
def plainLines? : List Char → Option (List Char × Nat)
  | [] => none
  | '\x27' :: '\x27' :: '\x27' :: _ => some ([], 3)
  | c :: rest =>
    if isPrintable c || c == '\n' then do
      let (content, length) ← plainLines? rest
      return (c :: content, 1 + length)
    else none

/-- How many characters a line end right behind opening quotes takes. It is no part of the text. -/
def leadingLineEnd : List Char → Nat
  | '\n' :: _ => 1
  | _ => 0

/-- The token at the front of a list of characters that does not start with a blank, a comment or a
line end, and how many characters it takes behind its first one. -/
def next? : List Char → Option (Token × Nat)
  | '"' :: '"' :: '"' :: rest => do
    let lead := leadingLineEnd rest
    let (content, length) ← escapedLines? (rest.drop lead)
    return (.text content false, 2 + lead + length)
  | '\x27' :: '\x27' :: '\x27' :: rest => do
    let lead := leadingLineEnd rest
    let (content, length) ← plainLines? (rest.drop lead)
    return (.text content false, 2 + lead + length)
  | '"' :: rest => do
    let (content, length) ← escapedText? rest
    return (.text content true, length)
  | '\x27' :: rest => do
    let (content, length) ← plainText? rest
    return (.text content true, length)
  | c :: rest =>
    if isWordChar c then
      let more := rest.takeWhile isWordChar
      some (.word (c :: more), more.length)
    else if c ∈ ['=', '.', ',', '[', ']', '\x7b', '\x7d'] then some (.mark c, 0)
    else none
  | [] => none

/-- The tokens of a document whose lines end in line feeds. -/
def scan? : List Char → Option (List Token)
  | [] => some []
  | '\n' :: rest => return .lineEnd :: (← scan? rest)
  | '#' :: rest => scan? (rest.drop (rest.takeWhile isPrintable).length)
  | c :: rest =>
    if isBlank c then scan? rest
    else do
      let (token, taken) ← next? (c :: rest)
      return token :: (← scan? (rest.drop taken))
termination_by chars => chars.length

end Token

/-- The same lines, each with a line feed at its end. -/
def unifyLineEnds : List Char → List Char
  | '\r' :: '\n' :: rest => '\n' :: unifyLineEnds rest
  | c :: rest => c :: unifyLineEnds rest
  | [] => []

/-- The tokens of a document. A byte order mark may open it. -/
def tokens? (source : String) : Option (List Token) :=
  match unifyLineEnds source.toList with
  | '\ufeff' :: rest => Token.scan? rest
  | chars => Token.scan? chars

end ObjectSync.Document
