import ObjectSync.Settings.Document.Token

/-!
# Tables of a settings document

A document is a table of named nodes, built line by line. No name is given twice, and a table has
one place that defines it: a header may define a table that earlier headers only implied, a dotted
key may add only to tables that dotted keys made, and nothing adds to a table that was written as a
value.

Only the values that settings can use are read: integers, texts, and lists and tables that are empty
or name one empty node. A document with any other value is refused, as its settings would be.
-/

namespace ObjectSync.Document

/-- What made a table. -/
inductive Origin where
  /-- Written out as a value. -/
  | value
  /-- Defined by its own header. -/
  | header
  /-- Named on the way to the table of a header. -/
  | implied
  /-- Named on the way to a dotted key. -/
  | dotted
deriving DecidableEq, Repr

inductive Node where
  | integer (value : Int)
  | text (chars : List Char)
  | emptyList
  | table (origin : Origin) (entries : List (List Char × Node))

/-- The entries of a table, in the order in which they were given. -/
abbrev Entries := List (List Char × Node)

namespace Entries

/-- Gives the node `name`, which the entries hold, another value. -/
def replace (entries : Entries) (name : List Char) (node : Node) : Entries :=
  entries.map fun entry => if entry.1 == name then (name, node) else entry

/-- Adds the line `path = node` to a table. -/
def assign? : Entries → List (List Char) → Node → Option Entries
  | _, [], _ => none
  | entries, [name], node =>
    if (entries.lookup name).isSome then none else some (entries ++ [(name, node)])
  | entries, name :: path, node =>
    match entries.lookup name with
    | none => do return entries ++ [(name, .table .dotted (← assign? [] path node))]
    | some (.table .dotted inner) => do
      return entries.replace name (.table .dotted (← assign? inner path node))
    | some _ => none

/-- Adds the header `[path]`. -/
def define? : Entries → List (List Char) → Option Entries
  | _, [] => none
  | entries, [name] =>
    match entries.lookup name with
    | none => some (entries ++ [(name, .table .header [])])
    | some (.table .implied inner) => some (entries.replace name (.table .header inner))
    | some _ => none
  | entries, name :: path =>
    match entries.lookup name with
    | none => do return entries ++ [(name, .table .implied (← define? [] path))]
    | some (.table .value _) => none
    | some (.table origin inner) => do
      return entries.replace name (.table origin (← define? inner path))
    | some _ => none

/-- Adds the line `path = node` below the header `[header]`. -/
def assignUnder? : Entries → List (List Char) → List (List Char) → Node → Option Entries
  | entries, [], path, node => assign? entries path node
  | entries, name :: header, path, node =>
    match entries.lookup name with
    | some (.table origin inner) => do
      return entries.replace name (.table origin (← assignUnder? inner header path node))
    | _ => none

end Entries

/-! ## Reading -/

/-- The name that a token spells as a key. -/
def Token.key? : Token → Option (List Char)
  | .word chars => if '+' ∈ chars then none else some chars
  | .text chars canBeKey => if canBeKey then some chars else none
  | _ => none

/-- The names of a dotted key, and the tokens behind it. -/
def path? : List Token → Option (List (List Char) × List Token)
  | [] => none
  | token :: .mark '.' :: rest => do
    let name ← token.key?
    let (names, rest) ← path? rest
    return (name :: names, rest)
  | token :: rest => do return ([← token.key?], rest)

/-- The number that digits of one base spell. An underscore may stand between two digits. -/
def digits? (base : Nat) (chars : List Char) : Option Nat := do
  let groups := chars.splitOn '_'
  guard (groups.all (! ·.isEmpty))
  groups.flatten.foldlM (fun value c => do
    let digit ← Bytes.hexValue? c
    guard (digit < base)
    return value * base + digit) 0

/-- The number that decimal digits without a leading zero spell. -/
def decimal? (chars : List Char) : Option Nat :=
  match chars with
  | '0' :: _ :: _ => none
  | _ => digits? 10 chars

/-- The integer that a word spells. Only a decimal one takes a sign. -/
def integer? : List Char → Option Int
  | '0' :: 'x' :: digits => (digits? 16 digits).map Int.ofNat
  | '0' :: 'o' :: digits => (digits? 8 digits).map Int.ofNat
  | '0' :: 'b' :: digits => (digits? 2 digits).map Int.ofNat
  | '+' :: digits => (decimal? digits).map Int.ofNat
  | '-' :: digits => (decimal? digits).map fun value => - Int.ofNat value
  | digits => (decimal? digits).map Int.ofNat

/-- An empty list or table, and the tokens behind it. Lines may end inside a list only. -/
def emptyNode? : List Token → Option (Node × List Token)
  | .mark '[' :: rest =>
    match rest.dropWhile (· == .lineEnd) with
    | .mark ']' :: rest => some (.emptyList, rest)
    | _ => none
  | .mark '\x7b' :: .mark '\x7d' :: rest => some (.table .value [], rest)
  | _ => none

/-- A value that settings can use, and the tokens behind it. -/
def node? : List Token → Option (Node × List Token)
  | .word chars :: rest => do return (.integer (← integer? chars), rest)
  | .text chars _ :: rest => some (.text chars, rest)
  | .mark '\x7b' :: key :: .mark '=' :: rest => do
    let name ← key.key?
    match ← emptyNode? rest with
    | (node, .mark '\x7d' :: rest) => some (.table .value [(name, node)], rest)
    | _ => none
  | tokens => emptyNode? tokens

/-- One line of a document. -/
inductive Line where
  | header (path : List (List Char))
  | assign (path : List (List Char)) (node : Node)

/-- The line at the front of the tokens, and the tokens behind it. -/
def line? : List Token → Option (Line × List Token)
  | .mark '[' :: rest => do
    match ← path? rest with
    | (path, .mark ']' :: rest) => some (.header path, rest)
    | _ => none
  | tokens => do
    match ← path? tokens with
    | (path, .mark '=' :: rest) =>
      let (node, rest) ← node? rest
      return (.assign path node, rest)
    | _ => none

/-- The lines of a document. There are no more of them than `bound`. -/
def lines? : (bound : Nat) → List Token → Option (List Line)
  | 0, _ => none
  | bound + 1, tokens =>
    match tokens.dropWhile (· == .lineEnd) with
    | [] => some []
    | tokens => do
      match ← line? tokens with
      | (line, []) => some [line]
      | (line, .lineEnd :: rest) => return line :: (← lines? bound rest)
      | _ => none

/-- The table that the lines build, below the last header among them. -/
def build? : List Line → (header : List (List Char)) → Entries → Option Entries
  | [], _, entries => some entries
  | .header path :: lines, _, entries => do build? lines path (← entries.define? path)
  | .assign path node :: lines, header, entries => do
    build? lines header (← entries.assignUnder? header path node)

/-- The table that a document spells. -/
def entries? (source : String) : Option Entries := do
  let tokens ← tokens? source
  build? (← lines? (tokens.length + 1) tokens) [] []

end ObjectSync.Document
