/-!
# Notices

What the library has to report beside its results: a field name that no schema knows, a list cut to
the longest its count may announce, a span that lies outside a layout. A notice is data: a function
that may raise one returns a `Logged` value, where the notices stand in the order in which they
arose, and the caller decides whether anyone reads them.

`Logged` is a monad, and on appendable values `++` joins values and notices alike. The view of a
compound is the compound of the views: `value_bind`, `value_append`, `notices_bind`,
`notices_append`.
-/

namespace ObjectSync

/-- How urgent a notice is. -/
inductive Severity where
  | debug
  | warn
  | error
deriving DecidableEq, Repr

/-- The severity as it opens a log line. -/
def Severity.label : Severity → String
  | debug => "debug"
  | warn => "warn"
  | error => "error"

/-- Something worth reporting that does not change the result. -/
inductive Notice where
  /-- A dirty flag was asked for by a name that the schema does not declare. -/
  | unknownField (severity : Severity)
  /-- Flags that gate a payload were passed to the setter for plain flags. -/
  | payloadFlags
  /-- A list was longer than its count may announce. -/
  | listTruncated
  /-- A span ended outside the layout, or its data was cut short. -/
  | spanDropped
  /-- A record has another size than its part of the layout. -/
  | recordMismatch
  /-- The table of an entity type does not compile. -/
  | invalidSchema
  /-- The parts of a composite do not fit the mask. -/
  | invalidComposite
deriving DecidableEq, Repr

/-- How urgent the notice is. Only a name miss leaves that to the schema. -/
def Notice.severity : Notice → Severity
  | unknownField severity => severity
  | payloadFlags => .debug
  | listTruncated => .warn
  | spanDropped | recordMismatch | invalidSchema | invalidComposite => .error

def Notice.text : Notice → String
  | unknownField _ => "dirty flag for unknown field"
  | payloadFlags => "payload flags must be set through their setters"
  | listTruncated => "list longer than count prefix allows; truncated"
  | spanDropped => "dropped span outside composite layout"
  | recordMismatch => "record does not match composite layout"
  | invalidSchema => "invalid schema declaration"
  | invalidComposite => "invalid composite declaration"

/-- The notice as one log line. -/
def Notice.line (notice : Notice) : String :=
  notice.severity.label ++ ": " ++ notice.text

/-- A result together with the notices raised on the way to it, oldest first. -/
structure Logged (α : Type) where
  value : α
  notices : List Notice := []

namespace Logged

variable {α β : Type}

instance : Monad Logged where
  pure a := { value := a }
  bind l f :=
    let next := f l.value
    { value := next.value, notices := l.notices ++ next.notices }

instance [Append α] : Append (Logged α) where
  append l r := { value := l.value ++ r.value, notices := l.notices ++ r.notices }

def note (notice : Notice) : Logged Unit :=
  { value := (), notices := [notice] }

/-- Joins the values and the notices of a list of results, in order. -/
def flatten (items : List (Logged (List α))) : Logged (List α) where
  value := (items.map value).flatten
  notices := (items.map notices).flatten

@[simp] theorem value_pure (a : α) : (pure a : Logged α).value = a := rfl

@[simp] theorem notices_pure (a : α) : (pure a : Logged α).notices = [] := rfl

@[simp] theorem value_bind (l : Logged α) (f : α → Logged β) :
    (l >>= f).value = (f l.value).value := rfl

@[simp] theorem notices_bind (l : Logged α) (f : α → Logged β) :
    (l >>= f).notices = l.notices ++ (f l.value).notices := rfl

@[simp] theorem value_append [Append α] (l r : Logged α) :
    (l ++ r).value = l.value ++ r.value := rfl

@[simp] theorem notices_append [Append α] (l r : Logged α) :
    (l ++ r).notices = l.notices ++ r.notices := rfl

@[simp] theorem value_flatten (items : List (Logged (List α))) :
    (flatten items).value = (items.map value).flatten := rfl

@[simp] theorem notices_flatten (items : List (Logged (List α))) :
    (flatten items).notices = (items.map notices).flatten := rfl

end Logged

end ObjectSync
