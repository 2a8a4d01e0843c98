import ChipEight.Toml.Moment
import ChipEight.Toml.Number
import ChipEight.Toml.Table

/-!
# TOML documents

A document is a list of entries and headers, one to a line. `Toml.read` gives the entries of its outermost table, or nothing if
the text is no document.

Arrays and tables in braces nest less than eighty deep, and a dotted key has less than eighty parts.
-/

namespace ChipEight.Toml

namespace Scan

/-- A bound above the depth of values and the number of parts of a key. -/
def depthLimit : Nat := 80

/-- A part of a key. -/
def simpleKey : Scan String :=
  basicString <|> literalString <|>
    String.ofList <$> takeSome fun c => c.isAlphanum || c == '-' || c == '_'

/-- A key: its last part, and the parts before it. -/
def key : Scan (List String × String) := do
  let parts ← separated (blanks *> simpleKey <* blanks) '.'
  match parts.getLast? with
  | some last => if parts.length < depthLimit then return (parts.dropLast, last) else failure
  | none => failure

/-- A key and its value. -/
def pair (value : Scan Value) : Scan ((List String × String) × Value) := do
  let k ← key
  char '='
  blanks
  return (k, ← value)

/-- An array of values. -/
def array (value : Scan Value) : Scan Value := do
  char '['
  let items ← separated (gap *> value <* gap) ','
  if !items.isEmpty then
    let _ ← maybe (char ',')
  gap
  char ']'
  return .array items

/-- A table in braces. -/
def inlineTable (value : Scan Value) : Scan Value := do
  char '{'
  let pairs ← separated (pair value <* blanks) ','
  blanks
  char '}'
  let entries ← pairs.foldlM (fun es p => liftM (addDotted p.1.1 p.1.2 p.2 .inline es)) []
  return .table .inline entries

/-- A value that is not made of others. -/
def scalar : Scan Value :=
  (.string <$> string) <|> (.boolean <$> boolean) <|> (.moment <$> moment) <|> (.float <$> float) <|> (.integer <$> integer)

/-- A value with arrays and tables at most so deep. -/
def value : Nat → Scan Value
  | 0 => scalar
  | depth + 1 => scalar <|> array (value depth) <|> inlineTable (value depth)

/-- A line of a document. -/
inductive Statement where
  | entry (path : List String) (key : String) (value : Value)
  | header (path : List String) (key : String)
  | arrayHeader (path : List String) (key : String)

/-- What a line that is not blank says, or nothing for a comment. -/
def statement : Scan (Option Statement) := do
  match ← peek with
  | some '#' =>
    comment
    lineEnd
    return none
  | some '[' =>
    if ← succeeds (text "[[") then
      let (path, last) ← key
      text "]]"
      trailing
      return some (.arrayHeader path last)
    else
      char '['
      let (path, last) ← key
      char ']'
      trailing
      return some (.header path last)
  | _ =>
    let ((path, last), v) ← pair (value (depthLimit - 1))
    trailing
    return some (.entry path last v)

/-- All lines of a document. A byte-order mark in front of it is skipped. -/
def document : Scan (List Statement) := do
  let _ ← maybe (char '\ufeff')
  blanks
  let lines ← many (((newline *> pure none) <|> statement) <* blanks)
  atEnd
  return lines.filterMap id

end Scan

/-- A document while it is built: the outermost table, and the path of the header that holds now. -/
structure Draft where
  root : Entries
  current : List String

/-- The draft after one more line. -/
def Draft.add (d : Draft) : Scan.Statement → Option Draft
  | .entry path key value => do
    let root ← descend false (addDotted path key value) d.current .header d.root
    return { d with root := root }
  | .header path key => do
    let root ← descend false (openTable key) path .header d.root
    return ⟨root, path ++ [key]⟩
  | .arrayHeader path key => do
    let root ← descend false (openArrayItem key) path .header d.root
    return ⟨root, path ++ [key]⟩

/-- The entries of a document. -/
def read (text : String) : Option Entries := do
  let (statements, _) ← Scan.document text.toList
  let draft ← statements.foldlM Draft.add ⟨[], []⟩
  return draft.root

end ChipEight.Toml
