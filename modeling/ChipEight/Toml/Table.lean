import ChipEight.Toml.Value

/-!
# Building tables

What the headers and keys of a document add to its tables. A key is written once; a table gets one header; dotted keys do not
reach into a table that has a header, and a table that dotted keys made gets none. Nothing is added to a value in braces.
-/

namespace ChipEight.Toml

/-- The entries with the value of a key put in place of another. -/
def Entries.replace (es : Entries) (key : String) (value : Value) : Entries :=
  es.map fun e => if e.1 == key then (key, value) else e

/-- Whether a table can be entered on the way to a dotted key (`dotted`) or to a header. -/
def TableKind.canEnter (dotted : Bool) : TableKind → Bool
  | .inline => false
  | .header => !dotted
  | .implied | .dotted => true

/-- Goes down a path of keys and changes the table at its end. Tables that are missing on the way are made; of an array of tables
the last one is meant. -/
def descend (dotted : Bool) (change : TableKind → Entries → Option Entries) :
    List String → TableKind → Entries → Option Entries
  | [], kind, es => change kind es
  | key :: path, _, es =>
    match es.lookup key with
    | none => do
      let made : TableKind := if dotted then .dotted else .implied
      let inner ← descend dotted change path made []
      return es ++ [(key, .table made inner)]
    | some (.table kind inner) =>
      if kind.canEnter dotted then do
        let inner ← descend dotted change path kind inner
        return Entries.replace es key (.table kind inner)
      else none
    | some (.tables items) =>
      match items.getLast? with
      | none => none
      | some last => do
        let inner ← descend dotted change path .header last
        return Entries.replace es key (.tables (items.dropLast ++ [inner]))
    | some _ => none

/-- Adds a new entry. Behind a dotted key it goes only into a table that dotted keys made. -/
def addEntry (dotted : Bool) (key : String) (value : Value) (kind : TableKind) (es : Entries) : Option Entries :=
  if dotted && kind != .dotted then none
  else if (es.lookup key).isSome then none
  else some (es ++ [(key, value)])

/-- Adds an entry at the end of a dotted key. -/
def addDotted (path : List String) (key : String) (value : Value) (kind : TableKind) (es : Entries) : Option Entries :=
  descend true (addEntry (!path.isEmpty) key value) path kind es

/-- Gives a table its header. -/
def openTable (key : String) (_ : TableKind) (es : Entries) : Option Entries :=
  match es.lookup key with
  | none => some (es ++ [(key, .table .header [])])
  | some (.table .implied inner) => some (Entries.replace es key (.table .header inner))
  | some _ => none

/-- Adds a table to an array of tables. -/
def openArrayItem (key : String) (_ : TableKind) (es : Entries) : Option Entries :=
  match es.lookup key with
  | none => some (es ++ [(key, .tables [[]])])
  | some (.tables items) => some (Entries.replace es key (.tables (items ++ [[]])))
  | some _ => none

end ChipEight.Toml
