/-!
# TOML values

The values of a TOML document. A table remembers how it came about, since that decides what may still be added to it.
-/

namespace ChipEight.Toml

/-- A day of the calendar. -/
structure Date where
  year : Nat
  month : Nat
  day : Nat
  deriving DecidableEq, Repr

/-- A time of the day. The fraction of the second is its digits as they were written. -/
structure Time where
  hour : Nat
  minute : Nat
  second : Nat
  fraction : String
  deriving DecidableEq, Repr

/-- A date, a time, or both, and then perhaps how many minutes the time is ahead of universal time. -/
structure Moment where
  date : Option Date
  time : Option Time
  offset : Option Int
  deriving DecidableEq, Repr

/-- How a table came about. -/
inductive TableKind where
  /-- It is a value in braces. Nothing can be added to it. -/
  | inline
  /-- It has a header of its own. -/
  | header
  /-- It is named on the way to a header. It may still get a header of its own. -/
  | implied
  /-- It is named on the way to a dotted key. Only dotted keys can be added to it, and headers below it. -/
  | dotted
  deriving DecidableEq, Repr

/-- A value. Tables keep their entries in the order in which they were written. -/
inductive Value where
  | string (s : String)
  | integer (n : Int)
  /-- A floating-point number as it was written. -/
  | float (text : String)
  | boolean (b : Bool)
  | moment (m : Moment)
  | array (items : List Value)
  | table (kind : TableKind) (entries : List (String × Value))
  /-- An array of tables with headers. -/
  | tables (items : List (List (String × Value)))
  deriving Repr

/-- The entries of a table. -/
abbrev Entries := List (String × Value)

end ChipEight.Toml
