/-!
# Decimal numbers

A number is one or more digits, with a sign in front where one is allowed. Nothing else may stand around it.
-/

namespace ChipEight.Text

/-- The number that one or more digits write. -/
def digitsValue? (cs : List Char) : Option Nat :=
  if cs.isEmpty || !cs.all Char.isDigit then none
  else some (cs.foldl (fun n c => 10 * n + (c.toNat - '0'.toNat)) 0)

/-- A number below a bound, with a plus sign or without one. -/
def natBelow? (bound : Nat) (text : String) : Option Nat := do
  let n ← match text.toList with
    | '+' :: rest => digitsValue? rest
    | cs => digitsValue? cs
  if n < bound then some n else none

/-- A number below a bound, with a sign or without one. A minus sign leaves nothing but zero. -/
def signedBelow? (bound : Nat) (text : String) : Option Nat :=
  match text.toList with
  | '-' :: rest => (digitsValue? rest).bind fun n => if n = 0 then some 0 else none
  | _ => natBelow? bound text

end ChipEight.Text
