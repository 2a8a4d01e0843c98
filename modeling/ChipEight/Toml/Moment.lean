import ChipEight.Toml.Text
import ChipEight.Toml.Value

/-!
# TOML dates and times

A date, a time, or a date with a time behind `T`, `t` or a space and then perhaps an offset from universal time. Only days of the
calendar and times of the day are accepted; a second may be 60.
-/

namespace ChipEight.Toml.Scan

/-- A number of so many digits in a range. -/
def numberWithin (digits lo hi : Nat) : Scan Nat := do
  let n := numberOf 10 (← takeExactly Char.isDigit digits)
  if lo ≤ n ∧ n ≤ hi then return n else failure

/-- Whether a year has a 29th of February. -/
def isLeapYear (year : Nat) : Bool := year % 4 == 0 && (year % 100 != 0 || year % 400 == 0)

/-- How many days a month has. -/
def daysInMonth (year month : Nat) : Nat :=
  if month = 2 then if isLeapYear year then 29 else 28
  else if month = 4 ∨ month = 6 ∨ month = 9 ∨ month = 11 then 30
  else 31

/-- A date. -/
def date : Scan Date := do
  let year ← numberWithin 4 0 9999
  char '-'
  let month ← numberWithin 2 1 12
  char '-'
  let day ← numberWithin 2 1 (daysInMonth year month)
  return ⟨year, month, day⟩

/-- A time of the day. -/
def time : Scan Time := do
  let hour ← numberWithin 2 0 23
  char ':'
  let minute ← numberWithin 2 0 59
  char ':'
  let second ← numberWithin 2 0 60
  let fraction ← maybe (char '.' *> takeSome Char.isDigit)
  return ⟨hour, minute, second, String.ofList (fraction.getD [])⟩

/-- An offset, in minutes ahead of universal time. -/
def offset : Scan Int :=
  ((char 'Z' <|> char 'z') *> pure 0) <|> do
    let ahead ← (char '+' *> pure true) <|> (char '-' *> pure false)
    let hours ← numberWithin 2 0 23
    char ':'
    let minutes ← numberWithin 2 0 59
    let n : Int := hours * 60 + minutes
    return if ahead then n else -n

/-- A time behind a date, and its offset if there is one. -/
def timeOfDate : Scan (Time × Option Int) := do
  let _ ← satisfy fun c => c == 'T' || c == 't' || c == ' '
  let t ← time
  return (t, ← maybe offset)

/-- A date, a time or both. -/
def moment : Scan Moment :=
  (do
    let d ← date
    match ← maybe timeOfDate with
    | none => return ⟨some d, none, none⟩
    | some (t, o) => return ⟨some d, some t, o⟩) <|> do
    return ⟨none, some (← time), none⟩

end ChipEight.Toml.Scan
