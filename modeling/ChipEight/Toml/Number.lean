import ChipEight.Toml.Text
import ChipEight.Toml.Value

/-!
# TOML numbers

Integers have 64 bits with a sign. They are decimal, or without a sign hexadecimal, octal or binary; a decimal number has no zero
in front. Underscores may stand between digits. Floating-point numbers are kept as text, but one that is too large for a double is
refused.
-/

namespace ChipEight.Toml.Scan

/-- Digits, perhaps with single underscores between them. The underscores are left out. -/
def digitsWith (p : Char → Bool) : Scan (List Char) := do
  let first ← satisfy p
  let others ← many (satisfy p <|> (char '_' *> satisfy p))
  return first :: others

/-- Decimal digits. -/
def digits : Scan (List Char) := digitsWith Char.isDigit

/-- A sign, if there is one: whether the number is negative, and the text of the sign. -/
def sign : Scan (Bool × List Char) :=
  (char '-' *> pure (true, ['-'])) <|> (char '+' *> pure (false, ['+'])) <|> pure (false, [])

/-- Decimal digits without a zero in front of others. -/
def plainDigits : Scan (List Char) := do
  if (← peek) = some '0' then
    char '0'
    return ['0']
  else digits

/-- An integer that fits into 64 bits with a sign. -/
def fitting (n : Int) : Scan Int := if -0x8000000000000000 ≤ n ∧ n < 0x8000000000000000 then return n else failure

/-- The digits of a number behind the mark of its base. -/
def marked (mark : String) (base : Nat) (p : Char → Bool) : Scan Int := do
  text mark
  fitting (numberOf base (← digitsWith p))

/-- An integer. -/
def integer : Scan Int :=
  marked "0x" 16 isHexDigit <|> marked "0o" 8 (fun c => '0' ≤ c && c ≤ '7') <|>
    marked "0b" 2 (fun c => c == '0' || c == '1') <|> do
      let (negative, _) ← sign
      let n := numberOf 10 (← plainDigits)
      fitting (if negative then -n else n)

/-- Whether `m * 10 ^ e` is nearer to the power of two behind the largest double than to that double. -/
def exceedsDouble (m : Nat) (e : Int) : Bool :=
  let length : Int := (Nat.toDigits 10 m).length
  if m = 0 ∨ length + e < 300 then false
  else if 310 < length + e then true
  else
    let bound := Nat.pow 2 1024 - Nat.pow 2 970
    if 0 ≤ e then decide (bound ≤ m * Nat.pow 10 e.toNat) else decide (bound * Nat.pow 10 (-e).toNat ≤ m)

/-- The exponent of a number: its value and its text. -/
def exponent : Scan (Int × List Char) := do
  let mark ← satisfy fun c => c == 'e' || c == 'E'
  let (negative, signText) ← sign
  let ds ← digits
  let n : Int := numberOf 10 ds
  return (if negative then -n else n, mark :: signText ++ ds)

/-- A decimal fraction with its point. -/
def fraction : Scan (List Char) := do
  char '.'
  digits

/-- A floating-point number in digits, with a fraction, an exponent or both. -/
def decimalFloat : Scan String := do
  let (negative, signText) ← sign
  let whole ← plainDigits
  let part ← maybe fraction
  let power ← if part.isSome then maybe exponent else some <$> exponent
  let places := part.getD []
  let (e, powerText) := power.getD (0, [])
  if !negative && exceedsDouble (numberOf 10 (whole ++ places)) (e - places.length) then failure
  return String.ofList (signText ++ whole ++ (if part.isSome then '.' :: places else []) ++ powerText)

/-- An infinity, or what is not a number. -/
def specialFloat : Scan String := do
  let (_, signText) ← sign
  let name ← (text "inf" *> pure "inf") <|> (text "nan" *> pure "nan")
  return String.ofList signText ++ name

/-- A floating-point number. -/
def float : Scan String := decimalFloat <|> specialFloat

/-- A truth value. -/
def boolean : Scan Bool := (text "true" *> pure true) <|> (text "false" *> pure false)

end ChipEight.Toml.Scan
