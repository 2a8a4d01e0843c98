import ChipEight.Toml.Scan

/-!
# TOML strings

Four forms: in double quotes, with escapes, or in apostrophes, without; and each of them on one line in one mark, or on several in
three. A run of one or two marks may stand inside the long forms, also right before the end.
-/

namespace ChipEight.Toml.Scan

/-- The mark of strings with escapes. -/
def quote : Char := '"'

/-- The mark of strings without escapes. -/
def apostrophe : Char := '\x27'

/-- The value of a hexadecimal digit. -/
def hexValue (c : Char) : Nat :=
  if c.isDigit then c.toNat - '0'.toNat else c.toLower.toNat - 'a'.toNat + 10

/-- Whether a character is a hexadecimal digit. -/
def isHexDigit (c : Char) : Bool := c.isDigit || ('a' ≤ c && c ≤ 'f') || ('A' ≤ c && c ≤ 'F')

/-- The number that digits of a base write. -/
def numberOf (base : Nat) (digits : List Char) : Nat := digits.foldl (fun n c => base * n + hexValue c) 0

/-- The character with a code of so many digits. Surrogates and numbers beyond the last character have none. -/
def codePoint (digits : Nat) : Scan Char := do
  let code := numberOf 16 (← takeExactly isHexDigit digits)
  if code.isValidChar then return Char.ofNat code else failure

/-- An escape. -/
def escape : Scan Char := do
  char '\\'
  match ← satisfy fun _ => true with
  | 'b' => return '\x08'
  | 't' => return '\t'
  | 'n' => return '\n'
  | 'f' => return '\x0c'
  | 'r' => return '\r'
  | '"' => return '"'
  | '\\' => return '\\'
  | 'u' => codePoint 4
  | 'U' => codePoint 8
  | _ => failure

/-- A character of a string with escapes, as it stands. -/
def unescaped : Scan Char := satisfy fun c => isPlain c && c != quote && c != '\\'

/-- A string in double quotes. -/
def basicString : Scan String := do
  char quote
  let body ← many (unescaped <|> escape)
  char quote
  return String.ofList body

/-- A string in apostrophes. -/
def literalString : Scan String := do
  char apostrophe
  let body ← takeWhile fun c => isPlain c && c != apostrophe
  char apostrophe
  return String.ofList body

/-- A backslash before the end of a line, and everything up to what is next to be seen. -/
def lineContinuation : Scan Unit := do
  char '\\'
  blanks
  newline
  let _ ← many (newline <|> (satisfy (fun c => c == ' ' || c == '\t') *> pure ()))

/-- One or two marks that no further mark follows. -/
def innerMarks (mark : Char) : Scan (List Char) := do
  let marks ← takeSome (· == mark)
  if marks.length ≤ 2 && (← peek).isSome then return marks else failure

/-- Three marks that end a string, and up to two before them that belong to it. -/
def closingMarks (mark : Char) : Scan (List Char) := do
  let inner := [mark, mark, mark]
  let two := chars inner *> chars [mark, mark] *> pure [mark, mark]
  let one := chars inner *> char mark *> pure [mark]
  two <|> one <|> (chars inner *> pure [])

/-- A long string: three marks, the end of a line that does not count, pieces, and three marks. -/
def longString (mark : Char) (piece : Scan (List Char)) : Scan String := do
  chars [mark, mark, mark]
  let _ ← maybe newline
  let pieces ← many (piece <|> (newline *> pure ['\n']) <|> innerMarks mark)
  let last ← closingMarks mark
  return String.ofList (pieces.flatten ++ last)

/-- A long string in double quotes. -/
def longBasicString : Scan String :=
  longString quote (((fun c => [c]) <$> unescaped) <|> (lineContinuation *> pure []) <|> ((fun c => [c]) <$> escape))

/-- A long string in apostrophes. -/
def longLiteralString : Scan String :=
  longString apostrophe ((fun c => [c]) <$> satisfy fun c => isPlain c && c != apostrophe)

/-- A string in any of the four forms. -/
def string : Scan String := longBasicString <|> basicString <|> longLiteralString <|> literalString

end ChipEight.Toml.Scan
