/-!
# Numbers in hexadecimal and columns of text

A number shown in hexadecimal is padded with zeros to a least width, and a column is padded with spaces on the right. Both only
ever add characters: a number or a text that is too wide for its column is shown whole.
-/

namespace ChipEight.Text

/-- The hexadecimal digits of a number, most significant first, lower case, at least `width` of them. -/
def hexDigits (width n : Nat) : List Char := (Nat.toDigits 16 n).leftpad width '0'

/-- A number in hexadecimal, at least `width` digits. -/
def hex (width n : Nat) : String := String.ofList (hexDigits width n)

/-- A number in upper-case hexadecimal, at least `width` digits. -/
def hexUpper (width n : Nat) : String := String.ofList ((hexDigits width n).map Char.toUpper)

/-- A number in hexadecimal behind the mark `0x`. -/
def hexNumber (width n : Nat) : String := "0x" ++ hex width n

/-- A text filled with spaces on the right to at least `width` characters. -/
def column (width : Nat) (s : String) : String := s ++ String.ofList (List.replicate (width - s.length) ' ')

theorem toList_hex (width n : Nat) : (hex width n).toList = hexDigits width n := by
  simp [hex]

theorem toList_column (width : Nat) (s : String) :
    (column width s).toList = s.toList ++ List.replicate (width - s.length) ' ' := by
  simp [column]

end ChipEight.Text
