import SimpleTypes.Text.Printable

/-!
# Quoted text

How messages quote a character, a text and a list of texts. Between the quotes
stand the printable characters. Tab, line feed, carriage return, NUL and the
backslash have short escapes, the mark that closes the quote is escaped, and
every other character is written as its code point in braces.
-/

namespace SimpleTypes.Quoted

/-- Lower-case hexadecimal digits of a code point, without leading zeros. -/
def codePoint (c : Char) : String := String.ofList (Nat.toDigits 16 c.toNat)

/-- One character between two marks `mark`. -/
def escape (mark c : Char) : String :=
  if c == '\t' then "\\t"
  else if c == '\n' then "\\n"
  else if c == '\r' then "\\r"
  else if c == '\x00' then "\\0"
  else if c == '\\' then "\\\\"
  else if c == mark then "\\" ++ c.toString
  else if isPrintable c then c.toString
  else "\\u\x7b" ++ codePoint c ++ "\x7d"

/-- A character in single quotes. -/
def char (c : Char) : String := "'" ++ escape '\x27' c ++ "'"

/-- A text in double quotes. -/
def string (text : String) : String :=
  "\"" ++ String.join (text.toList.map (escape '"')) ++ "\""

/-- Quoted texts in brackets, with commas between them. -/
def list (texts : List String) : String :=
  "[" ++ String.intercalate ", " (texts.map string) ++ "]"

end SimpleTypes.Quoted
