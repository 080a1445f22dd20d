/-!
# Characters by their codes

How a character is written that should not appear itself: a backslash, a letter and its code in
hexadecimal digits.
-/

namespace WordMachine.Text

/-- The code of a character in hexadecimal digits. -/
def hexCode (c : Char) : String := String.ofList (Nat.toDigits 16 c.toNat)

/-- Hexadecimal digits in a short code. -/
def shortCodeDigits : Nat := 2

/-- A character by its code, filled up with zeros on its left. -/
def shortCode (c : Char) : String :=
  "\\x" ++ "".pushn '0' (shortCodeDigits - (hexCode c).length) ++ hexCode c

/-- A character by its code in braces. -/
def bracedCode (c : Char) : String := "\\u\x7b" ++ hexCode c ++ "\x7d"

end WordMachine.Text
