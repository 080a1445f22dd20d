import WordMachine.Text.Code
import WordMachine.Text.Invisible

/-!
# Quoted text

A character or a string between quotes. The quote in use, the backslash and the usual controls
are written with a backslash; any other character that shows nothing is written by its code.
-/

namespace WordMachine.Text

/-- One character of a text between the given quotes. -/
def quoteChar (quote c : Char) : String :=
  if c = '\x00' then "\\0"
  else if c = '\t' then "\\t"
  else if c = '\n' then "\\n"
  else if c = '\r' then "\\r"
  else if c = '\\' then "\\\\"
  else if c = quote then "\\" ++ String.singleton c
  else if isInvisible c then bracedCode c
  else String.singleton c

/-- A character between single quotes. -/
def quotedChar (c : Char) : String := "'" ++ quoteChar '\'' c ++ "'"

/-- A text between double quotes. -/
def quoted (s : String) : String :=
  "\"" ++ String.join (s.toList.map (quoteChar '"')) ++ "\""

/-- Characters between single quotes, in brackets. -/
def quotedChars (cs : List Char) : String :=
  "[" ++ ", ".intercalate (cs.map quotedChar) ++ "]"

end WordMachine.Text
