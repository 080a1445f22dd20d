import WordMachine.Text.Code

/-!
# Inert text

Text that a terminal shows and does not obey. The controls that ring, erase, or start a sequence
of commands are written by their codes; blanks and all other characters stay as they are.
-/

namespace WordMachine.Text

/-- The controls below 128 that a terminal obeys: bell, backspace, form feed, escape, delete. -/
def terminalControls : List Char := ['\x07', '\x08', '\x0c', '\x1b', '\x7f']

/-- Whether a character is one of the controls that follow the first 128 characters. -/
def isHighControl (c : Char) : Bool := 0x80 ≤ c.toNat && c.toNat ≤ 0x9f

/-- One character of an inert text. -/
def inertChar (c : Char) : String :=
  if c ∈ terminalControls then shortCode c
  else if isHighControl c then bracedCode c
  else String.singleton c

/-- A text without the controls that a terminal obeys. -/
def inert (s : String) : String := String.join (s.toList.map inertChar)

@[simp] theorem inert_empty : inert "" = "" := rfl

end WordMachine.Text
