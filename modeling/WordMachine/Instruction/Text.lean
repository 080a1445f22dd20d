import WordMachine.Instruction.Basic

/-!
# Texts of instructions

An instruction has two texts: its line in a listing, and the constructor applied to its operands.
-/

namespace WordMachine.Instruction

/-- Columns that the name of an instruction takes before its operands. -/
def nameColumns : Nat := 4

/-- The operands as a listing shows them. -/
def operandTexts : Instruction → List String
  | halt | ret | noop          => []
  | set dst v                  => [dst.text, v.text]
  | push v | out v             => [v.text]
  | pop dst | read dst         => [dst.text]
  | binary _ dst a b           => [dst.text, a.text, b.text]
  | jmp a | call a             => [a.text]
  | jt x y | jf x y | wmem x y => [x.text, y.text]
  | not dst a | rmem dst a     => [dst.text, a.text]

/-- The operands as constructors. -/
def operandInspections : Instruction → List String
  | halt | ret | noop          => []
  | set dst v                  => [dst.inspect, v.inspect]
  | push v | out v             => [v.inspect]
  | pop dst | read dst         => [dst.inspect]
  | binary _ dst a b           => [dst.inspect, a.inspect, b.inspect]
  | jmp a | call a             => [a.inspect]
  | jt x y | jf x y | wmem x y => [x.inspect, y.inspect]
  | not dst a | rmem dst a     => [dst.inspect, a.inspect]

/-- The line of an instruction in a listing: the name, filled up with blanks where operands
follow, and the operands between commas. -/
def text (i : Instruction) : String :=
  match i.operandTexts with
  | []       => i.opcode.name
  | operands =>
    i.opcode.name.pushn ' ' (nameColumns - i.opcode.name.length) ++ " " ++
      ", ".intercalate operands

/-- An instruction as a constructor applied to its operands. -/
def inspect (i : Instruction) : String :=
  match i.operandInspections with
  | []       => i.opcode.name.capitalize
  | operands => i.opcode.name.capitalize ++ "(" ++ ", ".intercalate operands ++ ")"

end WordMachine.Instruction
