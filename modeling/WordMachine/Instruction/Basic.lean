import WordMachine.Opcode

/-!
# Instructions

An instruction with typed operands. It is read from a kind of instruction and the three words that
follow, of which it looks at as many as the kind has operands, from left to right; `encode` gives
back the words it was read from.
-/

namespace WordMachine

inductive Instruction
  | halt
  /-- Put a value into a register. -/
  | set (dst : Reg) (value : Value)
  /-- Put a value on the stack. -/
  | push (value : Value)
  /-- Take a value from the stack. -/
  | pop (dst : Target)
  /-- Combine two values. -/
  | binary (op : BinaryOp) (dst : Target) (a b : Value)
  /-- Go on at an address. -/
  | jmp (address : Value)
  /-- Go on at an address if the condition is not zero. -/
  | jt (condition address : Value)
  /-- Go on at an address if the condition is zero. -/
  | jf (condition address : Value)
  /-- Invert the bits of a value. -/
  | not (dst : Target) (a : Value)
  /-- Read the memory cell at an address. -/
  | rmem (dst : Target) (address : Value)
  /-- Write the memory cell at an address. -/
  | wmem (address value : Value)
  /-- Put the address of the next instruction on the stack and go on at an address. -/
  | call (address : Value)
  /-- Take an address from the stack and go on there. -/
  | ret
  | out (value : Value)
  | read (dst : Target)
  | noop
deriving DecidableEq, Repr

namespace Instruction

def opcode : Instruction → Opcode
  | halt            => .halt
  | set _ _         => .set
  | push _          => .push
  | pop _           => .pop
  | binary op _ _ _ => .binary op
  | jmp _           => .jmp
  | jt _ _          => .jt
  | jf _ _          => .jf
  | not _ _         => .not
  | rmem _ _        => .rmem
  | wmem _ _        => .wmem
  | call _          => .call
  | ret             => .ret
  | out _           => .out
  | read _          => .read
  | noop            => .noop

def width (i : Instruction) : Nat := i.opcode.width

/-! ### Reading -/

/-- A register operand. -/
def regOperand (w : Word) : Except Exception Reg := OperandError.raise (Reg.decode w)

/-- An operand that is read. -/
def valueOperand (w : Word) : Except Exception Value := OperandError.raise (Value.decode w)

/-- An operand that is written. -/
def targetOperand (w : Word) : Except Exception Target := OperandError.raise (Target.decode w)

/-- Read an instruction of a kind from the words that follow its number. The first operand in
error, from the left, decides. -/
def decode (op : Opcode) (a b c : Word) : Except Exception Instruction :=
  match op with
  | .halt      => return halt
  | .set       => return set (← regOperand a) (← valueOperand b)
  | .push      => return push (← valueOperand a)
  | .pop       => return pop (← targetOperand a)
  | .binary op => return binary op (← targetOperand a) (← valueOperand b) (← valueOperand c)
  | .jmp       => return jmp (← valueOperand a)
  | .jt        => return jt (← valueOperand a) (← valueOperand b)
  | .jf        => return jf (← valueOperand a) (← valueOperand b)
  | .not       => return not (← targetOperand a) (← valueOperand b)
  | .rmem      => return rmem (← targetOperand a) (← valueOperand b)
  | .wmem      => return wmem (← valueOperand a) (← valueOperand b)
  | .call      => return call (← valueOperand a)
  | .ret       => return ret
  | .out       => return out (← valueOperand a)
  | .read      => return read (← targetOperand a)
  | .noop      => return noop

/-! ### Writing -/

/-- The words that stand for the operands. -/
def operandWords : Instruction → List Word
  | halt | ret | noop        => []
  | set dst v                => [dst.selector, v.encode]
  | push v | out v           => [v.encode]
  | pop dst | read dst       => [dst.encode]
  | binary _ dst a b         => [dst.encode, a.encode, b.encode]
  | jmp a | call a           => [a.encode]
  | jt x y | jf x y | wmem x y => [x.encode, y.encode]
  | not dst a | rmem dst a   => [dst.encode, a.encode]

/-- The words of an instruction, as they stand in memory. -/
def encode (i : Instruction) : List Word := i.opcode.tag :: i.operandWords

@[simp] theorem length_operandWords (i : Instruction) :
    i.operandWords.length = i.opcode.arity := by
  cases i <;> rfl

@[simp] theorem length_encode (i : Instruction) : i.encode.length = i.width := by
  simp [encode, width, Opcode.width]

end Instruction

end WordMachine
