import WordMachine.Fault

/-!
# Opcodes

The kinds of instruction. Each has a number, found in memory where an instruction starts, a count
of operand words that follow it, and a name. The seven kinds that combine two values into one
target differ in the operation only.
-/

namespace WordMachine

/-- An operation on two values. -/
inductive BinaryOp
  | eq
  | gt
  | add
  | mult
  | mod
  | and
  | or
deriving DecidableEq, Repr

namespace BinaryOp

/-- The result of an operation, which `mod` does not have for a zero divisor. Comparisons and
`mod` see the whole words; sums, products and remainders are reduced, and bits above the fifteenth
are masked off. -/
def eval? (op : BinaryOp) (a b : Word) : Option Word :=
  match op with
  | eq   => some (if a = b then 1 else 0)
  | gt   => some (if b < a then 1 else 0)
  | add  => some (Word.wrap (a.toNat + b.toNat))
  | mult => some (Word.wrap (a.toNat * b.toNat))
  | mod  => if b = 0 then none else some (Word.wrap (a.toNat % b.toNat))
  | and  => some (a &&& b &&& valueMask)
  | or   => some ((a ||| b) &&& valueMask)

theorem eval?_eq_none_iff (op : BinaryOp) (a b : Word) :
    op.eval? a b = none ↔ op = mod ∧ b = 0 := by
  cases op <;> simp [eval?]

/-- The sign between the operands in a log. -/
def sign : BinaryOp → String
  | eq   => "=="
  | gt   => ">"
  | add  => "+"
  | mult => "*"
  | mod  => "%"
  | and  => "&"
  | or   => "|"

/-- The sign before the result in a log. -/
def resultSign : BinaryOp → String
  | eq | gt => "=>"
  | _       => "="

end BinaryOp

/-- The fifteen bits of a word, inverted. -/
def Word.complement (w : Word) : Word := ~~~w &&& valueMask

/-- A kind of instruction. -/
inductive Opcode
  | halt
  | set
  | push
  | pop
  | binary (op : BinaryOp)
  | jmp
  | jt
  | jf
  | not
  | rmem
  | wmem
  | call
  | ret
  | out
  | read
  | noop
deriving DecidableEq, Repr

namespace Opcode

/-- The number of a kind of instruction. -/
def tag : Opcode → Word
  | halt        => 0
  | set         => 1
  | push        => 2
  | pop         => 3
  | binary .eq  => 4
  | binary .gt  => 5
  | jmp         => 6
  | jt          => 7
  | jf          => 8
  | binary .add  => 9
  | binary .mult => 10
  | binary .mod  => 11
  | binary .and  => 12
  | binary .or   => 13
  | not         => 14
  | rmem        => 15
  | wmem        => 16
  | call        => 17
  | ret         => 18
  | out         => 19
  | read        => 20
  | noop        => 21

/-- The kind of instruction with a given number. -/
def ofTag? (w : Word) : Option Opcode :=
  match w.toNat with
  | 0  => some halt
  | 1  => some set
  | 2  => some push
  | 3  => some pop
  | 4  => some (binary .eq)
  | 5  => some (binary .gt)
  | 6  => some jmp
  | 7  => some jt
  | 8  => some jf
  | 9  => some (binary .add)
  | 10 => some (binary .mult)
  | 11 => some (binary .mod)
  | 12 => some (binary .and)
  | 13 => some (binary .or)
  | 14 => some not
  | 15 => some rmem
  | 16 => some wmem
  | 17 => some call
  | 18 => some ret
  | 19 => some out
  | 20 => some read
  | 21 => some noop
  | _  => none

@[simp] theorem ofTag?_tag (op : Opcode) : ofTag? op.tag = some op := by
  cases op with
  | binary b => cases b <;> rfl
  | _        => rfl

theorem tag_of_ofTag? {w : Word} {op : Opcode} (h : ofTag? w = some op) : op.tag = w := by
  simp only [ofTag?] at h
  split at h
  all_goals first
    | contradiction
    | next hw =>
      cases h
      exact UInt16.toNat_inj.mp hw.symm

/-- The kind of instruction that a word found in memory starts. -/
def decode (w : Word) : Except Exception Opcode :=
  match ofTag? w with
  | some op => .ok op
  | none    => .error (.invalidInstruction w)

@[simp] theorem decode_tag (op : Opcode) : decode op.tag = .ok op := by
  simp [decode]

/-- Number of operand words. -/
def arity : Opcode → Nat
  | halt | ret | noop => 0
  | push | pop | jmp | call | out | read => 1
  | set | jt | jf | not | rmem | wmem => 2
  | binary _ => 3

/-- Number of words, the opcode included. -/
def width (op : Opcode) : Nat := op.arity + 1

theorem arity_le (op : Opcode) : op.arity ≤ 3 := by
  cases op <;> simp [arity]

def name : Opcode → String
  | halt         => "halt"
  | set          => "set"
  | push         => "push"
  | pop          => "pop"
  | binary .eq   => "eq"
  | binary .gt   => "gt"
  | jmp          => "jmp"
  | jt           => "jt"
  | jf           => "jf"
  | binary .add  => "add"
  | binary .mult => "mult"
  | binary .mod  => "mod"
  | binary .and  => "and"
  | binary .or   => "or"
  | not          => "not"
  | rmem         => "rmem"
  | wmem         => "wmem"
  | call         => "call"
  | ret          => "ret"
  | out          => "out"
  | read         => "in"
  | noop         => "noop"

end Opcode

end WordMachine
