import WordMachine.Memory
import WordMachine.Operand

/-!
# Faults

What can go wrong in a cycle. An exception is raised by the machine itself; the other faults come
from the console it is connected to. Every fault has a chain of causes, from the fault itself down
to the memory or operand error it goes back to.
-/

namespace WordMachine

/-- A condition raised by the machine itself. -/
inductive Exception
  | stackUnderflow
  | stackOverflow
  | divisionByZero
  /-- The word is the number of no instruction. -/
  | invalidInstruction (opcode : Word)
  | invalidMemoryAccess (error : MemoryError)
  | invalidArgument (error : OperandError)
  /-- The code is that of no character which the machine exchanges. -/
  | invalidCharacter (code : Nat)
deriving DecidableEq, Repr

namespace Exception

def text : Exception → String
  | stackUnderflow        => "stack underflow"
  | stackOverflow         => "stack overflow"
  | divisionByZero        => "division by zero"
  | invalidInstruction w  => "invalid instruction (opcode " ++ w.text ++ ")"
  | invalidMemoryAccess e => "invalid memory access (" ++ e.text ++ ")"
  | invalidArgument e     => "invalid argument (" ++ e.text ++ ")"
  | invalidCharacter n    => "invalid character code " ++ toString n

/-- Whether the exception is about an address, an operand or a character out of range. -/
def isAddressFault : Exception → Bool
  | invalidMemoryAccess _ | invalidArgument _ | invalidCharacter _ => true
  | _ => false

/-- The error an exception goes back to, if there is one. -/
def cause? : Exception → Option String
  | invalidMemoryAccess e => some e.text
  | invalidArgument e     => some e.text
  | _                     => none

end Exception

/-- Why a cycle was not carried out. -/
inductive Fault
  | exception (e : Exception)
  /-- The source or the sink failed, with a message of its own. -/
  | io (message : String)
  | endOfInput
deriving DecidableEq, Repr

namespace Fault

def text : Fault → String
  | exception e => "CPU exception: " ++ e.text
  | io message  => "I/O error: " ++ message
  | endOfInput  => "input source exhausted"

/-- The fault and its causes, outermost first. -/
def chain (f : Fault) : List String :=
  f.text ::
    match f with
    | exception e => e.text :: e.cause?.toList
    | io message  => [message]
    | endOfInput  => []

theorem text_ne_empty (f : Fault) : f.text ≠ "" := by
  cases f <;> simp [text]

/-- A chain starts with the text of the fault. -/
theorem head?_chain (f : Fault) : f.chain.head? = some f.text := rfl

end Fault

/-! ### Errors as exceptions -/

/-- A refused access as an exception. -/
def MemoryError.raise {α : Type} (x : Except MemoryError α) : Except Exception α :=
  x.mapError .invalidMemoryAccess

/-- A refused operand as an exception. -/
def OperandError.raise {α : Type} (x : Except OperandError α) : Except Exception α :=
  x.mapError .invalidArgument

@[simp] theorem MemoryError.raise_ok {α : Type} (a : α) :
    MemoryError.raise (.ok a : Except MemoryError α) = .ok a := rfl

@[simp] theorem MemoryError.raise_error {α : Type} (e : MemoryError) :
    MemoryError.raise (.error e : Except MemoryError α) = .error (.invalidMemoryAccess e) := rfl

@[simp] theorem OperandError.raise_ok {α : Type} (a : α) :
    OperandError.raise (.ok a : Except OperandError α) = .ok a := rfl

@[simp] theorem OperandError.raise_error {α : Type} (e : OperandError) :
    OperandError.raise (.error e : Except OperandError α) = .error (.invalidArgument e) := rfl

end WordMachine
