import WordMachine.Memory
import WordMachine.Stack
import WordMachine.Instruction.Basic

/-!
# The core

The part of the machine that instructions compute with: registers, memory, stack, and the address
of the next instruction. Nothing here can fail: an update is applied after all that could stand
against it was checked, so its addresses are addresses of cells.
-/

namespace WordMachine

/-- The state that instructions compute with. -/
structure Core where
  registers : Registers := .zero
  memory : Memory := .zero
  stack : Stack := .empty
  /-- Where the next instruction starts. -/
  pc : Word := 0
deriving DecidableEq

/-- A place that holds a word. -/
inductive Location
  | cell (a : Address)
  | reg (r : Reg)
deriving DecidableEq, Repr

def Target.locate : Target → Except Exception Location
  | .memory w => (MemoryError.raise w.address).map .cell
  | .reg r    => .ok (.reg r)

/-- A change of the core. -/
inductive Update
  | pass
  /-- Put a word somewhere, and go on with the next instruction. -/
  | store (l : Location) (w : Word)
  /-- Put a word on the stack, and go on with the next instruction. -/
  | push (w : Word)
  /-- Put a word somewhere, take the one on top of the stack away, and go on with the next
  instruction. -/
  | pop (l : Location) (w : Word)
  | jump (a : Address)
  /-- Put the address of the next instruction on the stack, and go on at an address. -/
  | call (a : Address)
  /-- Take the word on top of the stack away, and go on at an address. -/
  | ret (a : Address)
deriving DecidableEq, Repr

namespace Core

def write (c : Core) (l : Location) (w : Word) : Core :=
  let ⟨registers, memory, stack, pc⟩ := c
  match l with
  | .cell a => ⟨registers, memory.set a w, stack, pc⟩
  | .reg r  => ⟨registers.set r w, memory, stack, pc⟩

def goto (c : Core) (pc : Word) : Core := { c with pc := pc }

def push (c : Core) (w : Word) : Core :=
  let ⟨registers, memory, stack, pc⟩ := c
  ⟨registers, memory, stack.push w, pc⟩

def pop (c : Core) : Core :=
  let ⟨registers, memory, stack, pc⟩ := c
  ⟨registers, memory, stack.pop, pc⟩

/-- Carry out an update of an instruction that the given address follows. -/
def apply (c : Core) (next : Word) : Update → Core
  | .pass      => c.goto next
  | .store l w => (c.write l w).goto next
  | .push w    => (c.push w).goto next
  | .pop l w   => ((c.write l w).pop).goto next
  | .jump a    => c.goto (Word.ofAddress a)
  | .call a    => (c.push next).goto (Word.ofAddress a)
  | .ret a     => c.pop.goto (Word.ofAddress a)

section Fields

variable (c : Core) (l : Location) (w : Word) (a : Address) (r : Reg)

@[simp] theorem registers_goto : (c.goto w).registers = c.registers := rfl
@[simp] theorem memory_goto : (c.goto w).memory = c.memory := rfl
@[simp] theorem stack_goto : (c.goto w).stack = c.stack := rfl
@[simp] theorem pc_goto : (c.goto w).pc = w := rfl

@[simp] theorem registers_push : (c.push w).registers = c.registers := rfl
@[simp] theorem memory_push : (c.push w).memory = c.memory := rfl
@[simp] theorem stack_push : (c.push w).stack = c.stack.push w := rfl
@[simp] theorem pc_push : (c.push w).pc = c.pc := rfl

@[simp] theorem registers_pop : c.pop.registers = c.registers := rfl
@[simp] theorem memory_pop : c.pop.memory = c.memory := rfl
@[simp] theorem stack_pop : c.pop.stack = c.stack.pop := rfl
@[simp] theorem pc_pop : c.pop.pc = c.pc := rfl

@[simp] theorem registers_write_cell : (c.write (.cell a) w).registers = c.registers := rfl
@[simp] theorem memory_write_cell : (c.write (.cell a) w).memory = c.memory.set a w := rfl
@[simp] theorem registers_write_reg : (c.write (.reg r) w).registers = c.registers.set r w := rfl
@[simp] theorem memory_write_reg : (c.write (.reg r) w).memory = c.memory := rfl

@[simp] theorem stack_write : (c.write l w).stack = c.stack := by
  cases l <;> rfl

@[simp] theorem pc_write : (c.write l w).pc = c.pc := by
  cases l <;> rfl

end Fields

/-! ### Fetching -/

/-- Read the word at an address as part of an instruction. -/
def fetchWord (c : Core) (w : Word) : Except Exception Word := MemoryError.raise (c.memory.get w)

/-- Read the instruction that starts at `pc`. First its number is looked at, then all its operand
words are read, and then they are understood, each from left to right. -/
def fetch (c : Core) : Except Exception Instruction := do
  let op ← Opcode.decode (← c.fetchWord c.pc)
  let operand (i : Nat) : Except Exception Word :=
    if i ≤ op.arity then c.fetchWord (c.pc + UInt16.ofNat i) else .ok 0
  let x ← operand 1
  let y ← operand 2
  let z ← operand 3
  Instruction.decode op x y z

end Core

end WordMachine
