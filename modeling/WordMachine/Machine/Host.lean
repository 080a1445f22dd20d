import WordMachine.Machine.Basic

/-!
# The machine from outside

The program that owns a machine may change the core between steps, without the checks that
instructions are held to, and connect the console to something else. None of this changes the
count of cycles, the output, or whether the machine has halted.
-/

namespace WordMachine.Machine

/-! ### The core -/

def modifyCore (m : Machine) (f : Core → Core) : Machine :=
  let ⟨core, console, cycles, halted⟩ := m
  ⟨f core, console, cycles, halted⟩

/-- Put back a core that was kept. -/
def restore (m : Machine) (core : Core) : Machine := m.modifyCore fun _ => core

/-- Put words into the first registers. -/
def setRegisters (m : Machine) (ws : List Word) : Machine :=
  m.modifyCore fun c => { c with registers := c.registers.setAll ws }

def setRegister (m : Machine) (r : Reg) (w : Word) : Machine :=
  m.modifyCore fun c => { c with registers := c.registers.set r w }

def setPc (m : Machine) (w : Word) : Machine := m.modifyCore fun c => c.goto w

def modifyStack (m : Machine) (f : Stack → Stack) : Machine :=
  m.modifyCore fun ⟨registers, memory, stack, pc⟩ => ⟨registers, memory, f stack, pc⟩

/-- Write words to consecutive addresses. The first address that is none ends the writing. -/
def setMemory (m : Machine) (start : Word) (ws : List Word) : Except Exception Unit × Machine :=
  let ⟨⟨registers, memory, stack, pc⟩, console, cycles, halted⟩ := m
  let (error, memory) := memory.setFrom start ws
  (MemoryError.raise (error.elim (.ok ()) .error),
    ⟨⟨registers, memory, stack, pc⟩, console, cycles, halted⟩)

/-! ### The console -/

def modifyConsole (m : Machine) (f : Console → Console) : Machine :=
  let ⟨core, console, cycles, halted⟩ := m
  ⟨core, f console, cycles, halted⟩

/-- Add characters to those that wait to be read. -/
def queueInput (m : Machine) (cs : List Char) : Machine := m.modifyConsole fun con => con.queue cs

/-- Read lines from another source. -/
def attachSource (m : Machine) (source : Source) : Machine :=
  m.modifyConsole fun con => { con with source := source }

/-- Copy the output to another sink, which has accepted nothing so far. -/
def attachSink (m : Machine) (policy : Sink.Policy) : Machine :=
  m.modifyConsole fun con => { con with sink := some { policy := policy } }

/-! ### Looking at it -/

/-- The machine written as the record it is, its memory and console left out. -/
def inspect (m : Machine) : String :=
  "Computer \x7b registers: " ++ m.core.registers.inspect ++ ", pc: " ++ m.core.pc.text ++
    ", stack: " ++ m.core.stack.text ++ ", memory: [...] \x7d"

end WordMachine.Machine
