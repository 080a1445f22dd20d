import WordMachine.Action
import WordMachine.Console.Basic
import WordMachine.Log.Event

/-!
# The machine

A machine is a core connected to a console, with a count of the cycles carried out. One step is
one cycle: fetch an instruction, settle what it does, and do it.

A step that fails leaves the core, the count and the output as they were. A machine that has
halted stays so, and a step of it does nothing.
-/

namespace WordMachine

/-- A core connected to a console. -/
structure Machine where
  core : Core := {}
  console : Console := {}
  /-- Number of cycles carried out. -/
  cycles : Nat := 0
  halted : Bool := false

/-- What a step was. -/
inductive Step
  | continued
  | halted
deriving DecidableEq, Repr

/-- What comes of one step. -/
structure StepReport where
  result : Except Fault Step
  machine : Machine
  events : List Event

namespace Machine

/-- A machine with a program in its memory. -/
def load (program : List Word) : Except MemoryError Machine :=
  (Memory.load program).map fun memory => { core := { memory := memory } }

/-! ### Doing what was settled -/

/-- What comes of an action. -/
structure Effect where
  result : Except Fault Step
  machine : Machine
  notes : List Note

/-- A cycle that changes the core. -/
def update (m : Machine) (next : Word) (u : Update) : Machine :=
  let ⟨core, console, cycles, halted⟩ := m
  ⟨core.apply next u, console, cycles + 1, halted⟩

section Fields

variable (m : Machine) (next : Word) (u : Update)

@[simp] theorem core_update : (m.update next u).core = m.core.apply next u := rfl
@[simp] theorem console_update : (m.update next u).console = m.console := rfl
@[simp] theorem cycles_update : (m.update next u).cycles = m.cycles + 1 := rfl
@[simp] theorem halted_update : (m.update next u).halted = m.halted := rfl

end Fields

/-- Write a character, and go on with the next instruction. -/
def print (m : Machine) (next : Word) (c : Char) : Effect :=
  let ⟨core, console, cycles, halted⟩ := m
  match console.put c with
  | (.ok (), console)         => ⟨.ok .continued, ⟨core.goto next, console, cycles + 1, halted⟩, []⟩
  | (.error message, console) => ⟨.error (.io message), ⟨core, console, cycles, halted⟩, []⟩

/-- Read a character, put its code somewhere, and go on with the next instruction. A character
that has no word stays in the queue. -/
def read (m : Machine) (next : Word) (l : Location) : Effect :=
  let ⟨core, console, cycles, halted⟩ := m
  let ⟨result, console, notes⟩ := console.peek
  match result with
  | .error fault => ⟨.error fault, ⟨core, console, cycles, halted⟩, notes⟩
  | .ok c        =>
    match Word.ofChar? c with
    | none   =>
      ⟨.error (.exception (.invalidCharacter c.toNat)), ⟨core, console, cycles, halted⟩, notes⟩
    | some w =>
      ⟨.ok .continued, ⟨core.apply next (.store l w), console.advance, cycles + 1, halted⟩,
        notes ++ [.received c]⟩

/-- Do what was settled for an instruction that the given address follows. -/
def perform (m : Machine) (next : Word) : Action → Effect
  | .halt     => ⟨.ok .halted, { m with cycles := m.cycles + 1, halted := true }, []⟩
  | .update u => ⟨.ok .continued, m.update next u, []⟩
  | .print c  => m.print next c
  | .read l   => m.read next l

/-! ### One step -/

def execute (m : Machine) (i : Instruction) : Effect :=
  match i.resolve m.core with
  | ⟨notes, .error e⟩   => ⟨.error (.exception e), m, notes⟩
  | ⟨notes, .ok action⟩ =>
    let effect := m.perform (m.core.pc + UInt16.ofNat i.width) action
    { effect with notes := notes ++ effect.notes }

/-- The event of a step that stopped the machine. -/
def haltEvents (m : Machine) : Except Fault Step → List Event
  | .ok .halted => [.halted m.core.pc m.cycles]
  | _           => []

/-- One cycle. -/
def step (m : Machine) : StepReport :=
  if m.halted then ⟨.ok .halted, m, []⟩
  else
    match m.core.fetch with
    | .error e => ⟨.error (.exception e), m, [.undecodable (.exception e)]⟩
    | .ok i    =>
      let pc := m.core.pc
      let effect := m.execute i
      ⟨effect.result, effect.machine,
        .executing pc i :: effect.notes.map (.during i) ++ effect.machine.haltEvents effect.result⟩

theorem step_of_halted {m : Machine} (h : m.halted = true) : m.step = ⟨.ok .halted, m, []⟩ := by
  simp [step, h]

/-- Without an instruction at `pc` there is nothing to do. -/
theorem step_of_fetch_error {m : Machine} {e : Exception} (h : m.halted = false)
    (hf : m.core.fetch = .error e) :
    m.step = ⟨.error (.exception e), m, [.undecodable (.exception e)]⟩ := by
  simp [step, h, hf]

/-- Otherwise the instruction at `pc` is carried out. -/
theorem result_step_of_fetch {m : Machine} {i : Instruction} (h : m.halted = false)
    (hf : m.core.fetch = .ok i) : m.step.result = (m.execute i).result := by
  simp [step, h, hf]

theorem machine_step_of_fetch {m : Machine} {i : Instruction} (h : m.halted = false)
    (hf : m.core.fetch = .ok i) : m.step.machine = (m.execute i).machine := by
  simp [step, h, hf]

theorem execute_of_refused {m : Machine} {i : Instruction} {e : Exception}
    (h : (i.resolve m.core).result = .error e) :
    m.execute i = ⟨.error (.exception e), m, (i.resolve m.core).notes⟩ := by
  rcases hr : i.resolve m.core with ⟨notes, result⟩
  simp only [hr] at h
  simp [execute, hr, h]

end Machine

end WordMachine
