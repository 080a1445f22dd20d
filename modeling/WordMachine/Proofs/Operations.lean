import WordMachine.Proofs.Running

/-!
# Operations on a machine

The owner of a machine lets it make steps and runs, and in between changes its core or connects its
console to something else. `operateAll` carries out any list of such operations, one after the other
and whatever comes of them. Each operation is a number of steps, or it leaves the machine alone but
for what it changes from outside.
-/

namespace WordMachine

/-- A program that fits is put into the memory, and all else is as it is in any new machine. -/
lemma Machine.load_eq_ok_iff {program : List Word} {m : Machine} :
    load program = .ok m ↔
      program.length ≤ memorySize ∧ m = { core := { memory := .ofList program } } := by
  rw [load, Memory.load]
  split
  · next hfits => simp [Except.map, hfits, eq_comm]
  · next hfits => simp [Except.map, hfits]

/-- To load a program is to write it from the first cell on. -/
lemma Machine.load_eq_setFrom {program : List Word} (h : program.length ≤ memorySize) :
    load program = .ok { core := { memory := (Memory.zero.setFrom 0 program).2 } } := by
  have hmemory : Memory.zero.setFrom 0 program = (none, .ofList program) := by
    rw [← Memory.ofList_nil]
    exact Memory.setFrom_ofList [] (by simpa using h)
  rw [load_eq_ok_iff, hmemory]
  exact ⟨h, rfl⟩

lemma Machine.load_printer : load [19, 65] = .ok printer := load_eq_setFrom (by decide)

/-- What the owner of a machine does with it. -/
inductive Operation
  | step
  | run (threshold : Option Level) (budget : Nat)
  /-- Change the core from outside in any way: write registers, cells, the stack or `pc`, or put
  back a core that was kept. -/
  | edit (f : Core → Core)
  | queueInput (cs : List Char)
  | attachSource (source : Source)
  | attachSink (policy : Sink.Policy)

/-- Whether the operation comes from outside, so that the machine carries out nothing. -/
def Operation.isOutside : Operation → Bool
  | step | run _ _ => false
  | _              => true

namespace Machine

/-- The machine after an operation. -/
def operate (m : Machine) : Operation → Machine
  | .step                => m.step.machine
  | .run threshold n     => (m.run threshold n).machine
  | .edit f              => m.modifyCore f
  | .queueInput cs       => m.queueInput cs
  | .attachSource source => m.attachSource source
  | .attachSink policy   => m.attachSink policy

/-- The machine after some operations. -/
def operateAll (m : Machine) (ops : List Operation) : Machine := ops.foldl operate m

/-- Number of steps that an operation makes. -/
def stepsOf (m : Machine) : Operation → Nat
  | .step    => 1
  | .run _ n => m.stepsMade n
  | _        => 0

section Equations

variable (m : Machine) (op : Operation) (ops : List Operation)

@[simp] lemma operateAll_nil : m.operateAll [] = m := rfl

@[simp] lemma operateAll_cons : m.operateAll (op :: ops) = (m.operate op).operateAll ops := rfl

end Equations

variable {m : Machine} {op : Operation}

/-- The machine is left to itself for as many steps as the operation makes. -/
lemma operate_of_inside (h : op.isOutside = false) : m.operate op = m.after (m.stepsOf op) := by
  cases op with
  | step => rfl
  | run t n => exact m.machine_run t n
  | _ => cases h

lemma stepsOf_of_outside (h : op.isOutside = true) : m.stepsOf op = 0 := by
  cases op with
  | step => cases h
  | run t n => cases h
  | _ => rfl

/-- From outside, neither the count of cycles nor the output nor the halt can be changed. -/
structure KeptOutside (m m' : Machine) : Prop where
  output : m'.console.output = m.console.output
  cycles : m'.cycles = m.cycles
  halted : m'.halted = m.halted

lemma keptOutside_operate (h : op.isOutside = true) : m.KeptOutside (m.operate op) := by
  cases op with
  | step => cases h
  | run t n => cases h
  | _ => exact ⟨rfl, rfl, rfl⟩

/-- Unless it is changed itself, the core is left alone from outside. -/
lemma core_operate (h : op.isOutside = true) (hne : ∀ f, op ≠ .edit f) :
    (m.operate op).core = m.core := by
  cases op with
  | step => cases h
  | run t n => cases h
  | edit f => exact absurd rfl (hne f)
  | _ => rfl

end Machine

end WordMachine
