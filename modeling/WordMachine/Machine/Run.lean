import WordMachine.Machine.Basic

/-!
# Running

A run is a sequence of steps that ends when the machine halts, when a step fails, or when the
budget is spent. Its log holds the events that a threshold lets through.
-/

namespace WordMachine

/-- How a run ended, with the number of cycles it carried out. -/
inductive Outcome
  | halted (steps : Nat)
  | budgetSpent (steps : Nat)
deriving DecidableEq, Repr

def Outcome.steps : Outcome → Nat
  | halted n | budgetSpent n => n

structure RunReport where
  result : Except Fault Outcome
  machine : Machine
  events : Array Event

namespace Machine

/-- What comes of a run whose last step is done: the machine has halted, or its budget is spent. -/
def finish (threshold : Option Level) (start : Nat) (log : Array Event) (m : Machine) : RunReport :=
  let steps := m.cycles - start
  if m.halted then ⟨.ok (.halted steps), m, log⟩
  else
    let events := Event.visible threshold [.budgetSpent steps m.core.pc]
    ⟨.ok (.budgetSpent steps), m, log ++ events⟩

/-- Go on with a run that started at a count of cycles and has a log so far, for at most a number
of steps. -/
def runFrom (threshold : Option Level) (start : Nat) : Nat → Array Event → Machine → RunReport
  | 0, log, m     => m.finish threshold start log
  | n + 1, log, m =>
    let ⟨result, m, events⟩ := m.step
    let log := log ++ Event.visible threshold events
    match result with
    | .error fault   => ⟨.error fault, m, log⟩
    | .ok .halted    => ⟨.ok (.halted (m.cycles - start)), m, log⟩
    | .ok .continued => runFrom threshold start n log m

/-- Run for at most a number of steps. -/
def run (m : Machine) (threshold : Option Level) (budget : Nat) : RunReport :=
  runFrom threshold m.cycles budget #[] m

/-- The events of a run that does not start are those of its end. -/
theorem run_zero (m : Machine) (threshold : Option Level) :
    m.run threshold 0 = m.finish threshold m.cycles #[] := rfl

theorem run_of_halted {m : Machine} (h : m.halted = true) (threshold : Option Level)
    (budget : Nat) :
    (m.run threshold budget).result = .ok (.halted 0) ∧ (m.run threshold budget).machine = m := by
  cases budget with
  | zero => simp [run, runFrom, finish, h]
  | succ n => simp [run, runFrom, step_of_halted h]

/-! ### Watching -/

structure Watch (α : Type) where
  /-- The result of each step, with what was seen after it. -/
  seen : Array (Except Fault Step × α)
  machine : Machine
  events : Array Event

/-- Step at most a number of times, up to the first step that is not followed by another, and look
at the machine after each step. -/
def watchFrom {α : Type} (look : Machine → α) (threshold : Option Level) :
    Nat → Array (Except Fault Step × α) → Array Event → Machine → Watch α
  | 0, seen, log, m     => ⟨seen, m, log⟩
  | n + 1, seen, log, m =>
    let ⟨result, m, events⟩ := m.step
    let log := log ++ Event.visible threshold events
    let seen := seen.push (result, look m)
    match result with
    | .ok .continued => watchFrom look threshold n seen log m
    | _              => ⟨seen, m, log⟩

/-- Watch a machine for at most a number of steps. -/
def watch {α : Type} (m : Machine) (look : Machine → α) (threshold : Option Level) (budget : Nat) :
    Watch α :=
  watchFrom look threshold budget #[] #[] m

end Machine

end WordMachine
