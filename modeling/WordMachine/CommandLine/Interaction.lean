import WordMachine.CommandLine.Execution
import WordMachine.CommandLine.Folder

/-!
# Carrying out a command as it goes

A command at work fetches a line of standard input only when the program asks for one, and what the
program writes appears at once. Files, lines and what becomes of the output are up to the
surroundings of the command, which can be those of any monad.

The machine is stepped one cycle at a time. All the input that it has is what is left of the lines
it asked for. A step that lacks input leaves the machine as it was; it is repeated when a line has
come.
-/

namespace WordMachine.CommandLine

/-- What a command finds around it. -/
structure Surroundings (M : Type → Type) where
  /-- Read files, and look up what came of it. -/
  files : List String → M Reader
  /-- Read standard input up to a newline, which belongs to the line, or up to its end. -/
  line : M (List UInt8)
  /-- Write to standard output. -/
  output : List UInt8 → M Unit
  /-- Write to standard error. -/
  errors : String → M Unit

namespace Surroundings

variable {M : Type → Type} [Monad M] (around : Surroundings M)

/-- Write records to standard error. -/
@[specialize] def log (s : Settings) (rs : List Record) : M Unit :=
  around.errors (Record.lines s.style rs)

/-- Write what the machine has sent, and connect it to an empty sink again. -/
@[specialize] def forward (m : Machine) : M Machine :=
  match m.console.sink with
  | none      => return m
  | some sink =>
    if sink.received.isEmpty then return m
    else do
      around.output sink.received.toList
      return m.attachSink .unlimited

/-- One step, for which a line is read if the machine needs one. -/
@[specialize] def step (m : Machine) : M StepReport :=
  let report := m.step
  match report.result with
  | .error .endOfInput => do
    let line ← around.line
    if line.isEmpty then return report
    else return (report.machine.attachSource (.ofBytes line)).step
  | _                  => return report

/-- One step, after which its events are logged and its output is written. -/
@[specialize] def cycle (s : Settings) (budget : Nat) (m : Machine) :
    M (Except Fault Step × Machine) := do
  let report ← around.step m
  around.log s (s.records budget (Event.visible (some (s.threshold .machine)) report.events))
  let m ← around.forward report.machine
  return (report.result, m)

/-- Go on with a run that started at a count of cycles, for at most a number of steps. -/
@[specialize] def runFrom (s : Settings) (budget start : Nat) :
    Nat → Machine → M (Except Fault Outcome × Machine)
  | 0, m     => do
    let report := m.finish (some (s.threshold .machine)) start #[]
    around.log s (s.records budget report.events.toList)
    return (report.result, report.machine)
  | n + 1, m => do
    let (result, m) ← around.cycle s budget m
    match result with
    | .error fault   => return (.error fault, m)
    | .ok .halted    => return (.ok (.halted (m.cycles - start)), m)
    | .ok .continued => runFrom s budget start n m

/-- Run for at most a number of steps. -/
@[specialize] def run (s : Settings) (budget : Nat) (m : Machine) :
    M (Except Fault Outcome × Machine) :=
  around.runFrom s budget m.cycles budget m

/-- Carry out a run, and answer its status. -/
@[specialize] def execute (s : Settings) (o : RunOptions) : M Nat := do
  match prepare s o (← around.files (o.image :: o.scripts)) with
  | ⟨log, .error chain⟩ =>
    around.log s (log ++ errorRecords chain)
    return commandFailed
  | ⟨log, .ok m⟩        =>
    around.log s log
    let (result, m) ← around.run s o.steps (m.attachSink .unlimited)
    let (closing, status) := conclude s m result
    around.log s closing
    return status

/-- Write a result, and answer its status. -/
@[specialize] def leave (answer : Result) : M Nat := do
  around.output answer.output
  around.errors answer.errors
  return answer.status

/-- Do what arguments ask for, and answer the status. Nothing but a run needs files or input. -/
@[specialize] def serve (arguments : List String) : M Nat :=
  match Request.ofArguments arguments with
  | .execute settings (.run options) => around.execute settings options
  | _ => around.leave (respond arguments (fun _ => .error FileError.notFound.text) [])

end Surroundings

end WordMachine.CommandLine
