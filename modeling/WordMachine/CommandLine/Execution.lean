import WordMachine.CommandLine.About
import WordMachine.Image
import WordMachine.Log.Line
import WordMachine.Machine.Host
import WordMachine.Machine.Run

/-!
# Carrying out a command

A run reads the image and the scripts, puts the program into a machine, queues the scripts, and
runs it with standard input as its source and standard output as its sink. What happens is
logged to standard error, as far as the verbosity asks for it; the settings of the log change
nothing else.

Whatever goes wrong is reported as a chain of errors, what was being done first.

Arguments, files and standard input are all that a command depends on. Of its environment nothing
is used: the variable that could give the log another filter is taken to be unset, and standard
error to be no terminal, so that there are no colors unless a flag asks for them.
-/

namespace WordMachine.CommandLine

/-! ### What is logged -/

/-- Who makes a record. -/
inductive Origin
  | machine
  | command
deriving DecidableEq, Repr

/-- The threshold of the log, which nothing but the verbosity decides. Up to full verbosity, the
command is logged in less detail than the machine. -/
def Settings.threshold (s : Settings) : Origin → Level
  | .machine =>
    match s.verbosity with
    | 0 => .warn
    | 1 => .info
    | 2 => .debug
    | _ => .trace
  | .command =>
    match s.verbosity with
    | 0 | 1 => .warn
    | 2 | 3 => .info
    | _     => .trace

/-- How the lines of the log are written. As standard error is no terminal, lines are plain unless
a flag says otherwise. -/
def Settings.style (s : Settings) : LineStyle :=
  if s.json then .json else if s.color then .colored else .plain

/-- A record, if the log has a place for it. -/
def Settings.admitted (s : Settings) (origin : Origin) (r : Record) : List Record :=
  if (s.threshold origin).admits r.level then [r] else []

/-- The events of a run as records. -/
def Settings.records (s : Settings) (budget : Nat) (events : List Event) : List Record :=
  events.map (Event.record (s.threshold .machine) budget)

/-- A chain of errors as records. -/
def errorRecords (chain : List String) : List Record :=
  chain.map fun message => { level := .error, message := message }

/-! ### Preparing -/

/-- A piece of work that logs and may fail with a chain of errors. -/
structure Logged (α : Type) where
  log : List Record
  result : Except (List String) α

namespace Logged

variable {α β : Type}

def done (a : α) : Logged α := ⟨[], .ok a⟩

/-- Go on with what a piece of work gives. After a failure there is nothing to go on with. -/
def andThen (x : Logged α) (k : α → Logged β) : Logged β :=
  match x with
  | ⟨log, .error chain⟩ => ⟨log, .error chain⟩
  | ⟨log, .ok a⟩        => ⟨log ++ (k a).log, (k a).result⟩

instance : Monad Logged where
  pure := done
  bind := andThen

def say (log : List Record) : Logged Unit := ⟨log, .ok ()⟩

/-- Work that may fail, with a word on what was being done. -/
def attempt (doing : String) (x : Except String α) : Logged α :=
  ⟨[], x.mapError fun message => [doing, message]⟩

end Logged

/-- How files are read: their bytes, or what is wrong. -/
abbrev Reader := String → Except String (List UInt8)

/-- The text of a script. If its last line has no newline, it gets one. -/
def completed (text : List Char) : List Char :=
  match text.getLast? with
  | none | some '\n' => text
  | some _           => text ++ ['\n']

theorem completed_of_ended {text : List Char} (h : text = [] ∨ text.getLast? = some '\n') :
    completed text = text := by
  obtain rfl | h := h
  · rfl
  · simp only [completed, h]

theorem completed_of_unended {text : List Char} (hne : text ≠ []) (h : text.getLast? ≠ some '\n') :
    completed text = text ++ ['\n'] := by
  rw [completed]
  split
  · next hlast => exact absurd (List.getLast?_eq_none_iff.mp hlast) hne
  · next hlast => exact absurd hlast h
  · rfl

/-- The text of the script at a path. -/
def readScript (read : Reader) (path : String) : Except String (List Char) := do
  match String.fromUTF8? (← read path).toByteArray with
  | some text => .ok (completed text.toList)
  | none      => .error Source.invalidText

/-- The texts of scripts, one after the other. -/
def readScripts (s : Settings) (read : Reader) : List String → Logged (List Char)
  | []            => return []
  | path :: paths => do
    Logged.say (s.admitted .command
      { level := .info, message := "Reading script", fields := [("path", .shown path)] })
    let text ← Logged.attempt ("could not read script " ++ path) (readScript read path)
    return text ++ (← readScripts s read paths)

/-- The program in the image at a path. -/
def readProgram (s : Settings) (read : Reader) (path : String) : Logged (List Word) := do
  Logged.say (s.admitted .command
    { level := .info, message := "Reading program", fields := [("path", .shown path)] })
  let bytes ← Logged.attempt ("could not read program image " ++ path) (read path)
  let program ← Logged.attempt "invalid program image" ((Image.decode bytes).mapError (·.text))
  let size : List (String × FieldValue) := [("words", .shown (toString program.length))]
  Logged.say (s.admitted .machine
    { level := .debug, message := "Decoding program image", fields := size })
  Logged.say (s.admitted .command
    { level := .debug, message := "Loaded program image", fields := size })
  return program

/-- The machine that a run starts with. -/
def prepare (s : Settings) (o : RunOptions) (read : Reader) : Logged Machine := do
  let program ← readProgram s read o.image
  let script ← readScripts s read o.scripts
  let m ← Logged.attempt "could not load program" ((Machine.load program).mapError (·.text))
  Logged.say (s.admitted .command
    { level := .info, message := "Running program", fields := [("steps", .shown (toString o.steps))] })
  return m.queueInput script

/-! ### Concluding -/

def success : Nat := 0

def commandFailed : Nat := 1

def wrongUsage : Nat := 2

/-- What was wrong with a run, what was being done first. -/
def runErrors (m : Machine) (fault : Fault) : List String :=
  ("execution stopped at address " ++ m.core.pc.text) :: fault.chain

/-- What the command itself says at the end of a run, and its status. -/
def conclude (s : Settings) (m : Machine) : Except Fault Outcome → List Record × Nat
  | .error fault => (errorRecords (runErrors m fault), commandFailed)
  | .ok outcome  =>
    let steps : String × FieldValue := ("steps", .shown (toString outcome.steps))
    let ended : Record :=
      match outcome with
      | .halted _      => { level := .info, message := "Program halted", fields := [steps] }
      | .budgetSpent _ =>
        { level := .warn, message := "Step budget exhausted"
          fields := [steps, ("pc", .shown m.core.pc.text)] }
    let final : Record :=
      { level := .debug, message := "End of program"
        fields := [("registers", .shown m.core.registers.text), ("stack", .shown m.core.stack.text)] }
    (s.admitted .command ended ++ s.admitted .command final, success)

/-! ### All of it -/

/-- What a command leaves behind. -/
structure Result where
  status : Nat
  output : List UInt8 := []
  errors : String := ""

/-- A result whose output is a text. -/
def Result.ofText (status : Nat) (text : String) : Result :=
  { status := status, output := text.toUTF8.toList }

/-- Run a program on the bytes of standard input. -/
def execute (s : Settings) (o : RunOptions) (read : Reader) (input : List UInt8) : Result :=
  match prepare s o read with
  | ⟨log, .error chain⟩ =>
    { status := commandFailed, errors := Record.lines s.style (log ++ errorRecords chain) }
  | ⟨log, .ok m⟩        =>
    let m := (m.attachSource (.ofBytes input)).attachSink .unlimited
    let r := m.run (some (s.threshold .machine)) o.steps
    let (closing, status) := conclude s r.machine r.result
    { status := status
      output := r.machine.console.sink.elim [] (·.received.toList)
      errors := Record.lines s.style (log ++ s.records o.steps r.events.toList ++ closing) }

/-- Do what arguments ask for, given how files are read and the bytes of standard input. -/
def respond (arguments : List String) (read : Reader) (input : List UInt8) : Result :=
  match Request.ofArguments arguments with
  | .about                                => .ofText success usage
  | .mistake                              => { status := wrongUsage, errors := usage }
  | .execute _ (.completion shell binName) => .ofText success (completionLine shell binName)
  | .execute settings (.run options)      => execute settings options read input

end WordMachine.CommandLine
