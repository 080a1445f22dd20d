import WordMachine.Word

/-!
# Arguments

What the arguments of the command line ask for. Arguments are read from left to right, and the
first request for help and the first mistake decide. Some flags may be given before the command as
well as after it; the command adds options and one operand of its own.

An option is long (`--steps`, its value after a sign of equality or in the next argument) or short
(`-s`, its value in the rest of the argument, also after a sign of equality, or in the next
argument). Short flags may be given together. A value in an argument of its own may not look like
an option. After a bare `--` there are only operands.
-/

namespace WordMachine.CommandLine

/-! ### What can be asked for -/

inductive Shell
  | bash
  | elvish
  | fish
  | powershell
  | zsh
deriving DecidableEq, Repr

def Shell.ofName? : String → Option Shell
  | "bash"       => some .bash
  | "elvish"     => some .elvish
  | "fish"       => some .fish
  | "powershell" => some .powershell
  | "zsh"        => some .zsh
  | _            => none

/-- The flags of every command. -/
structure Settings where
  /-- How much is logged. -/
  verbosity : Nat := 0
  color : Bool := false
  noColor : Bool := false
  json : Bool := false
deriving DecidableEq, Repr

/-- The options of a run. -/
structure RunOptions where
  /-- The file with the program. -/
  image : String
  /-- Most cycles that are carried out. -/
  steps : Nat := defaultBudget
  /-- Files whose text is read before standard input. -/
  scripts : List String := []
deriving DecidableEq, Repr

inductive Command
  | run (options : RunOptions)
  | completion (shell : Shell) (binName : String)
deriving DecidableEq, Repr

/-- What the arguments ask for. -/
inductive Request
  /-- Words about the program itself, such as how to use it. -/
  | about
  /-- Nothing that can be done. -/
  | mistake
  | execute (settings : Settings) (command : Command)
deriving DecidableEq, Repr

/-! ### Options -/

inductive Place
  | top
  | run
  | completion
deriving DecidableEq, Repr

/-- An option without a value, of every command. -/
inductive Flag
  | verbose
  | color
  | noColor
  | json
deriving DecidableEq, Repr

/-- An option with a value. -/
inductive Valued
  | steps
  | script
  | binName
deriving DecidableEq, Repr

/-- What the name of an option stands for. -/
inductive Switch
  | flag (f : Flag)
  | valued (v : Valued)
  | about
deriving DecidableEq, Repr

/-- The option with a long name. -/
def Place.long? (place : Place) (name : String) : Option Switch :=
  match name, place with
  | "verbose", _           => some (.flag .verbose)
  | "color", _             => some (.flag .color)
  | "no-color", _          => some (.flag .noColor)
  | "json", _              => some (.flag .json)
  | "help", _              => some .about
  | "version", .top        => some .about
  | "steps", .run          => some (.valued .steps)
  | "script", .run         => some (.valued .script)
  | "bin-name", .completion => some (.valued .binName)
  | _, _                   => none

/-- The option with a short name. -/
def Place.short? (place : Place) (name : Char) : Option Switch :=
  match name, place with
  | 'v', _    => some (.flag .verbose)
  | 'c', _    => some (.flag .color)
  | 'C', _    => some (.flag .noColor)
  | 'j', _    => some (.flag .json)
  | 'h', _    => some .about
  | 'V', .top => some .about
  | 's', .run => some (.valued .steps)
  | _, _      => none

/-! ### Shapes -/

/-- What an argument looks like. -/
inductive Shape
  /-- The sign that no options follow. -/
  | escape
  /-- A long option, with its value if that is attached. -/
  | long (name : String) (value : Option String)
  /-- Short options in a row, perhaps with a value. -/
  | short (cluster : List Char)
  | operand
deriving DecidableEq, Repr

/-- What comes after the first sign of equality, if there is one. -/
def attachedValue (cs : List Char) : Option String :=
  match cs.dropWhile (· ≠ '=') with
  | []      => none
  | _ :: cs => some (String.ofList cs)

/-- What an argument looks like. A lone hyphen is an operand. -/
def Shape.of (argument : String) : Shape :=
  match argument.toList with
  | ['-', '-']      => .escape
  | '-' :: '-' :: cs => .long (String.ofList (cs.takeWhile (· ≠ '='))) (attachedValue cs)
  | '-' :: c :: cs  => .short (c :: cs)
  | _               => .operand

/-- A number of steps: decimal digits, perhaps after a plus sign, up to what 64 bits hold. -/
def stepCount? (s : String) : Option Nat :=
  let digits := match s.toList with
    | '+' :: cs => cs
    | cs        => cs
  if digits.isEmpty || !digits.all Char.isDigit then none
  else
    let n := digits.foldl (fun n c => 10 * n + (c.toNat - '0'.toNat)) 0
    if n < UInt64.size then some n else none

/-! ### Reading -/

/-- Why reading ends before the arguments do. -/
inductive Stop
  | about
  | mistake
deriving DecidableEq, Repr

/-- What was given in one place so far. -/
structure Given where
  settings : Settings := {}
  steps : Option Nat := none
  scripts : List String := []
  binName : Option String := none
  operand : Option String := none
deriving DecidableEq, Repr

namespace Given

/-- Take a flag. Only the verbosity can be raised more than once. -/
def flag (g : Given) (f : Flag) : Except Stop Given :=
  let s := g.settings
  match f with
  | .verbose => .ok { g with settings := { s with verbosity := s.verbosity + 1 } }
  | .color   =>
    if s.color then .error .mistake else .ok { g with settings := { s with color := true } }
  | .noColor =>
    if s.noColor then .error .mistake else .ok { g with settings := { s with noColor := true } }
  | .json    =>
    if s.json then .error .mistake else .ok { g with settings := { s with json := true } }

/-- Take an option with its value. Only scripts can be given more than once. -/
def valued (g : Given) (v : Valued) (text : String) : Except Stop Given :=
  match v with
  | .steps   =>
    match g.steps, stepCount? text with
    | none, some n => .ok { g with steps := some n }
    | _, _         => .error .mistake
  | .script  => .ok { g with scripts := g.scripts ++ [text] }
  | .binName => if g.binName.isSome then .error .mistake else .ok { g with binName := some text }

/-- Take an operand, of which there is only one. For completions it is a shell. -/
def word (g : Given) (place : Place) (text : String) : Except Stop Given :=
  if g.operand.isSome || (place = .completion && (Shell.ofName? text).isNone) then .error .mistake
  else .ok { g with operand := some text }

/-- Take a long option. If its value is still to come, say whose. -/
def long (g : Given) (place : Place) (name : String) (value : Option String) :
    Except Stop (Given × Option Valued) :=
  match place.long? name, value with
  | some (.flag f), none        => return (← g.flag f, none)
  | some (.valued v), none      => .ok (g, some v)
  | some (.valued v), some text => return (← g.valued v text, none)
  | some .about, none           => .error .about
  | _, _                        => .error .mistake

/-- Take short options in a row. If a value is still to come, say whose. -/
def short (g : Given) (place : Place) : List Char → Except Stop (Given × Option Valued)
  | []      => .ok (g, none)
  | c :: cs =>
    match place.short? c with
    | none             => .error .mistake
    | some .about      => .error .about
    | some (.flag f)   => do (← g.flag f).short place cs
    | some (.valued v) =>
      match cs with
      | []         => .ok (g, some v)
      | '=' :: cs  => return (← g.valued v (String.ofList cs), none)
      | cs         => return (← g.valued v (String.ofList cs), none)

/-- Take operands only. -/
def words (g : Given) (place : Place) : List String → Except Stop Given
  | []      => .ok g
  | a :: as => do (← g.word place a).words place as

/-- Take the arguments of a command, while an option may be waiting for its value. -/
def arguments (g : Given) (place : Place) : Option Valued → List String → Except Stop Given
  | none, []        => .ok g
  | some _, []      => .error .mistake
  | some v, a :: as =>
    match Shape.of a with
    | .operand => do (← g.valued v a).arguments place none as
    | _        => .error .mistake
  | none, a :: as   =>
    match Shape.of a with
    | .escape          => g.words place as
    | .operand         => do (← g.word place a).arguments place none as
    | .long name value => do
      let (g, waiting) ← g.long place name value
      g.arguments place waiting as
    | .short cluster   => do
      let (g, waiting) ← g.short place cluster
      g.arguments place waiting as

/-- Take what comes before the command. -/
def beforeCommand (g : Given) : List String → Except Stop (Given × String × List String)
  | []      => .error .mistake
  | a :: as =>
    match Shape.of a with
    | .escape          => .error .mistake
    | .operand         => .ok (g, a, as)
    | .long name value => do
      let (g, _) ← g.long .top name value
      g.beforeCommand as
    | .short cluster   => do
      let (g, _) ← g.short .top cluster
      g.beforeCommand as

end Given

/-! ### Commands -/

/-- The three settings that say how the log looks exclude each other in one place. -/
def Settings.agree (s : Settings) : Bool :=
  !(s.color && s.noColor) && !(s.color && s.json) && !(s.noColor && s.json)

/-- Settings from before and after the command. The verbosity after it counts, if it was given. -/
def Settings.merge (before after : Settings) : Settings where
  verbosity := if after.verbosity = 0 then before.verbosity else after.verbosity
  color := before.color || after.color
  noColor := before.noColor || after.noColor
  json := before.json || after.json

def Given.run (g : Given) : Except Stop Command :=
  match g.operand with
  | some image => .ok (.run ⟨image, g.steps.getD defaultBudget, g.scripts⟩)
  | none       => .error .mistake

/-- The name under which completions call the program, unless another is given. It is seen in
completions only. -/
def defaultBinName : String := "synacor"

def Given.completion (g : Given) : Except Stop Command :=
  match g.operand.bind Shell.ofName? with
  | some shell => .ok (.completion shell (g.binName.getD defaultBinName))
  | none       => .error .mistake

/-- Take the arguments of a command in its place. -/
def readCommand (before : Settings) (place : Place) (command : Given → Except Stop Command)
    (as : List String) : Except Stop Request := do
  let g ← ({} : Given).arguments place none as
  let command ← command g
  if g.settings.agree && before.agree then
    return .execute (before.merge g.settings) command
  else .error .mistake

/-- Words about the program, or about one of its commands. -/
def readHelp : List String → Except Stop Request
  | [] | ["run"] | ["completion"] | ["help"] => .error .about
  | _                                        => .error .mistake

/-- What the arguments ask for. -/
def Request.ofArguments (as : List String) : Request :=
  let request := do
    let (g, name, as) ← ({} : Given).beforeCommand as
    match name with
    | "run"        => readCommand g.settings .run Given.run as
    | "completion" => readCommand g.settings .completion Given.completion as
    | "help"       => readHelp as
    | _            => .error .mistake
  match request with
  | .ok r           => r
  | .error .about   => .about
  | .error .mistake => .mistake

end WordMachine.CommandLine
