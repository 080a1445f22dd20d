import WordMachine.Proofs.CommandLine.Response
import WordMachine.Proofs.Sessions
import WordMachine.Proofs.Text.Listing

/-!
# The flags of the log

How much is logged, and in which colors, is said by flags before the command and after it. A command
line asks for the same run with any such flags, and a run leaves behind the same status and the same
output with any settings of the log. So logging is not seen but in the log, neither from the command
line nor by the owner of a machine.
-/

namespace WordMachine

namespace CommandLine

/-! ### Flags -/

/-- The letter of a flag. -/
def Flag.letter : Flag → Char
  | verbose => 'v'
  | color   => 'c'
  | noColor => 'C'
  | json    => 'j'

/-- A flag in an argument of its own. -/
def Flag.argument (f : Flag) : String := String.ofList ['-', f.letter]

/-- What is said of the log in one place of a command line. -/
structure LogFlags where
  /-- How often more is asked for. -/
  verbosity : Nat := 0
  /-- Whether there are to be colors, if anything is said of them. -/
  color : Option Bool := none

namespace LogFlags

def flags (l : LogFlags) : List Flag :=
  List.replicate l.verbosity .verbose ++
    match l.color with
    | none       => []
    | some true  => [.color]
    | some false => [.noColor]

def arguments (l : LogFlags) : List String := l.flags.map Flag.argument

example : arguments ⟨2, some false⟩ = ["-v", "-v", "-C"] := by decide

/-- What the flags stand for. -/
def settings (l : LogFlags) : Settings where
  verbosity := l.verbosity
  color := l.color = some true
  noColor := l.color = some false

lemma agree_settings (l : LogFlags) : l.settings.agree = true := by
  obtain ⟨n, _ | _ | _⟩ := l <;> rfl

end LogFlags

section Reading

variable (g : Given) (place : Place) (f : Flag) (as : List String)

lemma Flag.shape_argument : Shape.of f.argument = .short [f.letter] := by
  cases f <;> decide

lemma Given.short_letter : g.short place [f.letter] = g.flag f >>= fun g => .ok (g, none) := by
  have hswitch : place.short? f.letter = some (.flag f) := by
    cases f <;> rfl
  simp only [Given.short, hswitch]

lemma Given.beforeCommand_argument :
    g.beforeCommand (f.argument :: as) = g.flag f >>= fun g => g.beforeCommand as := by
  simp only [Given.beforeCommand, Flag.shape_argument, short_letter]
  cases g.flag f <;> rfl

lemma Given.arguments_argument : g.arguments place none (f.argument :: as) =
    g.flag f >>= fun g => g.arguments place none as := by
  simp only [Given.arguments, Flag.shape_argument, short_letter]
  cases g.flag f <;> rfl

end Reading

/-- What takes a flag from the front of its arguments takes any number of them. -/
lemma take_flags {α : Type} (take : Given → List String → Except Stop α)
    (htake : ∀ g f as, take g (Flag.argument f :: as) = g.flag f >>= fun g => take g as)
    (g : Given) (fs : List Flag) (as : List String) :
    take g (fs.map Flag.argument ++ as) = fs.foldlM Given.flag g >>= fun g => take g as := by
  induction fs generalizing g with
  | nil => rfl
  | cons f fs ih =>
    rw [List.map_cons, List.cons_append, htake, List.foldlM_cons, bind_assoc]
    exact congrArg _ (funext ih)

lemma foldlM_verbose (n : Nat) (s : Settings) :
    (List.replicate n .verbose).foldlM Given.flag { settings := s } =
      .ok { settings := { s with verbosity := s.verbosity + n } } := by
  induction n generalizing s with
  | zero => rfl
  | succ n ih =>
    simp only [List.replicate_succ, List.foldlM_cons, Given.flag, ok_bind]
    rw [ih, Nat.add_right_comm, Nat.add_assoc]

lemma LogFlags.foldlM_flags (l : LogFlags) :
    l.flags.foldlM Given.flag {} = .ok { settings := l.settings } := by
  obtain ⟨n, color⟩ := l
  rw [flags, List.foldlM_append, foldlM_verbose, ok_bind, Nat.zero_add]
  match color with
  | none | some true | some false => rfl

/-- The flags of one place are taken as the settings that they stand for. -/
lemma LogFlags.take_arguments {α : Type} (take : Given → List String → Except Stop α)
    (htake : ∀ g f as, take g (Flag.argument f :: as) = g.flag f >>= fun g => take g as)
    (l : LogFlags) (as : List String) :
    take {} (l.arguments ++ as) = take { settings := l.settings } as := by
  rw [arguments, take_flags take htake, l.foldlM_flags, ok_bind]

/-! ### Command lines -/

/-- A long option with its value attached. -/
def attached (name value : String) : String := "--" ++ name ++ "=" ++ value

/-- A command line that asks for a run, with flags before the command and after it. -/
def commandLine (before after : LogFlags) (o : RunOptions) : List String :=
  before.arguments ++ "run" :: (after.arguments ++ attached "steps" (toString o.steps) ::
    (o.scripts.map (attached "script") ++ ["--", o.image]))

/-- An attached value is all that comes after the name, whatever it looks like. -/
lemma shape_attached {name : String} (hname : '=' ∉ name.toList) (value : String) :
    Shape.of (attached name value) = .long name (some value) := by
  have hargument : (attached name value).toList =
      '-' :: '-' :: (name.toList ++ '=' :: value.toList) := by
    simp [attached]
  have hne : ∀ c ∈ name.toList, decide (c ≠ '=') = true := by
    intro c hc
    rw [decide_eq_true_iff]
    rintro rfl
    exact hname hc
  have hfront : (name.toList ++ '=' :: value.toList).takeWhile (· ≠ '=') = name.toList := by
    rw [List.takeWhile_append_of_pos hne]
    simp
  have hback : attachedValue (name.toList ++ '=' :: value.toList) = some value := by
    rw [attachedValue, List.dropWhile_append_of_pos hne]
    simp
  obtain ⟨c, cs, hcs⟩ : ∃ c cs, name.toList ++ '=' :: value.toList = c :: cs :=
    List.exists_cons_of_ne_nil (by simp)
  rw [Shape.of, hargument]
  rw [hcs] at hfront hback ⊢
  simp only [hfront, hback, String.ofList_toList]

/-- A number of steps is read as it is written, if 64 bits can hold it. -/
lemma stepCount?_toString (n : Nat) :
    stepCount? (toString n) = if n < UInt64.size then some n else none := by
  have hdigits : (toString n).toList = Nat.toDigits 10 n := by
    rw [Nat.toString_eq_ofList_toDigits, String.toList_ofList]
  have hall : ((toString n).toList.all Char.isDigit) = true :=
    List.all_eq_true.mpr fun c => isDigit_of_mem_toString
  have hnonempty : (toString n).toList.isEmpty = false := by
    rw [hdigits, List.isEmpty_eq_false_iff]
    exact Nat.toDigits_ne_nil
  have hvalue : (toString n).toList.foldl (fun n c => 10 * n + (c.toNat - '0'.toNat)) 0 = n := by
    rw [hdigits]
    exact Nat.ofDigitChars_ten_toDigits
  rw [stepCount?]
  split
  · next cs h =>
    -- a number does not begin with a plus sign
    have hplus : '+'.isDigit = true := isDigit_of_mem_toString (h ▸ List.mem_cons_self)
    exact absurd hplus (by decide)
  · simp only [hall, hnonempty, hvalue]
    rfl

lemma Given.arguments_attached (g : Given) (paths as : List String) :
    g.arguments .run none (paths.map (attached "script") ++ as) =
      { g with scripts := g.scripts ++ paths }.arguments .run none as := by
  induction paths generalizing g with
  | nil =>
    rw [List.append_nil]
    rfl
  | cons path paths ih =>
    have hshape : Shape.of (attached "script" path) = .long "script" (some path) :=
      shape_attached (by decide) path
    have hlong : g.long .run "script" (some path) =
        .ok ({ g with scripts := g.scripts ++ [path] }, none) := rfl
    rw [List.map_cons, List.cons_append]
    simp only [Given.arguments, hshape, hlong, ok_bind]
    rw [ih, List.append_assoc]
    rfl

/-- What is given after the command. -/
lemma Given.arguments_commandLine (l : LogFlags) (o : RunOptions) :
    ({} : Given).arguments .run none (l.arguments ++ attached "steps" (toString o.steps) ::
        (o.scripts.map (attached "script") ++ ["--", o.image])) =
      if o.steps < UInt64.size then
        .ok
          { settings := l.settings, steps := some o.steps, scripts := o.scripts
            operand := some o.image }
      else .error .mistake := by
  have hshape : Shape.of (attached "steps" (toString o.steps)) =
      .long "steps" (some (toString o.steps)) := shape_attached (by decide) _
  have hlong (g : Given) (text : String) :
      g.long .run "steps" (some text) = g.valued .steps text >>= fun g => .ok (g, none) := rfl
  have hescape : Shape.of "--" = .escape := by decide
  rw [LogFlags.take_arguments (fun g as => g.arguments .run none as)
    fun g => g.arguments_argument .run]
  simp only [Given.arguments, hshape, hlong, Given.valued, stepCount?_toString]
  by_cases h : o.steps < UInt64.size
  · simp only [if_pos h, ok_bind, Given.arguments_attached, Given.arguments, hescape]
    rfl
  · simp only [if_neg h]
    rfl

/-- Such a command line asks for the run, with the settings for which its flags stand. A budget that
64 bits cannot hold is a mistake. -/
theorem ofArguments_commandLine (before after : LogFlags) (o : RunOptions) :
    Request.ofArguments (commandLine before after o) =
      if o.steps < UInt64.size then .execute (before.settings.merge after.settings) (.run o)
      else .mistake := by
  have hrun : Shape.of "run" = .operand := by decide
  rw [Request.ofArguments, commandLine, LogFlags.take_arguments _ Given.beforeCommand_argument]
  simp only [Given.beforeCommand, hrun, ok_bind, readCommand, Given.arguments_commandLine]
  by_cases h : o.steps < UInt64.size
  · simp only [if_pos h, ok_bind, Given.run, before.agree_settings, after.agree_settings]
    rfl
  · simp only [if_neg h]
    rfl

/-! ### Runs -/

/-- The results are the same, what is written for errors apart. -/
structure Result.SameButErrors (answer answer' : Result) : Prop where
  status : answer.status = answer'.status
  output : answer.output = answer'.output

/-- The settings of the log make no difference to what comes of a run. -/
theorem execute_settings (s s' : Settings) (o : RunOptions) (read : Reader) (input : List UInt8) :
    (execute s o read input).SameButErrors (execute s' o read input) := by
  obtain ⟨chain | ⟨program, text⟩, hfiles⟩ := exists_filesRule read o
  · rw [execute_of_error (result_prepare_of_error hfiles),
      execute_of_error (result_prepare_of_error hfiles)]
    exact ⟨rfl, rfl⟩
  · obtain ⟨m, hm⟩ := exists_load_of_filesRule hfiles
    obtain ⟨-, rfl⟩ := Machine.load_eq_ok_iff.mp hm
    -- both are answers to one run without a log
    have hanswers := answers_execute (result_prepare_of_ok (s := s) hfiles hm) rfl rfl input none
    have hanswers' := answers_execute (result_prepare_of_ok (s := s') hfiles hm) rfl rfl input none
    exact ⟨hanswers.status.trans hanswers'.status.symm, hanswers.output.trans hanswers'.output.symm⟩

theorem respond_commandLine (o : RunOptions) (before after before' after' : LogFlags)
    (read : Reader) (input : List UInt8) :
    (respond (commandLine before after o) read input).SameButErrors
      (respond (commandLine before' after' o) read input) := by
  rw [respond, respond, ofArguments_commandLine, ofArguments_commandLine]
  by_cases h : o.steps < UInt64.size
  · simp only [if_pos h]
    exact execute_settings ..
  · simp only [if_neg h]
    exact ⟨rfl, rfl⟩

/-- Logging changes nothing but the log. Whatever flags of the log are given, and wherever, a
command line asks for the same run, and two command lines that ask for the same run leave behind the
same status and the same output. And whatever is done with a machine, all but the log is the same at
every level: what each operation comes to, and the machine after it. -/
theorem logging_harmless :
    (∀ (o : RunOptions) (before after before' after' : LogFlags) (read : Reader)
        (input : List UInt8),
      (respond (commandLine before after o) read input).SameButErrors
        (respond (commandLine before' after' o) read input)) ∧
    (∀ (o : RunOptions) (before after : LogFlags), o.steps < UInt64.size →
      Request.ofArguments (commandLine before after o) =
        .execute (before.settings.merge after.settings) (.run o)) ∧
    (∀ (o : RunOptions) (s s' : Settings) (arguments arguments' : List String),
      Request.ofArguments arguments = .execute s (.run o) →
      Request.ofArguments arguments' = .execute s' (.run o) →
      ∀ (read : Reader) (input : List UInt8),
        (respond arguments read input).SameButErrors (respond arguments' read input)) ∧
    (∀ (m : Machine) (ops : List Operation) (t t' : Option Level),
      (m.session t ops).map OperationReport.unlogged =
        (m.session t' ops).map OperationReport.unlogged) ∧
    ∀ (α : Type) (look : Machine → α) (m : Machine) (n : Nat) (t t' : Option Level),
      (m.watch look t n).seen = (m.watch look t' n).seen ∧
        (m.watch look t n).machine = (m.watch look t' n).machine := by
  refine ⟨respond_commandLine, ?_, ?_, ?_, ?_⟩
  · intro o before after h
    rw [ofArguments_commandLine, if_pos h]
  · intro o s s' arguments arguments' h h' read input
    rw [respond, respond, h, h']
    exact execute_settings s s' o read input
  · intro m ops t t'
    exact m.unlogged_session t t' ops
  · intro α look m n t t'
    exact Machine.watchFrom_threshold look t t' n #[] #[] #[] m

/-- A program that writes one letter, run with many flags and with none, and its machine in sessions
at two levels, whose logs differ. -/
theorem logging_harmless_letter :
    let o : RunOptions := { image := "letter.bin", steps := 9 }
    let loud := commandLine { verbosity := 3, color := some true } { color := some false } o
    let ops := [Operation.run none 9, .edit fun c => c.goto 0, .step]
    (respond loud letterReader []).SameButErrors
      (respond (commandLine {} {} o) letterReader []) ∧
    Request.ofArguments loud =
      .execute { verbosity := 3, color := true, noColor := true } (.run o) ∧
    (respond ["-vc", "run", "letter.bin"] letterReader []).SameButErrors
      (respond ["run", "letter.bin", "--json"] letterReader []) ∧
    (Machine.printer.session none ops).map OperationReport.unlogged =
      (Machine.printer.session (some .info) ops).map OperationReport.unlogged ∧
    (Machine.printer.session none ops).map OperationReport.log = [[], [], []] ∧
    (Machine.printer.session (some .info) ops).map OperationReport.log =
      [[.halted 2 2], [], []] := by
  intro o loud ops
  obtain ⟨hflags, hasks, hsame, hsession, -⟩ := logging_harmless
  have hloud : Request.ofArguments ["-vc", "run", "letter.bin"] =
      .execute { verbosity := 1, color := true } (.run { image := "letter.bin" }) := by
    decide +kernel
  have hjson : Request.ofArguments ["run", "letter.bin", "--json"] =
      .execute { json := true } (.run { image := "letter.bin" }) := by
    decide +kernel
  exact ⟨hflags o _ _ _ _ _ _, hasks o _ _ (by decide), hsame _ _ _ _ _ hloud hjson _ _,
    hsession _ ops _ _, rfl, rfl⟩

end CommandLine

end WordMachine
