import WordMachine.Proofs.CommandLine.Files
import WordMachine.Proofs.Copies

/-!
# What a run of a program leaves behind

The command to run a program does what the library does: it starts a machine with the program of the
image, the text of the scripts in its queue and standard input as its source, and runs it. Status,
output and errors tell what came of this run. Without verbosity, all that is said is why the run did
not come to a halt.
-/

namespace WordMachine

/-! ### Events that are always logged -/

section Events

variable {m : Machine}

/-- What is made known of the last step of a run even if only warnings are: that there was no
instruction. -/
def Machine.undecoded (m : Machine) : List Event :=
  match m.core.fetch with
  | .error e => [.undecodable (.exception e)]
  | .ok _    => []

namespace Machine

lemma visible_during (i : Instruction) (notes : List Note) :
    Event.visible (some .warn) (notes.map (.during i)) = [] := by
  simp only [Event.visible, List.filter_eq_nil_iff, List.mem_map]
  rintro _ ⟨note, -, rfl⟩
  cases note <;> exact Bool.false_ne_true

lemma visible_haltEvents (m : Machine) (r : Except Fault Step) :
    Event.visible (some .warn) (m.haltEvents r) = [] := by
  rcases r with fault | ⟨_ | _⟩ <;> rfl

lemma visible_step (h : m.halted = false) :
    Event.visible (some .warn) m.step.events = m.undecoded := by
  cases hf : m.core.fetch with
  | error e =>
    rw [step_of_fetch_error h hf, undecoded, hf]
    rfl
  | ok i =>
    have hexecuting : Event.visible (some .warn) [.executing m.core.pc i] = [] := rfl
    simp only [step, h, hf, undecoded, Bool.false_eq_true, if_false]
    rw [Event.visible_append, ← List.singleton_append, Event.visible_append, hexecuting,
      visible_during, visible_haltEvents]
    rfl

lemma visible_step_of_ok {s : Step} (hr : m.step.result = .ok s) :
    Event.visible (some .warn) m.step.events = [] := by
  cases h : m.halted with
  | true =>
    rw [step_of_halted h]
    rfl
  | false =>
    rw [visible_step h, undecoded]
    cases hf : m.core.fetch with
    | ok i => rfl
    | error e =>
      rw [step_of_fetch_error h hf] at hr
      cases hr

lemma visible_step_of_error {fault : Fault} (hr : m.step.result = .error fault) :
    Event.visible (some .warn) m.step.events = m.step.machine.undecoded := by
  have hrule := m.stepRule
  rw [hr] at hrule
  cases h : m.halted with
  | true =>
    rw [step_of_halted h] at hr
    cases hr
  | false => rw [visible_step h, undecoded, undecoded, hrule.kept.core]

/-- The warnings of a run: there are none unless it fails. -/
def warnings (m : Machine) : Except Fault Outcome → List Event
  | .ok _    => []
  | .error _ => m.undecoded

lemma events_runFrom (m : Machine) (start n : Nat) (log : Array Event) :
    (runFrom (some .warn) start n log m).events.toList = log.toList ++
      (runFrom (some .warn) start n log m).machine.warnings
        (runFrom (some .warn) start n log m).result := by
  induction n generalizing m log with
  | zero =>
    simp only [runFrom, finish]
    split
    · exact (List.append_nil _).symm
    · exact Array.toList_appendList
  | succ n ih =>
    rcases hr : m.step.result with fault | ⟨_ | _⟩
    · simp only [runFrom, hr, visible_step_of_error hr]
      exact Array.toList_appendList
    · simp only [runFrom, hr, visible_step_of_ok hr]
      rw [ih, Array.toList_appendList, List.append_nil]
    · simp only [runFrom, hr, visible_step_of_ok hr]
      exact Array.toList_appendList

theorem events_run (m : Machine) (n : Nat) :
    (m.run (some .warn) n).events.toList =
      (m.run (some .warn) n).machine.warnings (m.run (some .warn) n).result :=
  events_runFrom m m.cycles n #[]

end Machine

end Events

namespace CommandLine

variable {s : Settings} {o : RunOptions} {read : Reader}

/-! ### Lines -/

section Lines

variable (style : LineStyle) (rs rs' : List Record)

lemma lines_append :
    Record.lines style (rs ++ rs') = Record.lines style rs ++ Record.lines style rs' := by
  rw [Record.lines, List.map_append, String.join_append]
  rfl

/-- Each record has a line. -/
lemma lines_eq_empty_iff : Record.lines style rs = "" ↔ rs = [] := by
  cases rs with
  | nil => exact iff_of_true rfl rfl
  | cons r rs =>
    refine iff_of_false ?_ (List.cons_ne_nil r rs)
    rw [Record.lines, List.map_cons, String.join_cons]
    intro h
    have hlength := congrArg String.length h
    simp at hlength

end Lines

/-- Without colors, each message is a line of its own. -/
lemma lines_errorRecords {chain : List String} (h : ∀ message ∈ chain, message ≠ "") :
    Record.lines .plain (errorRecords chain) =
      String.join (chain.map fun message => "ERROR " ++ Text.inert message ++ "\n") := by
  rw [Record.lines, errorRecords, List.map_map]
  refine congrArg String.join (List.map_congr_left ?_)
  intro message hmessage
  simp only [Function.comp_apply, Record.line_message _ (h message hmessage), Level.label_error]
  rfl

/-! ### What is said of a run -/

/-- The record of a step that found no instruction. -/
def undecodedRecords (m : Machine) : List Record :=
  match m.core.fetch with
  | .error e =>
    [{ level := .error, fields := [("error", .shown (Fault.exception e).text)] }]
  | .ok _    => []

/-- What is said of a run without verbosity: nothing if it has come to a halt, one warning if its
budget is spent, and errors if it has failed. -/
def quietRecords (m : Machine) : Except Fault Outcome → List Record
  | .ok (.halted _)      => []
  | .ok (.budgetSpent n) =>
    [{ level := .warn, message := "Step budget exhausted"
       fields := [("steps", .shown (toString n)), ("pc", .shown m.core.pc.text)] }]
  | .error fault         => undecodedRecords m ++ errorRecords (runErrors m fault)

lemma quietRecords_eq_nil_iff {m : Machine} {r : Except Fault Outcome} :
    quietRecords m r = [] ↔ ∃ n, r = .ok (.halted n) := by
  rcases r with fault | ⟨n | n⟩ <;> simp [quietRecords, errorRecords, runErrors]

lemma records_warnings (h : s.verbosity = 0) (budget : Nat) (m : Machine)
    (r : Except Fault Outcome) :
    s.records budget (m.warnings r) ++ (conclude s m r).1 = quietRecords m r := by
  rcases r with fault | ⟨n | n⟩
  · have hundecoded : s.records budget m.undecoded = undecodedRecords m := by
      rw [Settings.records, Settings.threshold_eq_warn h, Machine.undecoded, undecodedRecords]
      cases m.core.fetch <;> rfl
    exact congrArg (· ++ _) hundecoded
  · simp only [conclude]
    rw [Settings.admitted_eq_nil h rfl, Settings.admitted_eq_nil h rfl]
    rfl
  · simp only [conclude]
    rw [Settings.admitted, Settings.threshold_eq_warn h, Settings.admitted_eq_nil h rfl]
    rfl

/-- What the command leaves behind, compared to a run of the machine it starts. Output is copied as it
is written, so it is there also if the run fails. -/
structure Answers (s : Settings) (o : RunOptions) (start : Machine) (r : RunReport)
    (answer : Result) : Prop where
  status : answer.status = match r.result with
    | .ok _    => 0
    | .error _ => 1
  output : answer.output = Input.utf8 r.machine.console.output.toList
  /-- A failure is told with the address of the instruction that failed. -/
  failure : ∀ fault, r.result = .error fault → ∃ k < o.steps,
    (∀ j < k, start.Executes j) ∧ (start.after k).step.result = .error fault ∧
      ∃ before, answer.errors = before ++ Record.lines s.style (errorRecords
        (("execution stopped at address " ++ (start.after k).core.pc.text) :: fault.chain))
  /-- Without verbosity there is nothing else. -/
  quiet : s.verbosity = 0 → answer.errors = Record.lines s.style (quietRecords r.machine r.result)

lemma Answers.errors_eq_empty_iff {start : Machine} {r : RunReport} {answer : Result}
    (h : Answers s o start r answer) (hs : s.verbosity = 0) :
    answer.errors = "" ↔ ∃ n, r.result = .ok (.halted n) := by
  rw [h.quiet hs, lines_eq_empty_iff, quietRecords_eq_nil_iff]

/-- Without colors, a failure is told in one line with the address of the instruction that failed,
and in one with the text of the fault. What the fault goes back to comes after them. -/
theorem Answers.exists_lines {start : Machine} {r : RunReport} {answer : Result}
    (h : Answers s o start r answer) (hstyle : s.style = .plain) {fault : Fault}
    (hfault : r.result = .error fault) :
    ∃ k < o.steps, (start.after k).step.result = .error fault ∧ ∃ before after,
      answer.errors = before ++ ("ERROR " ++
        Text.inert ("execution stopped at address " ++ (start.after k).core.pc.text) ++ "\n" ++
        "ERROR " ++ Text.inert fault.text ++ "\n") ++ after := by
  obtain ⟨k, hk, -, hresult, before, herrors⟩ := h.failure fault hfault
  obtain ⟨causes, hchain⟩ := List.head?_eq_some_iff.mp fault.head?_chain
  refine ⟨k, hk, hresult, before, Record.lines .plain (errorRecords causes), ?_⟩
  have hne : ∀ message ∈ ["execution stopped at address " ++ (start.after k).core.pc.text,
      fault.text], message ≠ "" := by
    simp [fault.text_ne_empty]
  have hrecords (first second : String) : errorRecords (first :: second :: causes) =
      errorRecords [first, second] ++ errorRecords causes := rfl
  rw [herrors, hstyle, hchain, hrecords, lines_append, lines_errorRecords hne]
  simp only [List.map_cons, List.map_nil, String.join_cons, String.join_nil, String.append_assoc,
    String.empty_append]
lemma execute_of_error {chain : List String} (h : (prepare s o read).result = .error chain)
    (input : List UInt8) : execute s o read input =
      { status := 1
        errors := Record.lines s.style ((prepare s o read).log ++ errorRecords chain) } := by
  rw [execute]
  generalize prepare s o read = work at h
  obtain ⟨log, result⟩ := work
  cases h
  rfl

lemma execute_of_ok {m : Machine} (h : (prepare s o read).result = .ok m) (input : List UInt8) :
    execute s o read input =
      let r := ((m.attachSource (.ofBytes input)).attachSink .unlimited).run
        (some (s.threshold .machine)) o.steps
      { status := (conclude s r.machine r.result).2
        output := r.machine.console.sink.elim [] (·.received.toList)
        errors := Record.lines s.style ((prepare s o read).log ++
          s.records o.steps r.events.toList ++ (conclude s r.machine r.result).1) } := by
  rw [execute]
  generalize prepare s o read = work at h
  obtain ⟨log, result⟩ := work
  cases h
  rfl

/-- The command tells what came of its run. -/
theorem answers_execute {m : Machine} (h : (prepare s o read).result = .ok m)
    (hsink : m.console.sink = none) (houtput : m.console.output = "") (input : List UInt8)
    (t : Option Level) :
    Answers s o (m.attachSource (.ofBytes input))
      ((m.attachSource (.ofBytes input)).run t o.steps) (execute s o read input) := by
  rw [execute_of_ok h]
  generalize hstart : m.attachSource (.ofBytes input) = start
  have hsink' : start.console.sink = none := by
    rw [← hstart]
    exact hsink
  have hcopied : start.attachSink .unlimited = start.copied := by
    apply Machine.attachSink_unlimited
    rw [← hstart]
    exact houtput
  obtain ⟨hresult, hmachine⟩ :=
    Machine.run_copied hsink' t (some (s.threshold .machine)) o.steps
  simp only [hcopied, hresult, hmachine]
  constructor
  · cases (start.run t o.steps).result <;> rfl
  · exact Machine.received_copied _
  · intro fault hfault
    obtain ⟨k, hk, hexecutes, hfailed, -, hkept⟩ := Machine.exists_of_run_error hfault
    refine ⟨k, hk, hexecutes, hfailed, _, (lines_append ..).trans (congrArg (_ ++ ·) ?_)⟩
    rw [hfault, ← hkept.core]
    rfl
  · intro hs
    rw [Settings.threshold_eq_warn hs] at hresult hmachine ⊢
    rw [(plain_prepare s o read).silent hs, List.nil_append, Machine.events_run, hresult, hmachine]
    exact congrArg (Record.lines s.style) (records_warnings hs o.steps _ _)

/-! ### All of it -/

/-- What a run of a program leaves behind. If a file cannot be read, or is not what it should be,
there is nothing but the chain of errors, and nothing is run; loading cannot fail. Otherwise the
command does what a machine does that has the program, the text of the scripts and the source, and
tells what came of it. -/
theorem respond_run {arguments : List String} (read : Reader)
    (h : Request.ofArguments arguments = .execute s (.run o)) :
    (∃ outcome, FilesRule read o outcome) ∧
    (∀ chain, FilesRule read o (.error chain) →
      (∃ doing message, chain = [doing, message] ∧ doing ≠ "could not load program") ∧
      ∃ log, (∀ r ∈ log, r.spans = []) ∧ (s.verbosity = 0 → log = []) ∧
        ∀ input, (respond arguments read input).errors ≠ "" ∧
          respond arguments read input =
            { status := 1, output := []
              errors := Record.lines s.style (log ++ errorRecords chain) }) ∧
    ∀ program text, FilesRule read o (.ok (program, text)) →
      ∃ m, Machine.load program = .ok m ∧ ∀ input t,
        let start := (m.queueInput text).attachSource (.ofBytes input)
        let r := start.run t o.steps
        let answer := respond arguments read input
        Answers s o start r answer ∧
          (s.verbosity = 0 → (answer.errors = "" ↔ ∃ n, r.result = .ok (.halted n))) := by
  have hplain := plain_prepare s o read
  have hrespond : respond arguments read = execute s o read := by
    funext input
    rw [respond, h]
  refine ⟨exists_filesRule read o, ?_, ?_⟩
  · intro chain hchain
    refine ⟨hchain.exists_chain, _, hplain.spans, hplain.silent, ?_⟩
    intro input
    rw [hrespond, execute_of_error (result_prepare_of_error hchain)]
    refine ⟨?_, rfl⟩
    obtain ⟨doing, message, rfl, -⟩ := hchain.exists_chain
    rw [Ne, lines_eq_empty_iff, List.append_eq_nil_iff]
    exact fun hnil => List.cons_ne_nil _ _ hnil.2
  · intro program text hready
    obtain ⟨m, hm⟩ := exists_load_of_filesRule hready
    refine ⟨m, hm, ?_⟩
    intro input t start r answer
    have hanswers : Answers s o start r answer := by
      obtain ⟨-, rfl⟩ := Machine.load_eq_ok_iff.mp hm
      have hprepare := result_prepare_of_ok (s := s) hready hm
      simp only [answer, hrespond]
      exact answers_execute hprepare rfl rfl input t
    exact ⟨hanswers, hanswers.errors_eq_empty_iff⟩

/-- A program that reads and writes three characters, and then takes a word off the empty stack. -/
def copier : List Word :=
  [20, 32768, 19, 32768, 20, 32768, 19, 32768, 20, 32768, 19, 32768, 3, 32768]

/-- The files are a program that writes one letter, another program, and a script whose only line
has no newline. -/
def letterReader : Reader := fun path =>
  match path with
  | "letter.bin" => .ok (Image.encode [19, 65])
  | "copier.bin" => .ok (Image.encode copier)
  | "letter.txt" => .ok [97]
  | _            => .error "gone"

/-- What comes of running a program for nine steps, without input. -/
def letterRun (path : String) : Result := respond ["run", "--steps=9", path] letterReader []

theorem respond_run_letter :
    ((letterRun "letter.bin").status = 0 ∧ (letterRun "letter.bin").output = [65] ∧
      (letterRun "letter.bin").errors = "" ∧ (letterRun "word.bin").status = 1) ∧
    let answer := respond ["run", "copier.bin", "--script=letter.txt"] letterReader [98]
    answer.status = 1 ∧ answer.output = [97, 10, 98] ∧
      answer.errors = "ERROR execution stopped at address 12\n" ++
        "ERROR CPU exception: stack underflow\n" ++ "ERROR stack underflow\n" := by
  have hgood : Request.ofArguments ["run", "--steps=9", "letter.bin"] =
      .execute {} (.run ⟨"letter.bin", 9, []⟩) := by decide +kernel
  have hbad : Request.ofArguments ["run", "--steps=9", "word.bin"] =
      .execute {} (.run ⟨"word.bin", 9, []⟩) := by decide +kernel
  have hcopier : Request.ofArguments ["run", "copier.bin", "--script=letter.txt"] =
      .execute {} (.run ⟨"copier.bin", defaultBudget, ["letter.txt"]⟩) := by decide +kernel
  refine ⟨?_, ?_⟩
  · obtain ⟨-, -, hready⟩ := respond_run letterReader hgood
    obtain ⟨m, hm, hrun⟩ := hready [19, 65] [] (.ready (.program rfl (by decide)) (.texts .nil))
    rw [Machine.load_printer] at hm
    cases hm
    obtain ⟨hanswers, hempty⟩ := hrun [] none
    obtain ⟨-, hfailed, -⟩ := respond_run letterReader hbad
    obtain ⟨-, log, -, -, hanswer⟩ := hfailed _ (.image (.unreadable rfl))
    refine ⟨hanswers.status, hanswers.output, (hempty rfl).mpr ⟨2, rfl⟩, ?_⟩
    exact congrArg Result.status (hanswer []).2
  · have hread : letterReader "letter.txt" = .ok (Input.utf8 ['a']) := rfl
    have hscript : ScriptsRule letterReader ["letter.txt"] (.ok ['a', '\n']) :=
      .texts (.cons (.unended hread (by decide) (by decide)) .nil)
    obtain ⟨-, -, hready⟩ := respond_run letterReader hcopier
    obtain ⟨m, hm, hrun⟩ := hready copier _ (.ready (.program rfl (by decide)) hscript)
    rw [Machine.load_eq_setFrom (by decide)] at hm
    cases hm
    obtain ⟨hanswers, -⟩ := hrun [98] none
    exact ⟨hanswers.status, hanswers.output, hanswers.quiet rfl⟩

end CommandLine

end WordMachine
