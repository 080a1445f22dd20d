import WordMachine.Proofs.CommandLine.Response
import WordMachine.Proofs.Input.Feed

/-!
# Scripts and standard input

A program cannot tell whether a text was given in scripts or on standard input. A script that is put
in front of standard input instead, completed and with a carriage return before each newline, makes no
difference to what a run leaves behind. So scripts count only as one text: what they contain, each
completed, one after the other.
-/

namespace WordMachine

namespace CommandLine

open Input (Whole utf8 withReturns)

variable {s : Settings} {o o' : RunOptions} {read read' : Reader} {paths : List String}
  {texts : List (List Char)}

/-! ### Texts of scripts -/

/-- The bytes on standard input that stand for a script. -/
def typed (text : List Char) : List UInt8 := utf8 (withReturns (completed text))

example : typed ['a', '\r', '\n', '\n', '\r'] = [97, 13, 13, 10, 13, 10, 13, 13, 10] := by decide

/-- The scripts can be read, and these are their texts. -/
def Scripts (read : Reader) (paths : List String) (texts : List (List Char)) : Prop :=
  List.Forall₂ (fun path text => read path = .ok (utf8 text)) paths texts

lemma whole_completed (text : List Char) : Whole (completed text) := by
  rw [completed]
  split
  · next hlast =>
    rw [List.getLast?_eq_none_iff.mp hlast]
    exact .nil
  · next hlast =>
    obtain ⟨front, rfl⟩ := List.getLast?_eq_some_iff.mp hlast
    exact Input.whole_concat front
  · exact Input.whole_concat text

lemma flatMap_typed (texts : List (List Char)) :
    texts.flatMap typed = utf8 (withReturns (texts.flatMap completed)) := by
  induction texts with
  | nil => rfl
  | cons text texts ih =>
    rw [List.flatMap_cons, List.flatMap_cons, Input.withReturns_append, Input.utf8_append, ih]
    rfl

/-- What is typed is read as the scripts are. -/
lemma feed_typed (texts : List (List Char)) (input : List UInt8) :
    (Source.ofBytes (texts.flatMap typed ++ input)).feed =
      (texts.flatMap completed).map .ok ++ (Source.ofBytes input).feed := by
  have hwhole : Whole (texts.flatMap completed) := .flatMap whole_completed texts
  rw [flatMap_typed, Source.feed_append hwhole.withReturns, Input.normalise_withReturns hwhole]

lemma Scripts.scriptsRule (h : Scripts read paths texts) :
    ScriptsRule read paths (.ok (texts.flatMap completed)) := by
  rw [List.flatMap_def]
  refine .texts ?_
  rw [List.forall₂_map_right_iff]
  exact h.imp fun _ _ htext => .text htext

/-! ### Results that agree -/

/-- The results agree in status and output, and without verbosity in the errors as well. -/
structure Result.Agrees (s : Settings) (answer answer' : Result) : Prop where
  status : answer.status = answer'.status
  output : answer.output = answer'.output
  errors : s.verbosity = 0 → answer.errors = answer'.errors

lemma imageRule_congr {path : String} {r : Except (List String) (List Word)}
    (h : read' path = read path) : ImageRule read' path r ↔ ImageRule read path r := by
  rw [imageRule_iff (s := {}), imageRule_iff (s := {}), result_readProgram, result_readProgram, h]

lemma quietRecords_congr {m m' : Machine} (h : m.core = m'.core) (r : Except Fault Outcome) :
    quietRecords m r = quietRecords m' r := by
  rcases r with fault | ⟨n | n⟩ <;> simp only [quietRecords, undecodedRecords, runErrors, h]

lemma Answers.agrees {start start' : Machine} {r r' : RunReport} {answer answer' : Result}
    (h : Answers s o start r answer) (h' : Answers s o' start' r' answer')
    (hresult : r.result = r'.result) (hmachine : r.machine.Interchangeable r'.machine) :
    answer.Agrees s answer' := by
  constructor
  · rw [h.status, h'.status, hresult]
  · rw [h.output, h'.output, hmachine.console.output]
  · intro hs
    rw [h.quiet hs, h'.quiet hs, hresult, quietRecords_congr hmachine.core]

lemma agrees_of_error {chain : List String} (h : (prepare s o read).result = .error chain)
    (h' : (prepare s o' read').result = .error chain) (input input' : List UInt8) :
    (execute s o read input).Agrees s (execute s o' read' input') := by
  rw [execute_of_error h, execute_of_error h']
  refine ⟨rfl, rfl, ?_⟩
  intro hs
  rw [(plain_prepare s o read).silent hs, (plain_prepare s o' read').silent hs]

/-! ### Command lines -/

/-- The arguments that ask for a run with scripts. -/
def scripted (image : String) (paths : List String) : List String :=
  "run" :: image :: paths.flatMap fun path => ["--script", path]

lemma arguments_scripts (g : Given) (h : ∀ path ∈ paths, Shape.of path = .operand) :
    g.arguments .run none (paths.flatMap fun path => ["--script", path]) =
      .ok { g with scripts := g.scripts ++ paths } := by
  induction paths generalizing g with
  | nil =>
    rw [List.append_nil]
    rfl
  | cons path paths ih =>
    obtain ⟨hpath, hpaths⟩ := List.forall_mem_cons.mp h
    have hscript : Shape.of "--script" = .long "script" none := by decide
    have hlong : g.long .run "script" none = .ok (g, some .script) := rfl
    rw [List.flatMap_cons, List.cons_append, List.singleton_append]
    simp only [Given.arguments, hscript, hlong, hpath, ok_bind, Given.valued]
    rw [ih _ hpaths, List.append_assoc]
    rfl

/-- Files whose names do not look like options can be given in any number. -/
theorem ofArguments_scripted {image : String} (himage : Shape.of image = .operand)
    (h : ∀ path ∈ paths, Shape.of path = .operand) :
    Request.ofArguments (scripted image paths) =
      .execute {} (.run { image := image, scripts := paths }) := by
  have hrun : Shape.of "run" = .operand := by decide
  have hword : ({} : Given).word .run image = .ok { operand := some image } := rfl
  have hgiven : ({} : Given).arguments .run none
      (image :: paths.flatMap fun path => ["--script", path]) =
      .ok { operand := some image, scripts := paths } := by
    simp only [Given.arguments, himage, hword, ok_bind]
    exact arguments_scripts _ h
  rw [Request.ofArguments, scripted]
  simp only [Given.beforeCommand, hrun, ok_bind, readCommand, hgiven, Given.run]
  rfl

/-! ### Runs -/

lemma agrees_of_ok {m : Machine} {text text' : List Char} {input input' : List UInt8}
    (h : (prepare s o read).result = .ok (m.queueInput text))
    (h' : (prepare s o' read').result = .ok (m.queueInput text')) (hconsole : m.console = {})
    (hsteps : o'.steps = o.steps)
    (hfeed : text.map .ok ++ (Source.ofBytes input).feed =
      text'.map .ok ++ (Source.ofBytes input').feed) :
    (execute s o read input).Agrees s (execute s o' read' input') := by
  have hsink : m.console.sink = none := congrArg Console.sink hconsole
  have houtput : m.console.output = "" := congrArg Console.output hconsole
  have hanswers := answers_execute h hsink houtput input none
  have hanswers' := answers_execute h' hsink houtput input' none
  rw [hsteps] at hanswers'
  have hstart := Machine.Interchangeable.of_feed (congrArg Console.pending hconsole) hfeed
  obtain ⟨hresult, hmachine⟩ := hstart.run none none o.steps
  exact hanswers.agrees hanswers' hresult hmachine

/-- Runs of one image agree if the same is fed to them, whether by scripts or by standard input. -/
theorem execute_agrees {text text' : List Char} {input input' : List UInt8}
    (himage : o'.image = o.image) (hsteps : o'.steps = o.steps)
    (hread : read' o.image = read o.image) (hscripts : ScriptsRule read o.scripts (.ok text))
    (hscripts' : ScriptsRule read' o'.scripts (.ok text'))
    (hfeed : text.map .ok ++ (Source.ofBytes input).feed =
      text'.map .ok ++ (Source.ofBytes input').feed) :
    (execute s o read input).Agrees s (execute s o' read' input') := by
  have hrule : ImageRule read o.image (readProgram s read o.image).result := imageRule_iff.mpr rfl
  have hrule' : ImageRule read' o'.image (readProgram s read o.image).result := by
    rw [himage]
    exact (imageRule_congr hread).mpr hrule
  generalize (readProgram s read o.image).result = r at hrule hrule'
  cases r with
  | error chain =>
    exact agrees_of_error (result_prepare_of_error (.image hrule))
      (result_prepare_of_error (.image hrule')) input input'
  | ok program =>
    have hready : FilesRule read o (.ok (program, text)) := .ready hrule hscripts
    have hready' : FilesRule read' o' (.ok (program, text')) := .ready hrule' hscripts'
    obtain ⟨m, hm⟩ := exists_load_of_filesRule hready
    have hconsole : m.console = {} := by
      rw [(Machine.load_eq_ok_iff.mp hm).2]
    exact agrees_of_ok (result_prepare_of_ok hready hm) (result_prepare_of_ok hready' hm) hconsole
      hsteps hfeed

/-- Scripts may as well be typed: a run with scripts leaves behind what a run without them does that
finds their texts in front of its input, each completed and with a carriage return before each
newline. Another choice of scripts makes no difference if all together they have the same text. -/
theorem respond_scripts {arguments arguments' : List String}
    (h : Request.ofArguments arguments = .execute s (.run o))
    (h' : Request.ofArguments arguments' = .execute s (.run { o with scripts := [] }))
    (hscripts : Scripts read o.scripts texts) (input : List UInt8) :
    (respond arguments read input).Agrees s
      (respond arguments' read (texts.flatMap typed ++ input)) ∧
    ∀ (others : List String) (read' : Reader) (paths : List String) (texts' : List (List Char)),
      Request.ofArguments others = .execute s (.run { o with scripts := paths }) →
      read' o.image = read o.image → Scripts read' paths texts' →
      texts'.flatMap completed = texts.flatMap completed →
      (respond arguments read input).Agrees s (respond others read' input) := by
  have hrule := hscripts.scriptsRule
  constructor
  · rw [respond, respond, h, h']
    refine execute_agrees rfl rfl rfl hrule (.texts .nil) ?_
    rw [feed_typed]
    rfl
  · intro others read' paths texts' hothers hread hscripts' htexts
    rw [respond, respond, h, hothers]
    refine execute_agrees rfl rfl hread hrule hscripts'.scriptsRule ?_
    rw [htexts]

/-- The files are a program that reads and writes two characters, and texts for it. -/
def echoReader : Reader := fun path =>
  match path with
  | "echo.bin"  => .ok (Image.encode [20, 32768, 19, 32768, 20, 32768, 19, 32768, 0])
  | "one.txt"   => .ok (utf8 ['a', '\r'])
  | "two.txt"   => .ok (utf8 [])
  | "three.txt" => .ok (utf8 ['a', '\r', '\n'])
  | _           => .error "gone"

theorem respond_scripts_echo :
    let answer := respond (scripted "echo.bin" ["one.txt", "two.txt"]) echoReader [98]
    answer.Agrees {} (respond ["run", "echo.bin"] echoReader [97, 13, 13, 10, 98]) ∧
      answer.Agrees {} (respond (scripted "echo.bin" ["three.txt"]) echoReader [98]) := by
  have himage : Shape.of "echo.bin" = .operand := by decide
  have hscripts : Scripts echoReader ["one.txt", "two.txt"] [['a', '\r'], []] :=
    .cons rfl (.cons rfl .nil)
  have hscripts' : Scripts echoReader ["three.txt"] [['a', '\r', '\n']] := .cons rfl .nil
  obtain ⟨htyped, hothers⟩ := respond_scripts (ofArguments_scripted himage (by decide))
    (ofArguments_scripted himage (by decide)) hscripts [98]
  exact ⟨htyped, hothers _ echoReader ["three.txt"] _ (ofArguments_scripted himage (by decide)) rfl
    hscripts' rfl⟩

end CommandLine

end WordMachine
