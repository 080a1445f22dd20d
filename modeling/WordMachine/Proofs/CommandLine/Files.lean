import Mathlib.Data.List.Forall2
import WordMachine.CommandLine.Execution
import WordMachine.Proofs.Images
import WordMachine.Proofs.Input.Lines

/-!
# Reading the files of a run

Before a program runs, its image is read, and then the scripts, in the order in which they were
given. The first file that cannot be read, or is not what it should be, ends this with a chain of
errors. `FilesRule` lists all that can come of it. An image that was read always fits into memory, so
nothing can go wrong afterwards.
-/

namespace WordMachine

namespace CommandLine

/-! ### What can come of it -/

/-- What can come of reading a script: its text, whose last line gets a newline if it has none, or
what is wrong with it. -/
inductive ScriptRule (read : Reader) (path : String) : Except String (List Char) → Prop
  | unreadable {message : String} (h : read path = .error message) :
      ScriptRule read path (.error message)
  | noText {bytes : List UInt8} (h : read path = .ok bytes)
      (ht : ∀ text, bytes ≠ Input.utf8 text) : ScriptRule read path (.error Source.invalidText)
  | ended {text : List Char} (h : read path = .ok (Input.utf8 text))
      (hend : text = [] ∨ text.getLast? = some '\n') : ScriptRule read path (.ok text)
  | unended {text : List Char} (h : read path = .ok (Input.utf8 text)) (hne : text ≠ [])
      (hend : text.getLast? ≠ some '\n') : ScriptRule read path (.ok (text ++ ['\n']))

/-- What can come of reading scripts one after the other: all their texts, or what is wrong with the
first that has no text. -/
inductive ScriptsRule (read : Reader) (paths : List String) :
    Except (List String) (List Char) → Prop
  | failed (before after : List String) {path message : String}
      (hpaths : paths = before ++ path :: after)
      (hbefore : ∀ p ∈ before, ∃ text, ScriptRule read p (.ok text))
      (h : ScriptRule read path (.error message)) :
      ScriptsRule read paths (.error ["could not read script " ++ path, message])
  | texts {texts : List (List Char)}
      (h : List.Forall₂ (fun path text => ScriptRule read path (.ok text)) paths texts) :
      ScriptsRule read paths (.ok texts.flatten)

/-- What can come of reading an image. -/
inductive ImageRule (read : Reader) (path : String) : Except (List String) (List Word) → Prop
  | unreadable {message : String} (h : read path = .error message) :
      ImageRule read path (.error ["could not read program image " ++ path, message])
  | odd {bytes : List UInt8} (h : read path = .ok bytes) (hodd : bytes.length % 2 = 1) :
      ImageRule read path
        (.error ["invalid program image", (ImageError.oddLength bytes.length).text])
  | tooLarge {bytes : List UInt8} (h : read path = .ok bytes) (heven : bytes.length % 2 = 0)
      (hlarge : memorySize < bytes.length / 2) :
      ImageRule read path
        (.error ["invalid program image", (ImageError.tooLarge (bytes.length / 2)).text])
  | program {program : List Word} (h : read path = .ok (Image.encode program))
      (hsize : program.length ≤ memorySize) : ImageRule read path (.ok program)

/-- What can come of reading the files of a run: a program and the text of the scripts, or a chain of
errors. -/
inductive FilesRule (read : Reader) (o : RunOptions) :
    Except (List String) (List Word × List Char) → Prop
  | image {chain : List String} (h : ImageRule read o.image (.error chain)) :
      FilesRule read o (.error chain)
  | script {program : List Word} {chain : List String}
      (himage : ImageRule read o.image (.ok program))
      (h : ScriptsRule read o.scripts (.error chain)) : FilesRule read o (.error chain)
  | ready {program : List Word} {text : List Char}
      (himage : ImageRule read o.image (.ok program))
      (hscripts : ScriptsRule read o.scripts (.ok text)) : FilesRule read o (.ok (program, text))

/-! ### Thresholds -/

namespace Settings

variable {s : Settings}

/-- Without any verbosity, nothing below a warning is logged. -/
lemma threshold_eq_warn (h : s.verbosity = 0) (origin : Origin) : s.threshold origin = .warn := by
  cases origin <;> simp only [threshold, h]

lemma admitted_eq_nil (h : s.verbosity = 0) {r : Record} (hr : Level.warn.admits r.level = false)
    (origin : Origin) : s.admitted origin r = [] := by
  rw [admitted, threshold_eq_warn h, hr]
  rfl

lemma mem_of_mem_admitted {origin : Origin} {r r' : Record} (h : r' ∈ s.admitted origin r) :
    r' = r := by
  rw [admitted] at h
  split at h
  · exact List.mem_singleton.mp h
  · cases h

end Settings

/-! ### Work that logs -/

namespace Logged

variable {α β : Type} {s : Settings}

section Equations

variable (x : Logged α) (k : α → Logged β) (a : α) (log : List Record) (doing : String)

@[simp] lemma result_pure : (pure a : Logged α).result = .ok a := rfl

@[simp] lemma result_say : (say log).result = .ok () := rfl

@[simp] lemma result_attempt (y : Except String α) :
    (attempt doing y).result = y.mapError fun message => [doing, message] := rfl

@[simp] lemma result_bind : (x >>= k).result = x.result >>= fun a => (k a).result := by
  rcases x with ⟨log, _ | a⟩ <;> rfl

end Equations

/-- What is logged are words of the command itself, from outside any run, and there are none unless
they are asked for. -/
structure Plain (s : Settings) (x : Logged α) : Prop where
  spans : ∀ r ∈ x.log, r.spans = []
  silent : s.verbosity = 0 → x.log = []

lemma Plain.of_log_eq_nil {x : Logged α} (h : x.log = []) : x.Plain s := by
  refine ⟨?_, fun _ => h⟩
  rw [h]
  nofun

lemma Plain.pure (a : α) : (Pure.pure a : Logged α).Plain s := .of_log_eq_nil rfl

lemma Plain.attempt (doing : String) (y : Except String α) : (attempt doing y).Plain s :=
  .of_log_eq_nil rfl

lemma Plain.say {r : Record} (hspans : r.spans = []) (hr : Level.warn.admits r.level = false)
    (origin : Origin) : (say (s.admitted origin r)).Plain s := by
  constructor
  · intro r' hr'
    rw [Settings.mem_of_mem_admitted hr', hspans]
  · exact fun h => Settings.admitted_eq_nil h hr origin

lemma Plain.bind {x : Logged α} {k : α → Logged β} (hx : x.Plain s) (hk : ∀ a, (k a).Plain s) :
    (x >>= k).Plain s := by
  rcases x with ⟨log, _ | a⟩
  · exact ⟨hx.spans, hx.silent⟩
  · constructor
    · intro r hr
      obtain hr | hr := List.mem_append.mp hr
      · exact hx.spans r hr
      · exact (hk a).spans r hr
    · intro hs
      exact List.append_eq_nil_iff.mpr ⟨hx.silent hs, (hk a).silent hs⟩

end Logged

variable {s : Settings} {o : RunOptions} {read : Reader}

/-! ### Scripts -/

section Scripts

variable {path message : String} {paths : List String}

/-- A script that is a text is read as this text, completed. -/
lemma ScriptRule.text {text : List Char} (h : read path = .ok (Input.utf8 text)) :
    ScriptRule read path (.ok (completed text)) := by
  by_cases hend : text = [] ∨ text.getLast? = some '\n'
  · rw [completed_of_ended hend]
    exact .ended h hend
  · obtain ⟨hne, hlast⟩ := not_or.mp hend
    rw [completed_of_unended hne hlast]
    exact .unended h hne hlast

lemma readScript_of_text {text : List Char} (h : read path = .ok (Input.utf8 text)) :
    readScript read path = .ok (completed text) := by
  rw [readScript, h, ok_bind, Input.fromUTF8?_utf8]
  simp only [String.toList_ofList]

lemma scriptRule_readScript (read : Reader) (path : String) :
    ScriptRule read path (readScript read path) := by
  cases hread : read path with
  | error message =>
    rw [readScript, hread]
    exact .unreadable hread
  | ok bytes =>
    rw [readScript, hread, ok_bind]
    cases htext : String.fromUTF8? bytes.toByteArray with
    | some text =>
      rw [Input.fromUTF8?_eq_some_iff] at htext
      subst htext
      exact .text hread
    | none =>
      refine .noText hread ?_
      rintro text rfl
      rw [Input.fromUTF8?_utf8] at htext
      cases htext

lemma scriptRule_iff {r : Except String (List Char)} :
    ScriptRule read path r ↔ readScript read path = r := by
  constructor
  · intro h
    cases h with
    | unreadable h =>
      rw [readScript, h]
      rfl
    | @noText bytes h ht =>
      rw [readScript, h, ok_bind]
      cases htext : String.fromUTF8? bytes.toByteArray with
      | none => rfl
      | some text => exact absurd (Input.fromUTF8?_eq_some_iff.mp htext) (ht _)
    | ended h hend => rw [readScript_of_text h, completed_of_ended hend]
    | unended h hne hend => rw [readScript_of_text h, completed_of_unended hne hend]
  · rintro rfl
    exact scriptRule_readScript read path

lemma result_readScripts_of_error (paths : List String)
    (h : readScript read path = .error message) :
    (readScripts s read (path :: paths)).result =
      .error ["could not read script " ++ path, message] := by
  simp only [readScripts, Logged.result_bind, Logged.result_say, Logged.result_attempt, h, ok_bind]
  rfl

lemma result_readScripts_of_ok (paths : List String) {text : List Char}
    (h : readScript read path = .ok text) :
    (readScripts s read (path :: paths)).result =
      (readScripts s read paths).result.map (text ++ ·) := by
  simp only [readScripts, Logged.result_bind, Logged.result_say, Logged.result_attempt, h, ok_bind,
    Except.mapError, Logged.result_pure]
  cases (readScripts s read paths).result <;> rfl

lemma plain_readScripts (s : Settings) (read : Reader) (paths : List String) :
    (readScripts s read paths).Plain s := by
  induction paths with
  | nil => exact .pure []
  | cons path paths ih =>
    refine .bind (.say rfl rfl .command) fun _ => .bind (.attempt _ _) fun text => ?_
    exact .bind ih fun _ => .pure _

theorem scriptsRule_iff {r : Except (List String) (List Char)} :
    ScriptsRule read paths r ↔ (readScripts s read paths).result = r := by
  constructor
  · intro h
    cases h with
    | failed before after hpaths hbefore h =>
      subst hpaths
      induction before with
      | nil => exact result_readScripts_of_error after (scriptRule_iff.mp h)
      | cons p before ih =>
        obtain ⟨text, htext⟩ := hbefore p List.mem_cons_self
        rw [List.cons_append, result_readScripts_of_ok _ (scriptRule_iff.mp htext),
          ih fun q hq => hbefore q (List.mem_cons_of_mem p hq)]
        rfl
    | texts h =>
      induction h with
      | nil => rfl
      | cons htext _ ih =>
        rw [result_readScripts_of_ok _ (scriptRule_iff.mp htext), ih]
        rfl
  · rintro rfl
    induction paths with
    | nil => exact .texts .nil
    | cons path paths ih =>
      cases hread : readScript read path with
      | error message =>
        rw [result_readScripts_of_error _ hread]
        exact .failed [] paths rfl nofun (scriptRule_iff.mpr hread)
      | ok text =>
        rw [result_readScripts_of_ok _ hread]
        generalize (readScripts s read paths).result = r at ih
        cases ih with
        | failed before after hpaths hbefore h =>
          refine .failed (path :: before) after (congrArg (path :: ·) hpaths) ?_ h
          exact List.forall_mem_cons.mpr ⟨⟨text, scriptRule_iff.mpr hread⟩, hbefore⟩
        | texts h => exact .texts (.cons (scriptRule_iff.mpr hread) h)

end Scripts

/-! ### Images -/

section Images

variable {path : String}

lemma plain_readProgram (s : Settings) (read : Reader) (path : String) :
    (readProgram s read path).Plain s := by
  refine .bind (.say rfl rfl .command) fun _ => .bind (.attempt _ _) fun bytes => ?_
  refine .bind (.attempt _ _) fun program => .bind (.say rfl rfl .machine) fun _ => ?_
  exact .bind (.say rfl rfl .command) fun _ => .pure program

lemma result_readProgram (s : Settings) (read : Reader) (path : String) :
    (readProgram s read path).result =
      ((read path).mapError fun message => ["could not read program image " ++ path, message]) >>=
        fun bytes => (Image.decode bytes).mapError fun e => ["invalid program image", e.text] := by
  simp only [readProgram, Logged.result_bind, Logged.result_say, Logged.result_attempt, ok_bind]
  cases read path with
  | error message => rfl
  | ok bytes =>
    simp only [Except.mapError, ok_bind]
    cases Image.decode bytes <;> rfl

theorem imageRule_iff {r : Except (List String) (List Word)} :
    ImageRule read path r ↔ (readProgram s read path).result = r := by
  rw [result_readProgram]
  constructor
  · intro h
    cases h with
    | unreadable h =>
      rw [h]
      rfl
    | odd h hodd =>
      rw [h]
      simp only [Except.mapError, ok_bind, Image.decode, hodd]
      rfl
    | tooLarge h heven hlarge =>
      rw [h]
      simp only [Except.mapError, ok_bind, Image.decode, heven, hlarge]
      rfl
    | program h hsize =>
      rw [h]
      simp only [Except.mapError, ok_bind, Image.decode_encode hsize]
  · rintro rfl
    cases hread : read path with
    | error message => exact .unreadable hread
    | ok bytes =>
      simp only [Except.mapError, ok_bind, Image.decode]
      split_ifs with hodd hlarge
      · exact .odd hread (Nat.mod_two_ne_zero.mp hodd)
      · exact .tooLarge hread (Decidable.not_not.mp hodd) hlarge
      · have heven : bytes.length % 2 = 0 := Decidable.not_not.mp hodd
        refine .program ?_ ?_
        · rw [hread, Image.encode_wordsOf heven]
        · rw [Image.length_wordsOf]
          exact Nat.le_of_not_lt hlarge

end Images

/-! ### All files -/

lemma plain_prepare (s : Settings) (o : RunOptions) (read : Reader) : (prepare s o read).Plain s := by
  refine .bind (plain_readProgram s read o.image) fun program => ?_
  refine .bind (plain_readScripts s read o.scripts) fun text => .bind (.attempt _ _) fun m => ?_
  exact .bind (.say rfl rfl .command) fun _ => .pure _

/-- One of the rules applies. -/
theorem exists_filesRule (read : Reader) (o : RunOptions) : ∃ outcome, FilesRule read o outcome := by
  have himage : ImageRule read o.image (readProgram {} read o.image).result := imageRule_iff.mpr rfl
  have hscripts : ScriptsRule read o.scripts (readScripts {} read o.scripts).result :=
    scriptsRule_iff.mpr rfl
  cases hi : (readProgram {} read o.image).result with
  | error chain => exact ⟨_, .image (hi ▸ himage)⟩
  | ok program =>
    cases hs : (readScripts {} read o.scripts).result with
    | error chain => exact ⟨_, .script (hi ▸ himage) (hs ▸ hscripts)⟩
    | ok text => exact ⟨_, .ready (hi ▸ himage) (hs ▸ hscripts)⟩

/-- A chain of errors says what was being done, which is never the loading, and what is wrong. -/
lemma FilesRule.exists_chain {chain : List String} (h : FilesRule read o (.error chain)) :
    ∃ doing message, chain = [doing, message] ∧ doing ≠ "could not load program" := by
  have hne {doing : String} (hdoing : ¬ doing.toList <+: "could not load program".toList)
      (path : String) : doing ++ path ≠ "could not load program" := by
    intro heq
    rw [← heq, String.toList_append] at hdoing
    exact hdoing (List.prefix_append _ _)
  cases h with
  | image h =>
    cases h with
    | unreadable => exact ⟨_, _, rfl, hne (by decide) _⟩
    | odd | tooLarge => exact ⟨_, _, rfl, by decide⟩
  | script _ h =>
    cases h with
    | failed => exact ⟨_, _, rfl, hne (by decide) _⟩

lemma result_prepare_of_error {chain : List String} (h : FilesRule read o (.error chain)) :
    (prepare s o read).result = .error chain := by
  simp only [prepare, Logged.result_bind]
  cases h with
  | image h =>
    rw [imageRule_iff.mp h]
    rfl
  | script himage h =>
    rw [imageRule_iff.mp himage, ok_bind, scriptsRule_iff.mp h]
    rfl

lemma exists_load_of_filesRule {program : List Word} {text : List Char}
    (h : FilesRule read o (.ok (program, text))) : ∃ m, Machine.load program = .ok m := by
  cases h with
  | ready himage _ =>
    cases himage with
    | program _ hsize => exact ⟨_, Machine.load_eq_ok_iff.mpr ⟨hsize, rfl⟩⟩

lemma result_prepare_of_ok {program : List Word} {text : List Char} {m : Machine}
    (h : FilesRule read o (.ok (program, text))) (hm : Machine.load program = .ok m) :
    (prepare s o read).result = .ok (m.queueInput text) := by
  simp only [prepare, Logged.result_bind]
  cases h with
  | ready himage hscripts =>
    rw [imageRule_iff.mp himage, ok_bind, scriptsRule_iff.mp hscripts, ok_bind,
      Logged.result_attempt, hm]
    rfl

end CommandLine

end WordMachine
