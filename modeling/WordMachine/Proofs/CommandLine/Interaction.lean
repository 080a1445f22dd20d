import WordMachine.CommandLine.Interaction
import WordMachine.Proofs.CommandLine.Response
import WordMachine.Proofs.Input.Stream
import WordMachine.Proofs.Log

/-!
# A command as it goes

A command that fetches its input line by line and writes as it goes leaves behind what the same
command leaves behind that has all of its input from the start. A `Terminal` holds the input that was
not asked for and what was written so far. At each moment, the terminal and the machine at work are
parts of a whole, the machine that has all of the input, and a step of the part is a step of the
whole: it waits for a line only where the whole goes on to the next line of its source.
-/

namespace WordMachine

/-! ### Lines of bytes -/

namespace Source

/-- What a read of a line takes of some bytes, and what it leaves. -/
def cutLine : List UInt8 → List UInt8 × List UInt8
  | []      => ([], [])
  | b :: bs => if b = newline then ([b], bs) else (b :: (cutLine bs).1, (cutLine bs).2)

example : cutLine [97, 10, 98, 10] = ([97, 10], [98, 10]) := by decide

/-- The last byte, if there is one, is a newline. -/
def Ended (bytes : List UInt8) : Prop := ∀ b ∈ bytes.getLast?, b = newline

section Lines

variable {bytes input : List UInt8} {segment : Segment} {rest : Source}

lemma cutLine_append (bytes : List UInt8) : (cutLine bytes).1 ++ (cutLine bytes).2 = bytes := by
  fun_induction cutLine bytes with
  | case1 => rfl
  | case2 bs => rfl
  | case3 b bs hb ih => rw [List.cons_append, ih]

lemma cutLine_eq_nil_iff : (cutLine bytes).1 = [] ↔ bytes = [] := by
  fun_cases cutLine bytes <;> simp

lemma ended_cutLine (bytes : List UInt8) :
    Ended (cutLine bytes).1 ∨ (cutLine bytes).2 = [] := by
  fun_induction cutLine bytes with
  | case1 => exact .inr rfl
  | case2 bs =>
    refine .inl ?_
    rintro b ⟨⟩
    rfl
  | case3 b bs hb ih =>
    obtain hended | hrest := ih
    · cases hline : (cutLine bs).1 with
      | nil =>
        -- the byte is the last one, and no newline
        rw [cutLine_eq_nil_iff.mp hline]
        exact .inr rfl
      | cons b' line =>
        rw [hline] at hended
        exact .inl hended
    · exact .inr hrest

lemma next?_ended (h : newline ∉ bytes) (items : List Item) :
    next? ⟨bytes.map .byte ++ .byte newline :: items⟩ = some (.line bytes true, ⟨items⟩) := by
  have hinline : ∀ item ∈ bytes.map Item.byte, item.isInline = true := by
    intro item hitem
    obtain ⟨b, hb, rfl⟩ := List.mem_map.mp hitem
    simp only [Item.isInline, decide_eq_true_eq]
    rintro rfl
    exact h hb
  have hnewline : (Item.byte newline).isInline = false := rfl
  have htake : (bytes.map Item.byte ++ .byte newline :: items).takeWhile Item.isInline =
      bytes.map .byte := by
    rw [List.takeWhile_append_of_pos hinline, List.takeWhile_cons_of_neg (by simp [hnewline]),
      List.append_nil]
  have hdrop : (bytes.map Item.byte ++ .byte newline :: items).dropWhile Item.isInline =
      .byte newline :: items := by
    rw [List.dropWhile_append_of_pos hinline, List.dropWhile_cons_of_neg (by simp [hnewline])]
  generalize hitems : bytes.map Item.byte ++ .byte newline :: items = items' at htake hdrop
  cases items' with
  | nil => simp at hitems
  | cons item items' => simp only [next?, htake, hdrop, filterMap_byte?]

/-- A line is read in the same way if there is more input after it. -/
lemma next?_append (h : Ended bytes ∨ input = [])
    (hs : (ofBytes bytes).next? = some (segment, rest)) :
    ∃ left, rest = ofBytes left ∧ (Ended left ∨ input = []) ∧
      (ofBytes (bytes ++ input)).next? = some (segment, ofBytes (left ++ input)) := by
  have hcut := cut_of_next? hs
  obtain ⟨items⟩ := rest
  generalize hitems : (ofBytes bytes).items = items' at hcut
  cases hcut with
  | last hbytes hne =>
    obtain rfl := eq_of_map_byte hitems
    obtain hended | rfl := h
    · -- the last byte of a line that has ended would be a newline
      have hlast := hended _ (List.getLast_mem_getLast? hne)
      exact absurd (hlast ▸ List.getLast_mem hne) hbytes
    · refine ⟨[], rfl, .inr rfl, ?_⟩
      rw [List.append_nil]
      exact hs
  | ended hfront =>
    obtain ⟨front, back, rfl, hmap, hback⟩ := List.map_eq_append_iff.mp hitems
    obtain ⟨b, left, rfl, hb, rfl⟩ := List.map_eq_cons_iff.mp hback
    obtain rfl := eq_of_map_byte hmap
    cases hb
    refine ⟨left, rfl, h.imp_left ?_, ?_⟩
    · intro hended b hb
      exact hended b (List.mem_getLast?_append_of_mem_getLast? (List.mem_getLast?_cons hb))
    · have happend := next?_ended hfront ((left ++ input).map .byte)
      simp only [ofBytes, List.map_append, List.map_cons, List.append_assoc, List.cons_append]
      rw [List.map_append] at happend
      exact happend
  | failed hbytes message =>
    have hbyte : Item.failure message ∉ (ofBytes bytes).items := by simp [ofBytes]
    rw [hitems] at hbyte
    exact absurd (List.mem_append_right _ List.mem_cons_self) hbyte

end Lines

end Source

/-! ### Events -/

namespace Machine

variable {R : Console → Console → Prop} {m m' : Machine}

lemma notes_print (m : Machine) (next : Word) (c : Char) : (m.print next c).notes = [] := by
  simp only [print]
  rcases m.console.put c with ⟨_ | _, _⟩ <;> rfl

lemma notes_read (next : Word) (l : Location)
    (hresult : m.console.peek.result = m'.console.peek.result)
    (hnotes : m.console.peek.notes = m'.console.peek.notes) :
    (m.read next l).notes = (m'.read next l).notes := by
  simp only [read, hresult, hnotes]
  cases m'.console.peek.result with
  | error fault => rfl
  | ok c =>
    cases hw : Word.ofChar? c <;> simp only [hw]

lemma Related.notes_execute (h : m.Related R m') {i : Instruction}
    (hpeek : ∀ dst, i = .read dst → m.console.peek.result = m'.console.peek.result ∧
      m.console.peek.notes = m'.console.peek.notes) :
    (m.execute i).notes = (m'.execute i).notes := by
  have hact := i.result_resolve m.core
  simp only [execute, ← h.core]
  generalize i.resolve m.core = resolution at hact
  obtain ⟨notes, _ | action⟩ := resolution
  · rfl
  · cases action with
    | halt | update => rfl
    | print c =>
      simp only [Machine.perform]
      rw [notes_print, notes_print]
    | read l =>
      obtain ⟨dst, rfl, -⟩ := Core.act_eq_read_iff.mp hact.symm
      obtain ⟨hresult, hnotes⟩ := hpeek dst rfl
      simp only [Machine.perform]
      rw [notes_read _ l hresult hnotes]

/-- Of the consoles, events show no more than what a look at the next character comes to. -/
theorem Related.events_step (h : m.Related R m') (hresult : m.step.result = m'.step.result)
    (hmachine : m.step.machine.Related R m'.step.machine)
    (hpeek : m.Reads → m.console.peek.result = m'.console.peek.result ∧
      m.console.peek.notes = m'.console.peek.notes) :
    m.step.events = m'.step.events := by
  cases hrun : m.halted with
  | true => rw [step_of_halted hrun, step_of_halted (h.halted.symm.trans hrun)]
  | false =>
    have hrun' : m'.halted = false := h.halted.symm.trans hrun
    cases hf : m.core.fetch with
    | error e => rw [step_of_fetch_error hrun hf, step_of_fetch_error hrun' (h.core ▸ hf)]
    | ok i =>
      have hnotes : (m.execute i).notes = (m'.execute i).notes := by
        apply h.notes_execute
        rintro dst rfl
        exact hpeek ⟨hrun, dst, hf⟩
      have hhalt : m.step.machine.haltEvents m.step.result =
          m'.step.machine.haltEvents m'.step.result := by
        simp only [haltEvents, hresult, hmachine.core, hmachine.cycles]
      rw [events_step_of_fetch hrun hf, events_step_of_fetch hrun' (h.core ▸ hf), account, account,
        hhalt, hnotes, h.core]

end Machine

/-! ### Parts of a machine -/

/-- A console is all of another one but for the last lines of its input and the first bytes of its
output. -/
structure Console.Parts (input written : List UInt8) (whole part : Console) : Prop where
  output : whole.output = part.output
  pending : whole.pending = part.pending
  source : ∃ bytes, part.source = .ofBytes bytes ∧ (Source.Ended bytes ∨ input = []) ∧
    whole.source = .ofBytes (bytes ++ input)
  sink : ∃ all sent, whole.sink = some all ∧ part.sink = some sent ∧ all.policy = .unlimited ∧
    sent.policy = .unlimited ∧ all.received.toList = written ++ sent.received.toList

namespace Console.Parts

variable {input written : List UInt8} {whole part : Console}

lemma put (h : Parts input written whole part) (c : Char) :
    (whole.put c).1 = (part.put c).1 ∧ Parts input written (whole.put c).2 (part.put c).2 := by
  obtain ⟨houtput, hpending, hsource, all, sent, hall, hsent, hpolicy, hpolicy', hreceived⟩ := h
  simp only [Console.put, hall, hsent, Sink.send_unlimited hpolicy String.utf8EncodeChar_ne_nil,
    Sink.send_unlimited hpolicy' String.utf8EncodeChar_ne_nil, true_and]
  refine ⟨congrArg (·.push c) houtput, hpending, hsource, _, _, rfl, rfl, rfl, rfl, ?_⟩
  simp [hreceived]

/-- The part sees what the whole would see, unless it is at the end of its input while there is
more. -/
lemma peek (h : Parts input written whole part)
    (hfed : part.peek.result ≠ .error .endOfInput ∨ input = []) :
    whole.peek.result = part.peek.result ∧ whole.peek.notes = part.peek.notes ∧
      Parts input written whole.peek.console part.peek.console := by
  obtain ⟨output, pending, source, sink⟩ := whole
  obtain ⟨output', pending', source', sink'⟩ := part
  obtain ⟨rfl, rfl, ⟨bytes, rfl, hended, rfl⟩, hsink⟩ := h
  cases pending with
  | cons c cs => exact ⟨rfl, rfl, rfl, rfl, ⟨bytes, rfl, hended, rfl⟩, hsink⟩
  | nil =>
    cases hs : (Source.ofBytes bytes).next? with
    | none =>
      have hbytes : bytes = [] := List.map_eq_nil_iff.mp (Source.next?_eq_none_iff.mp hs)
      subst hbytes
      have hinput : input = [] := hfed.resolve_left fun hne => hne rfl
      have hsource : Source.ofBytes [] = .ofBytes ([] ++ input) := by rw [hinput, List.append_nil]
      rw [← hsource]
      exact ⟨rfl, rfl, rfl, rfl, ⟨[], rfl, hended, hsource⟩, hsink⟩
    | some p =>
      obtain ⟨segment, rest⟩ := p
      obtain ⟨left, rfl, hleft, hs'⟩ := Source.next?_append hended hs
      simp only [Console.peek, hs, hs']
      cases segment.text with
      | error message => exact ⟨rfl, rfl, rfl, rfl, ⟨left, rfl, hleft, rfl⟩, hsink⟩
      | ok line       => exact ⟨rfl, rfl, rfl, rfl, ⟨left, rfl, hleft, rfl⟩, hsink⟩

lemma advance (h : Parts input written whole part) :
    Parts input written whole.advance part.advance :=
  ⟨h.output, congrArg List.tail h.pending, h.source, h.sink⟩

end Console.Parts

namespace Machine

variable {input written : List UInt8} {whole part : Machine}

/-- A machine that reads fails if it cannot look at a character. -/
lemma Reads.step_of_peek (h : part.Reads) {fault : Fault}
    (hpeek : part.console.peek.result = .error fault) : part.step.result = .error fault := by
  obtain ⟨hrun, dst, hf⟩ := h
  obtain ⟨next, l, hp⟩ := Core.exists_plan_of_fetch hf
  rw [(step_of_plan hrun hp).1]
  simp only [perform, read, hpeek]

/-- A step that comes to the end of the input does nothing. -/
lemma step_of_endOfInput (h : part.step.result = .error .endOfInput) :
    part.step.machine = part ∧ part.console.source.items = [] := by
  have hrule := part.stepRule
  rw [h] at hrule
  generalize part.step.machine = m' at hrule
  cases hrule with
  | unread hrun hp hc =>
    have hlook := Console.peekRule_of_result hc
    generalize part.console.peek.console = con at hlook
    cases hlook with
    | exhausted hpending hs => exact ⟨rfl, hs⟩

lemma finish_related {R : Console → Console → Prop} (h : whole.Related R part)
    (threshold : Option Level) (start : Nat) (log : Array Event) :
    (whole.finish threshold start log).result = (part.finish threshold start #[]).result ∧
      (whole.finish threshold start log).machine = whole ∧
      (part.finish threshold start #[]).machine = part ∧
      (whole.finish threshold start log).events.toList =
        log.toList ++ (part.finish threshold start #[]).events.toList := by
  simp only [finish, h.core, h.cycles, h.halted]
  split <;> simp

/-- A step of a part is a step of the whole, unless it lacks input that is in the terminal. -/
theorem step_parts (h : whole.Related (Console.Parts input written) part)
    (hfed : part.step.result ≠ .error .endOfInput ∨ input = []) :
    whole.step.result = part.step.result ∧ whole.step.events = part.step.events ∧
      whole.step.machine.Related (Console.Parts input written) part.step.machine := by
  have hlook (hreads : whole.Reads) := h.console.peek <| hfed.imp_left fun hne hpeek =>
    hne (Reads.step_of_peek ⟨h.halted.symm.trans hreads.1, h.core ▸ hreads.2⟩ hpeek)
  obtain ⟨hresult, hmachine⟩ := h.step (fun _ => h.console.put)
    (fun hreads => ⟨(hlook hreads).1, (hlook hreads).2.2⟩)
    (fun hreads _ _ => (hlook hreads).2.2.advance)
  have hevents := h.events_step hresult hmachine
    fun hreads => ⟨(hlook hreads).1, (hlook hreads).2.1⟩
  exact ⟨hresult, hevents, hmachine⟩

/-- A part that is at the end of its input gets the next line. -/
lemma parts_attachSource (h : whole.Related (Console.Parts input written) part)
    (hend : part.console.source.items = []) :
    whole.Related (Console.Parts (Source.cutLine input).2 written)
      (part.attachSource (.ofBytes (Source.cutLine input).1)) := by
  obtain ⟨hcore, ⟨houtput, hpending, ⟨bytes, hpart, -, hwhole⟩, hsink⟩, hcycles, hhalted⟩ := h
  rw [hpart] at hend
  obtain rfl : bytes = [] := List.map_eq_nil_iff.mp hend
  refine ⟨hcore, ⟨houtput, hpending, ⟨_, rfl, Source.ended_cutLine input, ?_⟩, hsink⟩, hcycles,
    hhalted⟩
  rw [hwhole, Source.cutLine_append]
  rfl

end Machine

/-! ### Runs of a command -/

namespace CommandLine

lemma records_append (s : Settings) (budget : Nat) (es es' : List Event) :
    s.records budget (es ++ es') = s.records budget es ++ s.records budget es' :=
  List.map_append

lemma conclude_congr (s : Settings) {m m' : Machine} (h : m.core = m'.core)
    (r : Except Fault Outcome) : conclude s m r = conclude s m' r := by
  cases r <;> simp only [conclude, runErrors, h]

/-- A run starts without a source. -/
lemma source_of_prepare {s : Settings} {o : RunOptions} {read : Reader} {m : Machine}
    (h : (prepare s o read).result = .ok m) : m.console.source = .empty := by
  obtain ⟨chain | ⟨program, text⟩, hrule⟩ := exists_filesRule read o
  · cases h.symm.trans (result_prepare_of_error hrule)
  · obtain ⟨m', hm'⟩ := exists_load_of_filesRule hrule
    cases h.symm.trans (result_prepare_of_ok hrule hm')
    rw [(Machine.load_eq_ok_iff.mp hm').2]
    rfl

/-! ### A command in a terminal -/

/-- What is left of standard input, and what was written to standard output and standard error. -/
structure Terminal where
  input : List UInt8
  output : List UInt8 := []
  errors : String := ""

/-- Surroundings that consist of files and a terminal. -/
def terminal (read : Reader) : Surroundings (StateM Terminal) where
  files _ := return read
  line t := ((Source.cutLine t.input).1, { t with input := (Source.cutLine t.input).2 })
  output bytes := modify fun t => { t with output := t.output ++ bytes }
  errors text := modify fun t => { t with errors := t.errors ++ text }

/-- The bytes that the sink of a machine has got. -/
def sent (m : Machine) : List UInt8 := m.console.sink.elim [] (·.received.toList)

/-- A terminal and a machine are parts of another machine, all of whose output the terminal has. -/
structure Divided (t : Terminal) (whole part : Machine) : Prop where
  parts : whole.Related (Console.Parts t.input t.output) part
  output : t.output = sent whole

/-- At first, all of the input is in the terminal. -/
lemma divided_start {m : Machine} (h : m.console.source = .empty) (input : List UInt8)
    (errors : String) :
    Divided ⟨input, [], errors⟩ ((m.attachSource (.ofBytes input)).attachSink .unlimited)
      (m.attachSink .unlimited) := by
  refine ⟨⟨rfl, ⟨rfl, rfl, ⟨[], h, .inl nofun, rfl⟩, ?_⟩, rfl, rfl⟩, rfl⟩
  exact ⟨_, _, rfl, rfl, rfl, rfl, rfl⟩

namespace Terminal

variable {t : Terminal} {whole part : Machine}

section Equations

variable (read : Reader) (t : Terminal)

lemma run_files (paths : List String) : ((terminal read).files paths).run t = (read, t) := rfl

lemma run_line : (terminal read).line.run t =
    ((Source.cutLine t.input).1, { t with input := (Source.cutLine t.input).2 }) := rfl

lemma run_log (s : Settings) (rs : List Record) : ((terminal read).log s rs).run t =
    ((), { t with errors := t.errors ++ Record.lines s.style rs }) := rfl

end Equations

/-- What comes next goes on with the terminal that is left. -/
lemma run_bind_of_run {α β : Type} {x : StateM Terminal α} {a : α} {t' : Terminal}
    (h : x.run t = (a, t')) (f : α → StateM Terminal β) : (x >>= f).run t = (f a).run t' := by
  rw [StateT.run_bind, h]
  rfl

/-- What was sent is written. -/
lemma run_forward (read : Reader) (t : Terminal)
    (h : whole.Related (Console.Parts t.input t.output) part) :
    ∃ part', ((terminal read).forward part).run t = (part', { t with output := sent whole }) ∧
      Divided { t with output := sent whole } whole part' := by
  obtain ⟨hcore, ⟨houtput, hpending, hsource, hsink⟩, hcycles, hhalted⟩ := h
  obtain ⟨all, waiting, hall, hwaiting, hpolicy, hpolicy', hreceived⟩ := hsink
  have hsent : sent whole = all.received.toList := by rw [sent, hall, Option.elim_some]
  have hsink {sink : Sink} (hempty : sink.received = #[]) :
      all.received.toList = sent whole ++ sink.received.toList := by
    rw [hsent, hempty, List.append_nil]
  simp only [Surroundings.forward, hwaiting]
  split
  · next hempty =>
    have hnil : waiting.received = #[] := Array.isEmpty_iff.mp hempty
    have hwritten : sent whole = t.output := by rw [hsent, hreceived, hnil, List.append_nil]
    refine ⟨part, ?_, ⟨hcore, ⟨houtput, hpending, hsource, ?_⟩, hcycles, hhalted⟩, rfl⟩
    · rw [hwritten]
      rfl
    · exact ⟨all, waiting, hall, hwaiting, hpolicy, hpolicy', hsink hnil⟩
  · refine ⟨part.attachSink .unlimited, ?_,
      ⟨hcore, ⟨houtput, hpending, hsource, ?_⟩, hcycles, hhalted⟩, rfl⟩
    · rw [hsent, hreceived]
      rfl
    · exact ⟨all, _, hall, rfl, hpolicy, rfl, hsink rfl⟩

/-- A step of the part, for which a line may be taken from the terminal, is a step of the whole. -/
theorem run_step (read : Reader) (h : whole.Related (Console.Parts t.input t.output) part) :
    ∃ report input, ((terminal read).step part).run t = (report, { t with input := input }) ∧
      input <:+ t.input ∧ whole.step.result = report.result ∧
      whole.step.events = report.events ∧
      whole.step.machine.Related (Console.Parts input t.output) report.machine := by
  by_cases hstarved : part.step.result = .error .endOfInput
  · obtain ⟨hkept, hend⟩ := Machine.step_of_endOfInput hstarved
    have hsuffix : (Source.cutLine t.input).2 <:+ t.input := ⟨_, Source.cutLine_append t.input⟩
    have hnext := Machine.parts_attachSource h hend
    cases hline : (Source.cutLine t.input).1 with
    | nil =>
      -- the whole is at the end of its input as well
      have hinput : t.input = [] := Source.cutLine_eq_nil_iff.mp hline
      refine ⟨part.step, t.input, ?_, List.suffix_rfl, Machine.step_parts h (.inr hinput)⟩
      simp only [Surroundings.step, hstarved, StateT.run_bind, run_line, hinput]
      rfl
    | cons b bs =>
      -- with a line at hand, the step cannot come to the end of the input again
      rw [hline] at hnext
      refine ⟨_, _, ?_, hsuffix, Machine.step_parts hnext (.inl ?_)⟩
      · simp only [Surroundings.step, hstarved, hkept, StateT.run_bind, run_line, hline]
        rfl
      · intro hstarved'
        cases (Machine.step_of_endOfInput hstarved').2
  · refine ⟨part.step, t.input, ?_, List.suffix_rfl, Machine.step_parts h (.inl hstarved)⟩
    simp only [Surroundings.step]
    rfl

/-- A cycle of the part is a step of the whole, whose events and output are written. -/
theorem run_cycle (read : Reader) (s : Settings) (budget : Nat) (h : Divided t whole part) :
    ∃ part' t', ((terminal read).cycle s budget part).run t = ((whole.step.result, part'), t') ∧
      t'.input <:+ t.input ∧ Divided t' whole.step.machine part' ∧
      t'.errors = t.errors ++ Record.lines s.style (s.records budget
        (Event.visible (some (s.threshold .machine)) whole.step.events)) := by
  obtain ⟨report, input, hstep, hinput, hresult, hevents, hparts⟩ := run_step read h.parts
  obtain ⟨part', hforward, hdivided⟩ := run_forward read
    ⟨input, t.output, t.errors ++ Record.lines s.style (s.records budget
      (Event.visible (some (s.threshold .machine)) report.events))⟩ hparts
  rw [hresult, hevents]
  refine ⟨part', _, ?_, hinput, hdivided, rfl⟩
  rw [Surroundings.cycle, run_bind_of_run hstep, run_bind_of_run (run_log ..),
    run_bind_of_run hforward]
  rfl

/-- To go on with a run of the part is to go on with a run of the whole. What is added to the log of
the whole is written. -/
theorem run_runFrom (read : Reader) (s : Settings) (budget start n : Nat) (log : Array Event)
    (h : Divided t whole part) :
    let r := whole.runFrom (some (s.threshold .machine)) start n log
    ∃ part' t' es,
      ((terminal read).runFrom s budget start n part).run t = ((r.result, part'), t') ∧
      t'.input <:+ t.input ∧ Divided t' r.machine part' ∧ r.events.toList = log.toList ++ es ∧
      t'.errors = t.errors ++ Record.lines s.style (s.records budget es) := by
  induction n generalizing t whole part log with
  | zero =>
    obtain ⟨hresult, hwhole, hpart, hevents⟩ :=
      Machine.finish_related h.parts (some (s.threshold .machine)) start log
    rw [Surroundings.runFrom, run_bind_of_run (run_log ..)]
    simp only [Machine.runFrom, hresult, hwhole, hpart]
    exact ⟨part, _, _, rfl, List.suffix_rfl, ⟨h.parts, h.output⟩, hevents, rfl⟩
  | succ n ih =>
    obtain ⟨part', t', hcycle, hinput, hdivided, herrors⟩ := run_cycle read s budget h
    have hcycles := hdivided.parts.cycles
    rw [Surroundings.runFrom, run_bind_of_run hcycle]
    simp only [Machine.runFrom]
    rcases hr : whole.step.result with fault | ⟨_ | _⟩
    · exact ⟨part', t', _, rfl, hinput, hdivided, Array.toList_appendList, herrors⟩
    · obtain ⟨part'', t'', es, hrun, hinput', hdivided', hevents, herrors'⟩ := ih (log ++
        Event.visible (some (s.threshold .machine)) whole.step.events) hdivided
      refine ⟨part'', t'', Event.visible (some (s.threshold .machine)) whole.step.events ++ es,
        hrun, hinput'.trans hinput, hdivided', ?_, ?_⟩
      · rw [hevents, Array.toList_appendList, List.append_assoc]
      · rw [herrors', herrors, String.append_assoc, ← lines_append, records_append]
    · simp only [hcycles]
      exact ⟨part', t', _, rfl, hinput, hdivided, Array.toList_appendList, herrors⟩

/-- A run of the part is a run of the whole, whose log and output are written. -/
theorem run_run (read : Reader) (s : Settings) (n : Nat) (h : Divided t whole part) :
    let r := whole.run (some (s.threshold .machine)) n
    ∃ part' t', ((terminal read).run s n part).run t = ((r.result, part'), t') ∧
      t'.input <:+ t.input ∧ Divided t' r.machine part' ∧
      t'.errors = t.errors ++ Record.lines s.style (s.records n r.events.toList) := by
  obtain ⟨part', t', es, hrun, hinput, hdivided, hevents, herrors⟩ :=
    run_runFrom read s n whole.cycles n #[] h
  rw [List.nil_append] at hevents
  rw [← hevents] at herrors
  refine ⟨part', t', ?_, hinput, hdivided, herrors⟩
  rw [Surroundings.run, ← h.parts.cycles]
  exact hrun

/-- A run in a terminal leaves behind what a run leaves behind that has all of the input from the
start. What is left of the input is an end of it. -/
theorem run_execute (s : Settings) (o : RunOptions) (read : Reader) (input : List UInt8) :
    let answer := execute s o read input
    ∃ rest, rest <:+ input ∧ ((terminal read).execute s o).run ⟨input, [], ""⟩ =
      (answer.status, ⟨rest, answer.output, answer.errors⟩) := by
  rcases hprepare : prepare s o read with ⟨log, chain | m⟩
  · refine ⟨input, List.suffix_rfl, ?_⟩
    rw [Surroundings.execute, run_bind_of_run (run_files ..)]
    simp only [execute, hprepare]
    rw [run_bind_of_run (run_log ..), String.empty_append]
    rfl
  · have hsource : m.console.source = .empty := source_of_prepare (congrArg Logged.result hprepare)
    obtain ⟨part, t, hrun, hrest, hdivided, herrors⟩ := run_run read s o.steps
      (divided_start hsource input ("" ++ Record.lines s.style log))
    refine ⟨t.input, hrest, ?_⟩
    rw [Surroundings.execute, run_bind_of_run (run_files ..)]
    simp only [execute, hprepare]
    rw [run_bind_of_run (run_log ..), run_bind_of_run hrun]
    generalize Machine.run _ _ _ = r at hdivided herrors ⊢
    simp only [← conclude_congr s hdivided.parts.core]
    rw [run_bind_of_run (run_log ..), herrors, hdivided.output, lines_append, lines_append,
      String.empty_append]
    rfl

lemma run_leave (read : Reader) (answer : Result) (input : List UInt8) :
    ((terminal read).leave answer).run ⟨input, [], ""⟩ =
      (answer.status, ⟨input, answer.output, answer.errors⟩) := by
  have hrun : ((terminal read).leave answer).run ⟨input, [], ""⟩ =
      (answer.status, ⟨input, [] ++ answer.output, "" ++ answer.errors⟩) := rfl
  rw [hrun, List.nil_append, String.empty_append]

/-- Whatever the arguments ask for, in a terminal the same comes of it as with all of the input at
hand. What is left of the input is an end of it. -/
theorem run_serve (arguments : List String) (read : Reader) (input : List UInt8) :
    let answer := respond arguments read input
    ∃ rest, rest <:+ input ∧ ((terminal read).serve arguments).run ⟨input, [], ""⟩ =
      (answer.status, ⟨rest, answer.output, answer.errors⟩) := by
  have hleave (answer : Result) : ∃ rest, rest <:+ input ∧
      ((terminal read).leave answer).run ⟨input, [], ""⟩ =
        (answer.status, ⟨rest, answer.output, answer.errors⟩) :=
    ⟨input, List.suffix_rfl, run_leave read answer input⟩
  simp only [Surroundings.serve, respond]
  cases Request.ofArguments arguments with
  | about | mistake => exact hleave _
  | execute s command =>
    cases command with
    | run o => exact run_execute s o read input
    | completion shell binName => exact hleave _

end Terminal

end CommandLine

end WordMachine
