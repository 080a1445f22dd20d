import WordMachine.Proofs.Failure
import WordMachine.Proofs.Sinks
import WordMachine.Proofs.Steps

/-!
# Input is a stream

As long as reads do not fail, a machine does not know where its input comes from. What counts is the
stream that is left: the queue, followed by the normalised text of the source. `View` keeps only what
the behaviour of a machine depends on, and it can be stepped on its own; each step of a machine is
the step of its view. Machines with one view therefore behave alike.
-/

namespace WordMachine

open Input (normalise utf8)

/-! ### Sources of text -/

/-- The source holds a text, and no read of it fails. -/
def Source.Holds (s : Source) (text : List Char) : Prop := s = .ofBytes (utf8 text)

namespace Source

variable {s rest : Source} {segment : Segment} {text : List Char}

lemma eq_of_map_byte {bytes bytes' : List UInt8} (h : bytes.map Item.byte = bytes'.map .byte) :
    bytes = bytes' := by
  rw [← filterMap_byte? bytes, h, filterMap_byte?]

/-- A line of a text that is read leaves a text, and both are normalised on their own. -/
lemma Holds.exists_of_next? (h : s.Holds text) (hs : s.next? = some (segment, rest)) :
    ∃ line text', segment.read = .ok line ∧ rest.Holds text' ∧
      normalise text = normalise line ++ normalise text' := by
  have hcut := cut_of_next? hs
  obtain ⟨items⟩ := rest
  rw [h, ofBytes] at hcut
  generalize hitems : (utf8 text).map Item.byte = items' at hcut
  cases hcut with
  | last =>
    refine ⟨text, [], ?_, rfl, ?_⟩
    · rw [← eq_of_map_byte hitems, Segment.read, if_neg Bool.false_ne_true, Input.fromUTF8?_utf8]
      exact congrArg Except.ok String.toList_ofList
    · rw [Input.normalise_nil, List.append_nil]
  | @ended bytes hbytes =>
    obtain ⟨front, back, hutf8, hfront, hback⟩ := List.map_eq_append_iff.mp hitems
    obtain ⟨b, back, rfl, hb, rfl⟩ := List.map_eq_cons_iff.mp hback
    cases hb
    rw [eq_of_map_byte hfront] at hutf8
    obtain ⟨line, text', rfl, rfl, rfl⟩ := Input.exists_of_utf8_eq_append hbytes hutf8
    have hline : '\n' ∉ line := mt Input.newline_mem_utf8.mpr hbytes
    refine ⟨line ++ ['\n'], text', Segment.read_line hline, rfl, ?_⟩
    rw [Input.normalise_append_newline hline, Input.normalise_append_newline hline,
      Input.normalise_nil, List.append_assoc]
    rfl
  | failed hbytes message =>
    -- no item of a text is a failure
    have hmem : Item.failure message ∈ (utf8 text).map Item.byte := by
      rw [hitems]
      exact List.mem_append_right _ List.mem_cons_self
    obtain ⟨b, -, hb⟩ := List.mem_map.mp hmem
    cases hb

lemma Holds.eq_nil (h : s.Holds text) (hs : s.items = []) : text = [] := by
  rw [h] at hs
  exact Input.utf8_eq_nil_iff.mp (List.map_eq_nil_iff.mp hs)

end Source

/-! ### The stream that is left -/

namespace Console

/-- The source holds a text, and the stream is the queue followed by the normalised text. -/
def Remains (con : Console) (stream : List Char) : Prop :=
  ∃ text, con.source.Holds text ∧ con.pending ++ normalise text = stream

variable {con con' : Console} {stream : List Char}

lemma Remains.of_peek_ok (h : con.Remains stream) {c : Char} (hrule : PeekRule con (.ok c) con') :
    con'.Remains stream ∧ ∃ cs, stream = c :: cs ∧ con'.advance.Remains cs := by
  obtain ⟨text, htext, rfl⟩ := h
  cases hrule with
  | @waiting _ cs hp =>
    refine ⟨⟨text, htext, rfl⟩, cs ++ normalise text, ?_, text, htext, ?_⟩
    · rw [hp]
      rfl
    · rw [advance, hp]
      rfl
  | @refilled _ rest _ _ cs hp hs ht hn =>
    obtain ⟨line, text', hline, hrest, hnorm⟩ := htext.exists_of_next? hs
    cases ht.symm.trans hline
    rw [hp, hnorm, hn]
    exact ⟨⟨text', hrest, rfl⟩, cs ++ normalise text', rfl, text', hrest, rfl⟩

lemma Remains.of_peek_error (h : con.Remains stream) {fault : Fault}
    (hrule : PeekRule con (.error fault) con') :
    fault = .endOfInput ∧ stream = [] ∧ con'.Remains stream := by
  obtain ⟨text, htext, rfl⟩ := h
  cases hrule with
  | exhausted hp hs =>
    refine ⟨rfl, ?_, text, htext, rfl⟩
    rw [hp, htext.eq_nil hs]
    rfl
  | failed hp hs ht =>
    -- a source that holds a text has no read that fails
    obtain ⟨line, text', hline, -⟩ := htext.exists_of_next? hs
    cases ht.symm.trans hline

lemma Remains.of_put (h : con.Remains stream) {c : Char} {x : Except String Unit}
    (hc : con.put c = (x, con')) : con'.Remains stream := by
  obtain ⟨text, htext, rfl⟩ := h
  refine ⟨text, ?_, ?_⟩
  · rw [source_of_put hc]
    exact htext
  · rw [pending_of_put hc]

end Console

/-! ### Views -/

/-- What the behaviour of a machine depends on. -/
structure View where
  core : Core
  stream : List Char
  halted : Bool

/-- What a step comes to, as far as a view tells. -/
structure View.Report where
  result : Except Fault Step
  view : View
  /-- Number of cycles that are counted. -/
  cycles : Nat
  /-- What is added to the output. -/
  written : String

/-- One cycle of a view. -/
def View.step (v : View) : View.Report :=
  if v.halted then ⟨.ok .halted, v, 0, ""⟩
  else
    match v.core.plan with
    | .error e                => ⟨.error (.exception e), v, 0, ""⟩
    | .ok (_, .halt)          => ⟨.ok .halted, ⟨v.core, v.stream, true⟩, 1, ""⟩
    | .ok (next, .update u)   => ⟨.ok .continued, ⟨v.core.apply next u, v.stream, false⟩, 1, ""⟩
    | .ok (next, .print c)    =>
      ⟨.ok .continued, ⟨v.core.goto next, v.stream, false⟩, 1, String.singleton c⟩
    | .ok (next, .read l)     =>
      match v.stream with
      | []      => ⟨.error .endOfInput, v, 0, ""⟩
      | c :: cs =>
        match Word.ofChar? c with
        | none   => ⟨.error (.exception (.invalidCharacter c.toNat)), v, 0, ""⟩
        | some w => ⟨.ok .continued, ⟨v.core.apply next (.store l w), cs, false⟩, 1, ""⟩

namespace Machine

/-- The view is that of the machine, whose source holds a text and whose sink does not fail. -/
structure Shows (m : Machine) (v : View) : Prop where
  core : v.core = m.core
  halted : v.halted = m.halted
  stream : m.console.Remains v.stream
  sink : m.console.Reliable

/-- What a step of a machine and a step of its view have in common. -/
structure Follows (m : Machine) (result : Except Fault Step) (m' : Machine)
    (report : View.Report) : Prop where
  result : result = report.result
  shows : m'.Shows report.view
  cycles : m'.cycles = m.cycles + report.cycles
  output : m'.console.output = m.console.output ++ report.written

end Machine

lemma Console.output_peek_append (con : Console) :
    con.peek.console.output = con.output ++ "" := by
  rw [String.append_empty, output_peek]

/-- A step of a machine is a step of its view. -/
theorem StepRule.follows {m m' : Machine} {r : Except Fault Step} (h : StepRule m r m') {v : View}
    (hv : m.Shows v) : m.Follows r m' v.step := by
  obtain ⟨core, stream, halted⟩ := v
  obtain ⟨rfl, rfl, hstream, hsink⟩ := hv
  cases h with
  | stopped h =>
    rw [View.step, if_pos h]
    exact ⟨rfl, ⟨rfl, rfl, hstream, hsink⟩, rfl, String.append_empty.symm⟩
  | refused h hp =>
    simp only [View.step, h, hp, Bool.false_eq_true, if_false]
    exact ⟨rfl, ⟨rfl, h.symm, hstream, hsink⟩, rfl, String.append_empty.symm⟩
  | halt h hp =>
    simp only [View.step, h, hp, Bool.false_eq_true, if_false]
    exact ⟨rfl, ⟨rfl, rfl, hstream, hsink⟩, rfl, String.append_empty.symm⟩
  | update h hp =>
    simp only [View.step, h, hp, Bool.false_eq_true, if_false]
    exact ⟨rfl, ⟨rfl, h.symm, hstream, hsink⟩, rfl, String.append_empty.symm⟩
  | @printed _ c _ h hp hc =>
    obtain ⟨con, hput, hreliable⟩ := hsink.put c
    cases hc.symm.trans hput
    simp only [View.step, h, hp, Bool.false_eq_true, if_false]
    refine ⟨rfl, ⟨rfl, rfl, hstream.of_put hc, hreliable⟩, rfl, ?_⟩
    rw [Console.output_of_put_ok hc, String.push_eq_append]
  | @unprinted _ c _ _ h hp hc =>
    obtain ⟨con, hput, -⟩ := hsink.put c
    cases hc.symm.trans hput
  | read h hp hc hw =>
    obtain ⟨-, cs, rfl, hcs⟩ := hstream.of_peek_ok (Console.peekRule_of_result hc)
    simp only [View.step, h, hp, hw, Bool.false_eq_true, if_false]
    exact ⟨rfl, ⟨rfl, rfl, hcs, hsink.peek⟩, rfl, m.console.output_peek_append⟩
  | unread h hp hc =>
    obtain ⟨rfl, rfl, hnil⟩ := hstream.of_peek_error (Console.peekRule_of_result hc)
    simp only [View.step, h, hp, Bool.false_eq_true, if_false]
    exact ⟨rfl, ⟨rfl, rfl, hnil, hsink.peek⟩, rfl, m.console.output_peek_append⟩
  | rejected h hp hc hw =>
    obtain ⟨hkept, cs, rfl, -⟩ := hstream.of_peek_ok (Console.peekRule_of_result hc)
    simp only [View.step, h, hp, hw, Bool.false_eq_true, if_false]
    exact ⟨rfl, ⟨rfl, rfl, hkept, hsink.peek⟩, rfl, m.console.output_peek_append⟩

/-! ### Machines that behave alike -/

namespace Machine

/-- The machines agree on core and halt, and the same stream is left for both. No read of their
sources and no call of their sinks fails. -/
structure Alike (m m' : Machine) : Prop where
  core : m.core = m'.core
  halted : m.halted = m'.halted
  stream : ∃ stream, m.console.Remains stream ∧ m'.console.Remains stream
  sink : m.console.Reliable
  sink' : m'.console.Reliable

/-- The counts of cycles and the outputs of both machines have grown by the same. -/
structure GrownAlike (m m' n n' : Machine) : Prop where
  cycles : ∃ k, n.cycles = m.cycles + k ∧ n'.cycles = m'.cycles + k
  output : ∃ text, n.console.output = m.console.output ++ text ∧
    n'.console.output = m'.console.output ++ text

variable {m m' : Machine}

lemma Alike.exists_view (h : m.Alike m') : ∃ v, m.Shows v ∧ m'.Shows v := by
  obtain ⟨stream, hm, hm'⟩ := h.stream
  refine ⟨⟨m.core, stream, m.halted⟩, ⟨rfl, rfl, hm, h.sink⟩, ⟨h.core, h.halted, hm', h.sink'⟩⟩

lemma Shows.alike {v : View} (h : m.Shows v) (h' : m'.Shows v) : m.Alike m' :=
  ⟨h.core.symm.trans h'.core, h.halted.symm.trans h'.halted, ⟨v.stream, h.stream, h'.stream⟩,
    h.sink, h'.sink⟩

lemma Alike.step (h : m.Alike m') :
    m.step.result = m'.step.result ∧ m.step.machine.Alike m'.step.machine ∧
      GrownAlike m m' m.step.machine m'.step.machine := by
  obtain ⟨v, hv, hv'⟩ := h.exists_view
  have hm := m.stepRule.follows hv
  have hm' := m'.stepRule.follows hv'
  refine ⟨hm.result.trans hm'.result.symm, hm.shows.alike hm'.shows, ?_⟩
  exact ⟨⟨v.step.cycles, hm.cycles, hm'.cycles⟩, ⟨v.step.written, hm.output, hm'.output⟩⟩

lemma GrownAlike.refl (m m' : Machine) : GrownAlike m m' m m' :=
  ⟨⟨0, rfl, rfl⟩, ⟨"", String.append_empty.symm, String.append_empty.symm⟩⟩

lemma GrownAlike.trans {n n' p p' : Machine} (h : GrownAlike m m' n n')
    (h' : GrownAlike n n' p p') : GrownAlike m m' p p' := by
  obtain ⟨⟨k, hk, hk'⟩, ⟨text, ht, ht'⟩⟩ := h
  obtain ⟨⟨j, hj, hj'⟩, ⟨text', hs, hs'⟩⟩ := h'
  refine ⟨⟨k + j, ?_, ?_⟩, ⟨text ++ text', ?_, ?_⟩⟩
  · rw [hj, hk, Nat.add_assoc]
  · rw [hj', hk', Nat.add_assoc]
  · rw [hs, ht, String.append_assoc]
  · rw [hs', ht', String.append_assoc]

/-- Machines that differ only in where their input comes from, in their counts of cycles and in their
outputs behave alike for any number of steps. -/
theorem alike_after (h : m.Alike m') (n : Nat) :
    m.results n = m'.results n ∧ (m.after n).Alike (m'.after n) ∧
      GrownAlike m m' (m.after n) (m'.after n) := by
  induction n generalizing m m' with
  | zero => exact ⟨rfl, h, .refl m m'⟩
  | succ n ih =>
    obtain ⟨hresult, hstep, hgrown⟩ := h.step
    obtain ⟨hresults, hafter, hgrown'⟩ := ih hstep
    refine ⟨?_, hafter, hgrown.trans hgrown'⟩
    rw [results_succ, results_succ, hresult, hresults]

theorem alike_after_reader :
    let m := reader.queueInput ['h', 'i', '\n']
    let m' := (reader.attachSource (.ofBytes (utf8 ['h', 'i', '\r', '\n']))).attachSink .unlimited
    m.Alike m' ∧ m.results 2 = m'.results 2 := by
  intro m m'
  have hstream : m.console.Remains ['h', 'i', '\n'] := ⟨[], rfl, rfl⟩
  have hstream' : m'.console.Remains ['h', 'i', '\n'] := ⟨['h', 'i', '\r', '\n'], rfl, rfl⟩
  have hsink' : m'.console.Reliable := by
    rintro _ ⟨⟩
    exact Sink.reliable_unlimited
  have h : m.Alike m' := ⟨rfl, rfl, ⟨_, hstream, hstream'⟩, by nofun, hsink'⟩
  exact ⟨h, (alike_after h 2).1⟩

end Machine

end WordMachine
