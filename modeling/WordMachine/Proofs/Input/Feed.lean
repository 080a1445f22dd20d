import WordMachine.Proofs.Running

/-!
# Where input comes from

All that a console still has for the machine is one list, its feed: the characters that wait in the
queue, and then, segment by segment, the characters of the source or the message of a read that
fails. A machine cannot tell consoles apart that have one feed. So a text in the queue is as good as
the same text in front of the source, as long as it consists of whole lines and each newline has a
carriage return before it, which is left out when the line is read.
-/

namespace WordMachine

open Input (normalise utf8)

/-! ### Whole lines -/

namespace Input

/-- A text with a carriage return before each newline. -/
def withReturns (text : List Char) : List Char :=
  text.flatMap fun c => if c = '\n' then ['\r', '\n'] else [c]

/-- The text consists of whole lines: if it is not empty, it ends with a newline. -/
inductive Whole : List Char → Prop
  | nil : Whole []
  | line {line text : List Char} (h : '\n' ∉ line) (ht : Whole text) :
      Whole (line ++ '\n' :: text)

variable {s t line text : List Char}

lemma Whole.append (hs : Whole s) (ht : Whole t) : Whole (s ++ t) := by
  induction hs with
  | nil => exact ht
  | line h _ ih =>
    rw [List.append_assoc]
    exact .line h ih

lemma Whole.flatMap {α : Type} {f : α → List Char} (h : ∀ a, Whole (f a)) (as : List α) :
    Whole (as.flatMap f) := by
  induction as with
  | nil => exact .nil
  | cons a as ih => exact (h a).append ih

/-- A newline makes the last line whole. -/
lemma whole_concat (text : List Char) : Whole (text ++ ['\n']) := by
  have hempty : '\n' ∉ ([] : List Char) := List.not_mem_nil
  induction text with
  | nil => exact .line hempty .nil
  | cons c text ih =>
    by_cases hc : c = '\n'
    · rw [hc]
      show Whole ([] ++ '\n' :: (text ++ ['\n']))
      exact .line hempty ih
    · -- the character goes into the first line of what follows
      generalize hwhole : text ++ ['\n'] = whole at ih
      rw [List.cons_append, hwhole]
      cases ih with
      | nil => simp at hwhole
      | @line line text h ht =>
        have hline : '\n' ∉ c :: line := List.not_mem_cons_of_ne_of_not_mem (Ne.symm hc) h
        exact .line hline ht

lemma withReturns_append (s t : List Char) :
    withReturns (s ++ t) = withReturns s ++ withReturns t :=
  List.flatMap_append

lemma withReturns_of_not_mem (h : '\n' ∉ line) : withReturns line = line := by
  induction line with
  | nil => rfl
  | cons c line ih =>
    have hc := List.ne_of_not_mem_cons h
    rw [withReturns, List.flatMap_cons, if_neg (Ne.symm hc), ← withReturns,
      ih (List.not_mem_of_not_mem_cons h)]
    rfl

lemma withReturns_append_newline (h : '\n' ∉ line) (text : List Char) :
    withReturns (line ++ '\n' :: text) = (line ++ ['\r']) ++ '\n' :: withReturns text := by
  rw [withReturns_append, withReturns_of_not_mem h, List.append_assoc]
  rfl

lemma not_mem_append_return (h : '\n' ∉ line) : '\n' ∉ line ++ ['\r'] := by
  simp [h]

lemma Whole.withReturns (h : Whole text) : Whole (withReturns text) := by
  induction h with
  | nil => exact .nil
  | line h _ ih =>
    rw [withReturns_append_newline h]
    exact .line (not_mem_append_return h) ih

lemma dropReturn_append_return (line : List Char) : Source.dropReturn (line ++ ['\r']) = line := by
  simp [Source.dropReturn]

/-- Reading takes back what was put before the newlines, and nothing else. -/
lemma normalise_withReturns (h : Whole text) : normalise (withReturns text) = text := by
  induction h with
  | nil => rfl
  | line h _ ih =>
    rw [withReturns_append_newline h, normalise_append_newline (not_mem_append_return h),
      dropReturn_append_return, ih]

end Input

open Input (Whole)

/-! ### Feeds -/

/-- What a segment delivers: its characters, or the message of its failure. -/
def Source.Segment.feed (segment : Source.Segment) : List (Except String Char) :=
  match segment.read with
  | .ok text       => (normalise text).map .ok
  | .error message => [.error message]

/-- What a source delivers. -/
def Source.feed (s : Source) : List (Except String Char) := s.segments.flatMap Segment.feed

namespace Console

/-- All that a console still has for the machine. -/
def feed (con : Console) : List (Except String Char) := con.pending.map .ok ++ con.source.feed

/-- What comes of looking at the first element of a feed. -/
def look : List (Except String Char) → Except Fault Char
  | []                  => .error .endOfInput
  | .ok c :: _          => .ok c
  | .error message :: _ => .error (.io message)

/-- What is left of a feed after a look. Only a failure is used up. -/
def looked : List (Except String Char) → List (Except String Char)
  | .error _ :: feed => feed
  | feed             => feed

end Console

namespace Source

variable {s rest : Source} {segment : Segment} {text : List Char} {message : String}

lemma Segment.feed_of_ok (h : segment.read = .ok text) :
    segment.feed = (normalise text).map .ok := by
  rw [feed, h]

lemma Segment.feed_of_error (h : segment.read = .error message) :
    segment.feed = [.error message] := by
  rw [feed, h]

lemma feed_of_next? (h : s.next? = some (segment, rest)) : s.feed = segment.feed ++ rest.feed := by
  rw [feed, segments_of_next? h, List.flatMap_cons, ← feed]

lemma feed_of_items_eq_nil (h : s.items = []) : s.feed = [] := by
  rw [feed, segments, h]
  rfl

/-- Whole lines in front of a source are delivered as they are read, and then all the rest is delivered
as it would be alone. -/
theorem feed_append (h : Whole text) (bytes : List UInt8) :
    (ofBytes (utf8 text ++ bytes)).feed = (normalise text).map .ok ++ (ofBytes bytes).feed := by
  induction h with
  | nil => rfl
  | @line line text h ht ih =>
    have hbytes : newline ∉ utf8 line := mt Input.newline_mem_utf8.mp h
    have hitems : (ofBytes (utf8 (line ++ '\n' :: text) ++ bytes)).items =
        (utf8 line).map .byte ++ .byte newline :: (ofBytes (utf8 text ++ bytes)).items := by
      simp only [ofBytes, Input.utf8_append, List.map_append, List.append_assoc]
      rfl
    have hsegments : (ofBytes (utf8 (line ++ '\n' :: text) ++ bytes)).segments =
        .line (utf8 line) true :: (ofBytes (utf8 text ++ bytes)).segments := by
      rw [segments, hitems]
      exact cutItems_of_cut (.ended hbytes _)
    rw [feed, hsegments, List.flatMap_cons, ← feed, ih, Segment.feed_of_ok (Segment.read_line h),
      Input.normalise_append_newline h, Input.normalise_append_newline h]
    simp

end Source

namespace PeekRule

variable {con con' : Console} {r : Except Fault Char} {c : Char}

/-- A look depends on the feed alone. -/
theorem look_feed (h : PeekRule con r con') :
    r = Console.look con.feed ∧ con'.feed = Console.looked con.feed := by
  cases h with
  | waiting h =>
    rw [Console.feed, h]
    exact ⟨rfl, rfl⟩
  | exhausted h hs =>
    rw [Console.feed, h, Source.feed_of_items_eq_nil hs]
    exact ⟨rfl, rfl⟩
  | refilled h hs ht hn =>
    rw [Console.feed, Console.feed, h, Source.feed_of_next? hs, Source.Segment.feed_of_ok ht, hn]
    exact ⟨rfl, rfl⟩
  | failed h hs ht =>
    rw [Console.feed, Console.feed, h, Source.feed_of_next? hs, Source.Segment.feed_of_error ht]
    exact ⟨rfl, rfl⟩

lemma feed_advance (h : PeekRule con (.ok c) con') :
    con'.advance.feed = (Console.looked con.feed).tail := by
  rw [← h.look_feed.2]
  cases h with
  | waiting h =>
    rw [Console.advance, Console.feed, Console.feed, h]
    rfl
  | refilled => rfl

end PeekRule

/-! ### Interchangeable machines -/

/-- The consoles have the same output and sink, and one feed. -/
structure Console.Interchangeable (con con' : Console) : Prop where
  output : con.output = con'.output
  sink : con.sink = con'.sink
  feed : con.feed = con'.feed

/-- The machines are the same but for where their input comes from. -/
structure Machine.Interchangeable (m m' : Machine) : Prop where
  core : m.core = m'.core
  console : m.console.Interchangeable m'.console
  cycles : m.cycles = m'.cycles
  halted : m.halted = m'.halted

namespace Console.Interchangeable

variable {con con' : Console}

lemma put (h : con.Interchangeable con') (c : Char) :
    (con.put c).1 = (con'.put c).1 ∧ (con.put c).2.Interchangeable (con'.put c).2 := by
  have hfeed : (con.put c).2.feed = (con'.put c).2.feed := by
    rw [Console.feed, Console.feed, pending_put, source_put, pending_put, source_put]
    exact h.feed
  obtain ⟨output, pending, source, sink⟩ := con
  obtain ⟨output', pending', source', sink'⟩ := con'
  obtain ⟨rfl, rfl, -⟩ := h
  cases sink with
  | none => exact ⟨rfl, rfl, rfl, hfeed⟩
  | some sink =>
    revert hfeed
    simp only [Console.put]
    rcases sink.send (String.utf8EncodeChar c) with ⟨_ | _, _⟩ <;>
      exact fun hfeed => ⟨rfl, rfl, rfl, hfeed⟩

lemma peek (h : con.Interchangeable con') :
    con.peek.result = con'.peek.result ∧ con.peek.console.Interchangeable con'.peek.console := by
  obtain ⟨hr, hfeed⟩ := con.peekRule.look_feed
  obtain ⟨hr', hfeed'⟩ := con'.peekRule.look_feed
  refine ⟨?_, ?_, ?_, ?_⟩
  · rw [hr, hr', h.feed]
  · rw [output_peek, output_peek, h.output]
  · rw [sink_peek, sink_peek, h.sink]
  · rw [hfeed, hfeed', h.feed]

lemma advance (h : con.Interchangeable con') {c : Char} (hc : con.peek.result = .ok c) :
    con.peek.console.advance.Interchangeable con'.peek.console.advance := by
  have hc' : con'.peek.result = .ok c := by
    rw [← h.peek.1, hc]
  refine ⟨h.peek.2.output, h.peek.2.sink, ?_⟩
  rw [(peekRule_of_result hc).feed_advance, (peekRule_of_result hc').feed_advance, h.feed]

end Console.Interchangeable

namespace Machine.Interchangeable

variable {m m' : Machine}

/-- A machine whose queue is empty may be fed from either side. -/
lemma of_feed {text text' : List Char} {source source' : Source} (h : m.console.pending = [])
    (hfeed : text.map .ok ++ source.feed = text'.map .ok ++ source'.feed) :
    ((m.queueInput text).attachSource source).Interchangeable
      ((m.queueInput text').attachSource source') := by
  refine ⟨rfl, ⟨rfl, rfl, ?_⟩, rfl, rfl⟩
  show (m.console.pending ++ text).map .ok ++ source.feed =
    (m.console.pending ++ text').map .ok ++ source'.feed
  rw [h]
  exact hfeed

/-- Interchangeable machines make the same step. -/
theorem step (h : m.Interchangeable m') :
    m.step.result = m'.step.result ∧ m.step.machine.Interchangeable m'.step.machine := by
  have hrelated : m.Related Console.Interchangeable m' := ⟨h.core, h.console, h.cycles, h.halted⟩
  obtain ⟨hresult, hcore, hconsole, hcycles, hhalted⟩ := hrelated.step
    (fun _ => h.console.put) (fun _ => h.console.peek) (fun _ _ hc => h.console.advance hc)
  exact ⟨hresult, hcore, hconsole, hcycles, hhalted⟩

lemma after (h : m.Interchangeable m') (k : Nat) : (m.after k).Interchangeable (m'.after k) := by
  induction k with
  | zero => exact h
  | succ k ih =>
    rw [after_succ', after_succ']
    exact ih.step.2

/-- Interchangeable machines make the same run. -/
theorem run (h : m.Interchangeable m') (t t' : Option Level) (n : Nat) :
    (m.run t n).result = (m'.run t' n).result ∧
      (m.run t n).machine.Interchangeable (m'.run t' n).machine := by
  have hafter := h.after
  obtain ⟨hr, k, hk, hk'⟩ :=
    run_of_after (fun k => (hafter k).step.1) (fun k => (hafter k).halted) t t' n
  rw [hk, hk']
  exact ⟨hr, h.after k⟩

end Machine.Interchangeable

end WordMachine
