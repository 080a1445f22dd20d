import Mathlib.Data.List.Basic
import WordMachine.Proofs.Failure
import WordMachine.Proofs.Steps

/-!
# What the sink gets

A character is sent to the sink by any number of writes and one flush. A write may take a part of
what it is offered, or nothing, or fail, and so may the flush. `SendRule` lists how this can end.
Over any number of steps the sink has accepted what the attempts to write a character have sent, in
order, and the output has grown by the characters of those attempts that succeeded.
-/

namespace WordMachine

/-! ### Writing bytes -/

namespace Sink

/-- Some bytes are written call by call. Each call is offered all that is left, and takes at least
one byte. The calls lead to the second sink, with the bytes that are left then. -/
inductive Writes : Sink → List UInt8 → Sink → List UInt8 → Prop
  | refl (s : Sink) (bytes : List UInt8) : Writes s bytes s bytes
  | took {s s' : Sink} {b : UInt8} {bs rest : List UInt8} {k : Nat}
      (hk : s.policy.write s.writes s.accepted (bs.length + 1) = .ok (k + 1))
      (h : Writes (s.took (b :: bs.take k)) (bs.drop k) s' rest) : Writes s (b :: bs) s' rest

/-- A write that is offered a number of bytes fails, or takes none of them. -/
def Refuses (s : Sink) (offered : Nat) (message : String) : Prop :=
  s.policy.write s.writes s.accepted offered = .error message ∨
    s.policy.write s.writes s.accepted offered = .ok 0 ∧ message = wroteNothing

/-- A flush was called. -/
def flushed (s : Sink) : Sink := { s with flushes := s.flushes + 1 }

/-- How sending bytes can end: the answer, the bytes that were accepted, and the sink after it. -/
inductive SendRule (s : Sink) (bytes : List UInt8) : Except String Unit → List UInt8 → Sink → Prop
  | complete {s' : Sink} (hw : s.Writes bytes s' []) (hf : s'.policy.flush s'.flushes = .ok ()) :
      SendRule s bytes (.ok ()) bytes s'.flushed
  | unwritten {s' : Sink} {taken rest : List UInt8} {message : String}
      (hw : s.Writes bytes s' rest) (htaken : taken ++ rest = bytes) (hrest : rest ≠ [])
      (hr : s'.Refuses rest.length message) : SendRule s bytes (.error message) taken (s'.took [])
  | unflushed {s' : Sink} {message : String} (hw : s.Writes bytes s' [])
      (hf : s'.policy.flush s'.flushes = .error message) :
      SendRule s bytes (.error message) bytes s'.flushed

variable {s s' : Sink} {bytes rest taken : List UInt8} {r : Except String Unit}

lemma Writes.exists_taken (h : s.Writes bytes s' rest) :
    ∃ taken, taken ++ rest = bytes ∧ s'.received.toList = s.received.toList ++ taken ∧
      s'.flushes = s.flushes := by
  induction h with
  | refl s bytes => exact ⟨[], rfl, (List.append_nil _).symm, rfl⟩
  | @took s s' b bs rest k hk h ih =>
    obtain ⟨taken, htaken, hreceived, hflushes⟩ := ih
    refine ⟨b :: bs.take k ++ taken, ?_, ?_, ?_⟩
    · rw [List.append_assoc, htaken, List.cons_append, List.take_append_drop]
    · rw [hreceived, received_took, List.append_assoc]
    · rw [hflushes, flushes_took]

/-- Writing goes on until all is taken or a write is refused. -/
lemma writeAll_cases (s : Sink) (bytes : List UInt8) :
    (∃ s', s.writeAll bytes = (.ok (), s') ∧ s.Writes bytes s' []) ∨
      ∃ s' rest message, s.writeAll bytes = (.error message, s'.took []) ∧
        s.Writes bytes s' rest ∧ rest ≠ [] ∧ s'.Refuses rest.length message := by
  fun_induction s.writeAll bytes with
  | case1 s => exact .inl ⟨s, rfl, .refl s []⟩
  | case2 s b bs message hw =>
    exact .inr ⟨s, b :: bs, message, rfl, .refl s _, List.cons_ne_nil b bs, .inl hw⟩
  | case3 s b bs hw =>
    exact .inr ⟨s, b :: bs, wroteNothing, rfl, .refl s _, List.cons_ne_nil b bs, .inr ⟨hw, rfl⟩⟩
  | case4 s b bs k hw ih =>
    obtain ⟨s', heq, hs'⟩ | ⟨s', rest, message, heq, hs', hrest, hr⟩ := ih
    · exact .inl ⟨s', heq, .took hw hs'⟩
    · exact .inr ⟨s', rest, message, heq, .took hw hs', hrest, hr⟩

/-- The rules cover every sending. -/
theorem exists_sendRule (s : Sink) (bytes : List UInt8) :
    ∃ taken, SendRule s bytes (s.send bytes).1 taken (s.send bytes).2 := by
  obtain ⟨s', heq, hs'⟩ | ⟨s', rest, message, heq, hs', hrest, hr⟩ := s.writeAll_cases bytes
  · refine ⟨bytes, ?_⟩
    simp only [send, heq, flushOnce]
    cases hf : s'.policy.flush s'.flushes with
    | ok => exact .complete hs' hf
    | error message => exact .unflushed hs' hf
  · obtain ⟨taken, htaken, -⟩ := hs'.exists_taken
    simp only [send, heq]
    exact ⟨taken, .unwritten hs' htaken hrest hr⟩

/-- What was accepted is added to what the sink has received. -/
lemma SendRule.received (h : SendRule s bytes r taken s') :
    s'.received.toList = s.received.toList ++ taken := by
  cases h with
  | complete hw | unflushed hw =>
    obtain ⟨taken, htaken, hreceived, -⟩ := hw.exists_taken
    rw [List.append_nil] at htaken
    rw [← htaken]
    exact hreceived
  | unwritten hw htaken =>
    obtain ⟨taken', htaken', hreceived, -⟩ := hw.exists_taken
    -- both are what stands before the bytes that are left
    rw [received_took, List.append_nil, hreceived]
    rw [List.append_cancel_right (htaken.trans htaken'.symm)]

lemma SendRule.taken_eq (h : SendRule s bytes (.ok ()) taken s') : taken = bytes := by
  cases h with
  | complete => rfl

/-- There is one flush if all was accepted, and none otherwise. -/
lemma SendRule.flushes (h : SendRule s bytes r taken s') :
    s'.flushes = s.flushes + if taken = bytes then 1 else 0 := by
  cases h with
  | complete hw | unflushed hw =>
    obtain ⟨-, -, -, hflushes⟩ := hw.exists_taken
    rw [if_pos rfl, ← hflushes]
    rfl
  | unwritten hw htaken hrest =>
    obtain ⟨-, -, -, hflushes⟩ := hw.exists_taken
    rw [if_neg, flushes_took, hflushes, Nat.add_zero]
    intro heq
    rw [heq] at htaken
    exact hrest (List.append_right_eq_self.mp htaken)

end Sink

/-- Writing a character is sending it, if there is a sink. -/
lemma Console.send_of_put {con con' : Console} {c : Char} {answer : Except String Unit} {s : Sink}
    (hs : con.sink = some s) (h : con.put c = (answer, con')) :
    ∃ s', con'.sink = some s' ∧ s.send (String.utf8EncodeChar c) = (answer, s') := by
  simp only [put, hs] at h
  split at h
  · next s' hsend =>
    cases h
    exact ⟨s', rfl, hsend⟩
  · next message s' hsend =>
    cases h
    exact ⟨s', rfl, hsend⟩

/-! ### Attempts -/

/-- An attempt to write a character: the result of the step, and the sink before and after it. -/
structure Attempt where
  char : Char
  result : Except Fault Step
  before : Sink
  after : Sink

namespace Attempt

/-- What is to be sent. -/
def bytes (a : Attempt) : List UInt8 := String.utf8EncodeChar a.char

/-- What the sink has received since the attempt began. -/
def accepted (a : Attempt) : List UInt8 := a.after.received.toList.drop a.before.accepted

/-- The attempt sends its character, and the step succeeds exactly if the sending does. -/
def Sends (a : Attempt) : Prop :=
  ∃ answer, Sink.SendRule a.before a.bytes answer a.accepted a.after ∧
    a.result = (answer.mapError Fault.io).map fun _ => .continued

variable {a : Attempt}

lemma accepted_of_isOk (h : a.Sends) (hok : a.result.isOk) : a.accepted = a.bytes := by
  obtain ⟨answer, hrule, hresult⟩ := h
  cases answer with
  | ok => exact hrule.taken_eq
  | error message =>
    rw [hresult] at hok
    cases hok

end Attempt

namespace Machine

/-- The attempt that a step makes, if the machine is about to carry out an `out` of a character. -/
def attempts (m : Machine) (result : Except Fault Step) (m' : Machine) : List Attempt :=
  match m.halted, m.core.fetch, m.console.sink, m'.console.sink with
  | false, .ok (.out v), some before, some after =>
    (m.core.value v).char?.toList.map fun c => ⟨c, result, before, after⟩
  | _, _, _, _ => []

/-- Between two states of a machine, the sink has received what some attempts have sent, and the
output has grown by the characters of those that succeeded. -/
structure Delivered (m m' : Machine) (s s' : Sink) (as : List Attempt) : Prop where
  sink : m'.console.sink = some s'
  received : s'.received.toList = s.received.toList ++ as.flatMap Attempt.accepted
  flushes : s'.flushes = s.flushes + as.countP fun a => a.accepted = a.bytes
  output : m'.console.output.toList =
    m.console.output.toList ++ (as.filter (·.result.isOk)).map Attempt.char
  sends : ∀ a ∈ as, a.Sends

variable {m m' m'' : Machine} {r : Except Fault Step} {s s' s'' : Sink} {as as' : List Attempt}

lemma Delivered.refl (h : m'.console.sink = some s)
    (houtput : m'.console.output = m.console.output) : m.Delivered m' s s [] := by
  refine ⟨h, ?_, rfl, ?_, by nofun⟩
  · exact (List.append_nil _).symm
  · rw [houtput]
    exact (List.append_nil _).symm

lemma Delivered.trans (h : m.Delivered m' s s' as) (h' : m'.Delivered m'' s' s'' as') :
    m.Delivered m'' s s'' (as ++ as') := by
  refine ⟨h'.sink, ?_, ?_, ?_, ?_⟩
  · rw [h'.received, h.received, List.flatMap_append, List.append_assoc]
  · rw [h'.flushes, h.flushes, List.countP_append, Nat.add_assoc]
  · rw [h'.output, h.output, List.filter_append, List.map_append, List.append_assoc]
  · intro a ha
    exact (List.mem_append.mp ha).elim (h.sends a) (h'.sends a)

/-! ### Steps -/

lemma attempts_of_halted (h : m.halted = true) : m.attempts r m' = [] := by
  unfold attempts
  rw [h]

/-- Only a step that is to write a character makes an attempt. -/
lemma attempts_of_ne (h : ∀ next c, m.core.plan ≠ .ok (next, .print c)) : m.attempts r m' = [] := by
  unfold attempts
  split
  · next v _ _ _ hf _ _ =>
    cases hc : (m.core.value v).char? with
    | none => rfl
    | some c =>
      have hact := Core.act_eq_print_iff.mpr ⟨v, rfl, hc⟩
      exact absurd (Core.plan_eq_ok_iff.mpr ⟨_, hf, hact, rfl⟩) (h _ c)
  · rfl

lemma attempts_of_print {next : Word} {c : Char} (h : m.halted = false)
    (hp : m.core.plan = .ok (next, .print c)) (hs : m.console.sink = some s)
    (hs' : m'.console.sink = some s') : m.attempts r m' = [⟨c, r, s, s'⟩] := by
  obtain ⟨i, hf, ha, -⟩ := Core.plan_eq_ok_iff.mp hp
  obtain ⟨v, rfl, hc⟩ := Core.act_eq_print_iff.mp ha
  simp only [attempts, h, hf, hs, hs', hc]
  rfl

/-- One attempt delivers what its sending comes to. -/
lemma Delivered.of_send {c : Char} {answer : Except String Unit} (hs' : m'.console.sink = some s')
    (hsend : s.send (String.utf8EncodeChar c) = (answer, s'))
    (hresult : r = (answer.mapError Fault.io).map fun _ => .continued)
    (houtput : m'.console.output.toList =
      m.console.output.toList ++ if r.isOk then [c] else []) :
    m.Delivered m' s s' [⟨c, r, s, s'⟩] := by
  obtain ⟨taken, hrule⟩ := s.exists_sendRule (String.utf8EncodeChar c)
  rw [hsend] at hrule
  -- what the sink took is what it received since
  have htaken : Attempt.accepted ⟨c, r, s, s'⟩ = taken := by
    rw [Attempt.accepted, hrule.received]
    exact List.drop_left
  have hsent : Sink.SendRule s (Attempt.bytes ⟨c, r, s, s'⟩) answer
      (Attempt.accepted ⟨c, r, s, s'⟩) s' := by
    rw [htaken]
    exact hrule
  constructor
  · exact hs'
  · rw [List.flatMap_singleton]
    exact hsent.received
  · rw [List.countP_singleton, hsent.flushes]
    simp only [decide_eq_true_eq]
  · rw [houtput]
    cases r <;> rfl
  · intro a ha
    rw [List.mem_singleton.mp ha]
    exact ⟨answer, hsent, hresult⟩

end Machine

open Machine in
/-- What a step delivers is its attempt, if it makes one. -/
theorem StepRule.delivered {m m' : Machine} {r : Except Fault Step} (h : StepRule m r m') {s : Sink}
    (hs : m.console.sink = some s) : ∃ s', m.Delivered m' s s' (m.attempts r m') := by
  cases h with
  | stopped h =>
    rw [attempts_of_halted h]
    exact ⟨s, .refl hs rfl⟩
  | refused h hp | halt h hp | update h hp =>
    rw [attempts_of_ne (by simp [hp])]
    exact ⟨s, .refl hs rfl⟩
  | read h hp | unread h hp | rejected h hp =>
    rw [attempts_of_ne (by simp [hp])]
    exact ⟨s, .refl (m.console.sink_peek.trans hs) m.console.output_peek⟩
  | printed h hp hc =>
    obtain ⟨s', hs', hsend⟩ := Console.send_of_put hs hc
    rw [attempts_of_print h hp hs hs']
    refine ⟨s', .of_send hs' hsend rfl ?_⟩
    rw [Console.output_of_put_ok hc]
    exact String.toList_push _
  | unprinted h hp hc =>
    obtain ⟨s', hs', hsend⟩ := Console.send_of_put hs hc
    rw [attempts_of_print h hp hs hs']
    refine ⟨s', .of_send hs' hsend rfl ?_⟩
    rw [Console.output_of_put_error hc]
    exact (List.append_nil _).symm

namespace Machine

variable {m : Machine} {s : Sink}

/-! ### Runs -/

lemma exists_delivered_after (h : m.console.sink = some s) (n : Nat) :
    ∃ s', m.Delivered (m.after n) s s' (m.gather attempts n) := by
  induction n generalizing m s with
  | zero => exact ⟨s, .refl h rfl⟩
  | succ n ih =>
    obtain ⟨s', hstep⟩ := m.stepRule.delivered h
    obtain ⟨s'', hafter⟩ := ih hstep.sink
    exact ⟨s'', hstep.trans hafter⟩

/-- If all attempts succeed, the sink has received what was written. -/
lemma Delivered.received_eq {m' : Machine} {s' : Sink} {as : List Attempt}
    (h : m.Delivered m' s s' as) (hall : ∀ a ∈ as, a.result.isOk) :
    ∃ text, m'.console.output.toList = m.console.output.toList ++ text ∧
      s'.received.toList = s.received.toList ++ text.flatMap String.utf8EncodeChar := by
  refine ⟨as.map Attempt.char, ?_, ?_⟩
  · rw [h.output, List.filter_eq_self.mpr hall]
  · rw [h.received, List.flatMap_map]
    refine congrArg (s.received.toList ++ ·) (List.flatMap_congr ?_)
    intro a ha
    exact Attempt.accepted_of_isOk (h.sends a ha) (hall a ha)

/-- However a sink answers, over any number of steps it receives what the attempts to write a
character have sent, in order: the bytes of the character if the attempt succeeds or only its flush
fails, and a proper prefix of them if a write fails. -/
theorem delivered_after (h : m.console.sink = some s) (n : Nat) :
    ∃ s', m.Delivered (m.after n) s s' (m.gather attempts n) ∧
      ((∀ a ∈ m.gather attempts n, a.result.isOk) →
        ∃ text, (m.after n).console.output.toList = m.console.output.toList ++ text ∧
          s'.received.toList = s.received.toList ++ text.flatMap String.utf8EncodeChar) := by
  obtain ⟨s', hs'⟩ := exists_delivered_after h n
  exact ⟨s', hs', hs'.received_eq⟩

/-- A sink that takes everything, and whose first flush fails. -/
def clogged : Sink.Policy where
  write _ _ offered := .ok offered
  flush call := if call = 0 then .error "clogged" else .ok ()

/-- A character whose flush failed is sent a second time. -/
theorem delivered_after_printer :
    (∃ s', ((printer.attachSink .unlimited).after 2).console.sink = some s' ∧
      s'.received.toList = [65]) ∧
    ∃ s', (printer.attachSink clogged).Delivered ((printer.attachSink clogged).after 3)
        { policy := clogged } s' ((printer.attachSink clogged).gather attempts 3) ∧
      ((printer.attachSink clogged).after 3).console.output.toList = ['A'] ∧
      s'.received.toList = [65, 65] := by
  refine ⟨?_, ?_⟩
  · have hsink : (printer.attachSink .unlimited).console.sink = some { policy := .unlimited } := rfl
    obtain ⟨s', hdelivered, hreceived⟩ := delivered_after hsink 2
    obtain ⟨text, htext, hs'⟩ := hreceived (by decide +kernel)
    have houtput : ((printer.attachSink .unlimited).after 2).console.output.toList = ['A'] := by
      decide +kernel
    have htext : ['A'] = text := houtput.symm.trans htext
    refine ⟨s', hdelivered.sink, ?_⟩
    rw [hs', ← htext]
    rfl
  · have hsink : (printer.attachSink clogged).console.sink = some { policy := clogged } := rfl
    obtain ⟨s', hdelivered, -⟩ := delivered_after hsink 3
    have houtput : ((printer.attachSink clogged).after 3).console.output.toList = ['A'] := by
      decide +kernel
    have haccepted : ((printer.attachSink clogged).gather attempts 3).flatMap Attempt.accepted =
        [65, 65] := by
      decide +kernel
    refine ⟨s', hdelivered, houtput, ?_⟩
    rw [hdelivered.received, haccepted]
    rfl

end Machine

end WordMachine
