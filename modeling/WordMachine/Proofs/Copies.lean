import WordMachine.Proofs.Input.Lines
import WordMachine.Proofs.Running

/-!
# Copies of the output

A sink that takes everything holds the bytes of the output, whatever the machine does, and the machine
does what it would do without a sink. So the sink of a run shows what the run has written.
-/

namespace WordMachine

/-! ### Sinks that take everything -/

namespace Sink

/-- A sink that takes everything, after it was sent the characters of a text one by one. -/
def copyOf (text : String) : Sink where
  policy := .unlimited
  received := (Input.utf8 text.toList).toArray
  writes := text.length
  flushes := text.length

/-- A sink that takes everything takes it at once. -/
lemma send_unlimited {sink : Sink} (h : sink.policy = .unlimited) {bytes : List UInt8}
    (hne : bytes ≠ []) :
    sink.send bytes = (.ok (), ⟨.unlimited, sink.received ++ bytes, sink.writes + 1,
      sink.flushes + 1⟩) := by
  obtain ⟨policy, received, writes, flushes⟩ := sink
  subst h
  cases bytes with
  | nil => contradiction
  | cons b bs =>
    have hwrite (call accepted : Nat) :
        Policy.unlimited.write call accepted (bs.length + 1) = .ok (bs.length + 1) := rfl
    simp only [send, writeAll, hwrite, List.take_length, List.drop_length]
    rfl

lemma send_copyOf (text : String) (c : Char) :
    (copyOf text).send (String.utf8EncodeChar c) = (.ok (), copyOf (text.push c)) := by
  have hreceived : (copyOf text).received ++ String.utf8EncodeChar c =
      (copyOf (text.push c)).received := by
    simp [copyOf, Input.utf8]
  rw [send_unlimited rfl String.utf8EncodeChar_ne_nil, hreceived]
  simp only [copyOf, String.length_push]

end Sink

namespace Console

/-- The console with a copy of its output in a sink. -/
def copied (con : Console) : Console := { con with sink := some (.copyOf con.output) }

variable {con : Console}

lemma put_copied (h : con.sink = none) (c : Char) :
    con.copied.put c = ((con.put c).1, (con.put c).2.copied) := by
  simp only [put, copied, h, Sink.send_copyOf]

lemma peek_copied (con : Console) :
    con.copied.peek.result = con.peek.result ∧
      con.copied.peek.console = con.peek.console.copied := by
  simp only [copied, peek_withSink, output_peek, and_self]

end Console

/-! ### Runs -/

namespace Machine

/-- The machine with a copy of its output in a sink. -/
def copied (m : Machine) : Machine := m.modifyConsole Console.copied

variable {m : Machine}

lemma step_copied (h : m.console.sink = none) :
    m.copied.step.result = m.step.result ∧ m.copied.step.machine = m.step.machine.copied :=
  step_modifyConsole (fun _ => Console.put_copied h) (fun _ => m.console.peek_copied) fun _ => rfl

lemma sink_step (h : m.console.sink = none) : m.step.machine.console.sink = none := by
  have hput {c : Char} {con : Console} {answer : Except String Unit}
      (hc : m.console.put c = (answer, con)) : con.sink = none := by
    simp only [Console.put, h] at hc
    cases hc
    rfl
  have hrule := m.stepRule
  generalize m.step.machine = m' at hrule ⊢
  generalize m.step.result = r at hrule
  cases hrule with
  | stopped | refused | halt | update => exact h
  | printed h hp hc | unprinted h hp hc => exact hput hc
  | read | unread | rejected => exact m.console.sink_peek.trans h

lemma sink_after (h : m.console.sink = none) (k : Nat) : (m.after k).console.sink = none := by
  induction k with
  | zero => exact h
  | succ k ih =>
    rw [after_succ']
    exact sink_step ih

lemma after_copied (h : m.console.sink = none) (k : Nat) :
    m.copied.after k = (m.after k).copied := by
  induction k with
  | zero => rfl
  | succ k ih => rw [after_succ', after_succ', ih, (step_copied (sink_after h k)).2]

/-- A run with a sink that takes everything comes to the same as one without, and the sink holds the
bytes of what was written. -/
theorem run_copied (h : m.console.sink = none) (t t' : Option Level) (n : Nat) :
    (m.copied.run t' n).result = (m.run t n).result ∧
      (m.copied.run t' n).machine = (m.run t n).machine.copied := by
  have hresult (k : Nat) : (m.copied.after k).step.result = (m.after k).step.result := by
    rw [after_copied h]
    exact (step_copied (sink_after h k)).1
  have hhalted (k : Nat) : (m.copied.after k).halted = (m.after k).halted := by
    rw [after_copied h]
    rfl
  obtain ⟨hr, k, hk, hk'⟩ := run_of_after hresult hhalted t' t n
  rw [hk, hk', after_copied h]
  exact ⟨hr, rfl⟩

lemma attachSink_unlimited (h : m.console.output = "") : m.attachSink .unlimited = m.copied := by
  obtain ⟨core, ⟨output, pending, source, sink⟩, cycles, halted⟩ := m
  cases h
  rfl

lemma received_copied (m : Machine) :
    m.copied.console.sink.elim [] (·.received.toList) = Input.utf8 m.console.output.toList := rfl

end Machine

end WordMachine
