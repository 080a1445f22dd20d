import WordMachine.Console.Basic
import Mathlib.Tactic.Lemma

/-!
# Sinks that do not fail

A sink is reliable if from now on each write takes at least one byte and each flush succeeds. It then
takes all that it is sent, and stays reliable.
-/

namespace WordMachine

namespace Sink

/-- No call to come fails. -/
structure Reliable (s : Sink) : Prop where
  write : ∀ call accepted offered, s.writes ≤ call → s.accepted ≤ accepted → 0 < offered →
    ∃ k, s.policy.write call accepted offered = .ok (k + 1)
  flush : ∀ call, s.flushes ≤ call → s.policy.flush call = .ok ()

variable {s : Sink}

lemma accepted_took (s : Sink) (bytes : List UInt8) :
    (s.took bytes).accepted = s.accepted + bytes.length := by
  have hreceived := congrArg List.length (s.received_took bytes)
  rw [List.length_append] at hreceived
  exact hreceived

lemma Reliable.took (h : s.Reliable) (bytes : List UInt8) : (s.took bytes).Reliable := by
  constructor
  · intro call accepted offered hcall haccepted hoffered
    rw [writes_took] at hcall
    rw [accepted_took] at haccepted
    rw [policy_took]
    exact h.write call accepted offered (Nat.le_of_succ_le hcall)
      (Nat.le_of_add_right_le haccepted) hoffered
  · intro call hcall
    exact h.flush call hcall

lemma Reliable.writeAll (h : s.Reliable) (bytes : List UInt8) :
    ∃ s', s.writeAll bytes = (.ok (), s') ∧ s'.Reliable := by
  fun_induction s.writeAll bytes with
  | case1 s => exact ⟨s, rfl, h⟩
  | case2 s b bs message hw | case3 s b bs hw =>
    obtain ⟨k, hk⟩ := h.write s.writes s.accepted (bs.length + 1) (Nat.le_refl _) (Nat.le_refl _)
      (Nat.succ_pos _)
    rw [hk] at hw
    cases hw
  | case4 s b bs k hw ih => exact ih (h.took _)

/-- All that is sent is taken. -/
theorem Reliable.send (h : s.Reliable) (bytes : List UInt8) :
    ∃ s', s.send bytes = (.ok (), s') ∧ s'.Reliable := by
  obtain ⟨s', hw, hs'⟩ := h.writeAll bytes
  refine ⟨{ s' with flushes := s'.flushes + 1 }, ?_, ?_⟩
  · rw [Sink.send, hw]
    simp only [flushOnce, hs'.flush s'.flushes (Nat.le_refl _)]
  · exact ⟨hs'.write, fun call hcall => hs'.flush call (Nat.le_of_succ_le hcall)⟩

/-- A sink that takes everything is reliable. -/
lemma reliable_unlimited : Reliable { policy := .unlimited } := by
  constructor
  · intro call accepted offered _ _ hoffered
    obtain ⟨k, rfl⟩ := Nat.exists_eq_succ_of_ne_zero (Nat.ne_of_gt hoffered)
    exact ⟨k, rfl⟩
  · exact fun _ _ => rfl

end Sink

namespace Console

/-- The sink, if there is one, does not fail. -/
def Reliable (con : Console) : Prop := ∀ sink, con.sink = some sink → sink.Reliable

variable {con : Console}

/-- A character that a reliable sink gets is written. -/
theorem Reliable.put (h : con.Reliable) (c : Char) :
    ∃ con', con.put c = (.ok (), con') ∧ con'.Reliable := by
  cases hs : con.sink with
  | none =>
    refine ⟨{ con with output := con.output.push c }, ?_, ?_⟩
    · rw [Console.put, hs]
    · exact h
  | some sink =>
    obtain ⟨sink', hsend, hsink'⟩ := (h sink hs).send (String.utf8EncodeChar c)
    refine ⟨{ con with output := con.output.push c, sink := some sink' }, ?_, ?_⟩
    · simp only [Console.put, hs, hsend]
    · rintro _ ⟨⟩
      exact hsink'

lemma Reliable.peek (h : con.Reliable) : con.peek.console.Reliable := by
  intro sink hs
  rw [sink_peek] at hs
  exact h sink hs

end Console

end WordMachine
