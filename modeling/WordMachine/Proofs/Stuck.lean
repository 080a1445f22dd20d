import WordMachine.Proofs.Operations

/-!
# Exceptions are permanent

A machine that has raised an exception is stuck: each further step raises the same one and changes
nothing. Where the core objects, it objects again. Where a character was rejected, it still waits in
the queue, also if it was only just read from the source. So what the source and the sink would
answer makes no difference any more.
-/

namespace WordMachine

namespace Machine

/-- The core objects to the next step, or to the character that waits for it. -/
inductive Stuck (m : Machine) : Exception → Prop
  | refused {e : Exception} (h : m.halted = false) (hp : m.core.plan = .error e) : Stuck m e
  | rejected {next : Word} {l : Location} {c : Char} {cs : List Char} (h : m.halted = false)
      (hp : m.core.plan = .ok (next, .read l)) (hq : m.console.pending = c :: cs)
      (hw : Word.ofChar? c = none) : Stuck m (.invalidCharacter c.toNat)

end Machine

/-! ### Getting stuck -/

/-- A character that was looked at waits in the queue. -/
lemma PeekRule.exists_pending {con con' : Console} {c : Char} (h : PeekRule con (.ok c) con') :
    ∃ cs, con'.pending = c :: cs := by
  cases h with
  | waiting h => exact ⟨_, h⟩
  | refilled => exact ⟨_, rfl⟩

/-- A step that raises an exception leaves the machine stuck. -/
theorem StepRule.stuck {m m' : Machine} {e : Exception}
    (h : StepRule m (.error (.exception e)) m') : m'.Stuck e := by
  cases h with
  | refused h hp => exact .refused h hp
  | unread h hp hc =>
    -- the console itself raises no exception
    have hpeek := Console.peekRule_of_result hc
    cases hpeek
  | rejected h hp hc hw =>
    obtain ⟨cs, hq⟩ := (Console.peekRule_of_result hc).exists_pending
    exact .rejected h hp hq hw

namespace Machine

variable {m : Machine} {e : Exception}

/-! ### Being stuck -/

theorem Stuck.step (h : m.Stuck e) :
    m.step.result = .error (.exception e) ∧ m.step.machine = m := by
  cases h with
  | refused h hp => exact step_of_plan_error h hp
  | rejected h hp hq hw =>
    obtain ⟨hresult, hmachine⟩ := step_of_plan h hp
    rw [hresult, hmachine]
    simp only [perform, read, Console.peek_cons hq, hw]
    exact ⟨trivial, trivial⟩

/-- A run that makes a step at all comes no further. -/
theorem Stuck.run (h : m.Stuck e) (t : Option Level) {n : Nat} (hn : 0 < n) :
    (m.run t n).result = .error (.exception e) ∧ (m.run t n).machine = m := by
  obtain ⟨hresult, hmachine⟩ := h.step
  have hrule : RunRule m n (.error (.exception e)) (m.after 1) := .failed hn (by nofun) hresult
  rw [after_succ, hmachine, after_zero] at hrule
  exact runRule_iff.mp hrule

/-- Of the console, only the queue matters. -/
lemma Stuck.modifyConsole (h : m.Stuck e) {f : Console → Console}
    (hf : (f m.console).pending = m.console.pending) : (m.modifyConsole f).Stuck e := by
  cases h with
  | refused h hp => exact .refused h hp
  | rejected h hp hq hw => exact .rejected h hp (hf.trans hq) hw

end Machine

/-! ### Operations -/

/-- Whether the operation makes the machine try at least one step. -/
def Operation.proceeds : Operation → Bool
  | step    => true
  | run _ n => 0 < n
  | _       => false

namespace Machine

/-- Whether an operation succeeds. What is done from outside always does. -/
def answer (m : Machine) : Operation → Except Fault Unit
  | .step    => m.step.result.map fun _ => ()
  | .run t n => (m.run t n).result.map fun _ => ()
  | _        => .ok ()

/-- Whether each of some operations succeeds, when they are carried out one after the other. -/
def answers (m : Machine) : List Operation → List (Except Fault Unit)
  | []        => []
  | op :: ops => m.answer op :: (m.operate op).answers ops

variable {m : Machine} {e : Exception}

lemma Stuck.operate (h : m.Stuck e) {op : Operation} (hop : op.proceeds = true) :
    m.answer op = .error (.exception e) ∧ m.operate op = m := by
  cases op with
  | step =>
    obtain ⟨hresult, hmachine⟩ := h.step
    exact ⟨by rw [answer, hresult]; rfl, hmachine⟩
  | run t n =>
    obtain ⟨hresult, hmachine⟩ := h.run t (of_decide_eq_true hop)
    exact ⟨by rw [answer, hresult]; rfl, hmachine⟩
  | _ => cases hop

theorem Stuck.operateAll (h : m.Stuck e) {ops : List Operation}
    (hops : ∀ op ∈ ops, op.proceeds = true) :
    m.answers ops = List.replicate ops.length (.error (.exception e)) ∧
      m.operateAll ops = m := by
  induction ops with
  | nil => exact ⟨rfl, rfl⟩
  | cons op ops ih =>
    obtain ⟨hop, hops⟩ := List.forall_mem_cons.mp hops
    obtain ⟨hanswer, hmachine⟩ := h.operate hop
    obtain ⟨hanswers, hmachines⟩ := ih hops
    rw [answers, operateAll_cons, hmachine, hanswer, hanswers]
    exact ⟨rfl, hmachines⟩

/-- After a step that raised an exception, steps and runs raise the same one, however many there are,
and the machine stays as the first of them has left it. Neither the source nor the sink is used any
more, so it is the same with any other ones. -/
theorem exception_permanent (h : m.step.result = .error (.exception e)) {ops : List Operation}
    (hops : ∀ op ∈ ops, op.proceeds = true) :
    let failed := m.step.machine
    (failed.answers ops = List.replicate ops.length (.error (.exception e)) ∧
      failed.operateAll ops = failed) ∧
    ∀ source sink,
      let other := (failed.attachSource source).withSink sink
      other.answers ops = List.replicate ops.length (.error (.exception e)) ∧
        other.operateAll ops = other := by
  intro failed
  have hrule := m.stepRule
  rw [h] at hrule
  refine ⟨hrule.stuck.operateAll hops, ?_⟩
  intro source sink other
  have hother : other.Stuck e :=
    (hrule.stuck.modifyConsole (f := fun con => { con with source := source }) rfl).modifyConsole rfl
  exact hother.operateAll hops

/-- A character that is none for the machine is read from the source once. -/
theorem exception_permanent_reader :
    let m := reader.attachSource (.ofBytes (Input.utf8 ['😀', 'b']))
    let ops := [.run none 9, .step, .step]
    m.step.result = .error (.exception (.invalidCharacter 128512)) ∧
      (∀ op ∈ ops, op.proceeds = true) ∧
      m.step.machine.console.pending = ['😀', 'b', '\n'] ∧
      m.step.machine.answers ops =
        List.replicate 3 (.error (.exception (.invalidCharacter 128512))) ∧
      m.step.machine.operateAll ops = m.step.machine := by
  intro m ops
  have hresult : m.step.result = .error (.exception (.invalidCharacter 128512)) := rfl
  have hops : ∀ op ∈ ops, op.proceeds = true := by simp [ops, Operation.proceeds]
  obtain ⟨hanswers, hmachine⟩ := (exception_permanent hresult hops).1
  exact ⟨hresult, hops, rfl, hanswers, hmachine⟩

end Machine

end WordMachine
