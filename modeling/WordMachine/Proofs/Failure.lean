import WordMachine.Proofs.Cycle
import WordMachine.Proofs.Input.Segments

/-!
# Steps that fail

A step that fails changes nothing, except that the queue may have been refilled: an `in` that finds
the queue empty reads a line before it fails. No other step looks at the source, and only an `out`
of a character looks at the sink. To look at neither means that the step would have been the same
with any other source, or any other sink. Such comparisons rest on one lemma, `Related.step`, about
two machines that differ in their consoles only.
-/

namespace WordMachine

/-! ### What is kept -/

/-- All but the queue, the source and the sink is the same. -/
structure Machine.Kept (m m' : Machine) : Prop where
  core : m'.core = m.core
  cycles : m'.cycles = m.cycles
  halted : m'.halted = m.halted
  output : m'.console.output = m.console.output

/-- The empty queue got one line, which the source had next. -/
structure Console.Refilled (con con' : Console) : Prop where
  pending : con.pending = []
  line : ∃ segment rest text line, con.source.next? = some (segment, rest) ∧
    segment.read = .ok text ∧ Input.normalise text = con'.pending ∧
    con'.pending = line ++ ['\n'] ∧ '\n' ∉ line

namespace Machine

/-- The machine is about to carry out an `in`. -/
def Reads (m : Machine) : Prop := m.halted = false ∧ ∃ dst, m.core.fetch = .ok (.read dst)

/-- The machine is about to carry out an `out` of a character. -/
def Prints (m : Machine) : Prop :=
  m.halted = false ∧ ∃ v, m.core.fetch = .ok (.out v) ∧ (m.core.value v).toNat < memorySize

variable {m : Machine} {next : Word}

lemma reads_of_plan {l : Location} (h : m.halted = false)
    (hp : m.core.plan = .ok (next, .read l)) : m.Reads := by
  obtain ⟨i, hf, ha, -⟩ := Core.plan_eq_ok_iff.mp hp
  obtain ⟨dst, rfl, -⟩ := Core.act_eq_read_iff.mp ha
  exact ⟨h, dst, hf⟩

lemma prints_of_plan {c : Char} (h : m.halted = false)
    (hp : m.core.plan = .ok (next, .print c)) : m.Prints := by
  obtain ⟨i, hf, ha, -⟩ := Core.plan_eq_ok_iff.mp hp
  obtain ⟨v, rfl, hv⟩ := Core.act_eq_print_iff.mp ha
  refine ⟨h, v, hf, Nat.lt_of_not_le ?_⟩
  intro hle
  rw [(Word.char?_eq_none_iff _).mpr hle] at hv
  cases hv

end Machine

lemma PeekRule.pending {con con' : Console} {r : Except Fault Char} (h : PeekRule con r con') :
    con'.pending = con.pending ∨ con.Refilled con' := by
  cases h with
  | waiting | exhausted | failed => exact .inl rfl
  | refilled h hs ht hn =>
    obtain ⟨message, -, hr⟩ | ⟨line, text, -, hr, hline, hnorm⟩ :=
      Source.Segment.read_of_cut (Source.cut_of_next? hs)
    · cases ht.symm.trans hr
    · cases ht.symm.trans hr
      rw [hn] at hnorm
      exact .inr ⟨h, _, _, _, line, hs, ht, hn, hnorm, hline⟩

theorem StepRule.kept {m m' : Machine} {fault : Fault} (h : StepRule m (.error fault) m') :
    m.Kept m' := by
  cases h with
  | refused => exact ⟨rfl, rfl, rfl, rfl⟩
  | unprinted h hp hc => exact ⟨rfl, rfl, rfl, Console.output_of_put_error hc⟩
  | unread | rejected => exact ⟨rfl, rfl, rfl, m.console.output_peek⟩

theorem StepRule.pending {m m' : Machine} {fault : Fault} (h : StepRule m (.error fault) m') :
    m'.console.pending = m.console.pending ∨ m.Reads ∧ m.console.Refilled m'.console := by
  cases h with
  | refused => exact .inl rfl
  | unprinted h hp hc => exact .inl (Console.pending_of_put hc)
  | unread h hp | rejected h hp =>
    obtain hkept | hrefilled := m.console.peekRule.pending
    · exact .inl hkept
    · exact .inr ⟨Machine.reads_of_plan h hp, hrefilled⟩

/-! ### Consoles in a relation -/

namespace Machine

variable {m : Machine}

/-- Machines with one core stop in the same way, or both do what it has planned. -/
lemma steps_of_core_eq {m' : Machine} (hcore : m.core = m'.core) (hhalted : m.halted = m'.halted) :
    m.step.result = m'.step.result ∧ m.step.machine = m ∧ m'.step.machine = m' ∨
      ∃ next action, m.halted = false ∧ m.core.plan = .ok (next, action) ∧
        (m.step.result = (m.perform next action).result ∧
          m.step.machine = (m.perform next action).machine) ∧
        m'.step.result = (m'.perform next action).result ∧
          m'.step.machine = (m'.perform next action).machine := by
  cases h : m.halted with
  | true =>
    rw [step_of_halted h, step_of_halted (hhalted.symm.trans h)]
    exact .inl ⟨rfl, rfl, rfl⟩
  | false =>
    have h' : m'.halted = false := hhalted.symm.trans h
    cases hp : m.core.plan with
    | error e =>
      obtain ⟨hr, hm⟩ := step_of_plan_error h hp
      obtain ⟨hr', hm'⟩ := step_of_plan_error h' (hcore ▸ hp)
      exact .inl ⟨hr.trans hr'.symm, hm, hm'⟩
    | ok p =>
      obtain ⟨next, action⟩ := p
      exact .inr ⟨next, action, rfl, rfl, step_of_plan h hp, step_of_plan h' (hcore ▸ hp)⟩

/-- The machines are the same but for their consoles, which are in a relation. -/
structure Related (R : Console → Console → Prop) (m m' : Machine) : Prop where
  core : m.core = m'.core
  console : R m.console m'.console
  cycles : m.cycles = m'.cycles
  halted : m.halted = m'.halted

section Consoles

variable {R : Console → Console → Prop} {m' : Machine}

lemma Related.perform (h : m.Related R m') {next : Word} {action : Action}
    (hput : ∀ c, action = .print c → (m.console.put c).1 = (m'.console.put c).1 ∧
      R (m.console.put c).2 (m'.console.put c).2)
    (hpeek : ∀ l, action = .read l → m.console.peek.result = m'.console.peek.result ∧
      R m.console.peek.console m'.console.peek.console)
    (hadvance : ∀ l, action = .read l → ∀ c, m.console.peek.result = .ok c →
      R m.console.peek.console.advance m'.console.peek.console.advance) :
    (m.perform next action).result = (m'.perform next action).result ∧
      (m.perform next action).machine.Related R (m'.perform next action).machine := by
  obtain ⟨core, con, cycles, halted⟩ := m
  obtain ⟨core', con', cycles', halted'⟩ := m'
  obtain ⟨rfl, hcon, rfl, rfl⟩ := h
  cases action with
  | halt | update => exact ⟨rfl, rfl, hcon, rfl, rfl⟩
  | print c =>
    obtain ⟨hanswer, hcon⟩ := hput c rfl
    simp only [Machine.perform, print]
    generalize con.put c = p at hanswer hcon
    generalize con'.put c = p' at hanswer hcon
    obtain ⟨answer, con⟩ := p
    obtain ⟨answer', con'⟩ := p'
    cases hanswer
    cases answer <;> exact ⟨rfl, rfl, hcon, rfl, rfl⟩
  | read l =>
    obtain ⟨hr, hcon⟩ := hpeek l rfl
    simp only [Machine.perform, read, ← hr]
    cases hc : con.peek.result with
    | error fault => exact ⟨rfl, rfl, hcon, rfl, rfl⟩
    | ok c =>
      cases hw : Word.ofChar? c with
      | none =>
        simp only [hw, true_and]
        exact ⟨rfl, hcon, rfl, rfl⟩
      | some w =>
        simp only [hw, true_and]
        exact ⟨rfl, hadvance l rfl c hc, rfl, rfl⟩

/-- If what a step does with the consoles comes to the same and keeps them in the relation, the
machines make the same step. -/
theorem Related.step (h : m.Related R m')
    (hput : m.Prints → ∀ c, (m.console.put c).1 = (m'.console.put c).1 ∧
      R (m.console.put c).2 (m'.console.put c).2)
    (hpeek : m.Reads → m.console.peek.result = m'.console.peek.result ∧
      R m.console.peek.console m'.console.peek.console)
    (hadvance : m.Reads → ∀ c, m.console.peek.result = .ok c →
      R m.console.peek.console.advance m'.console.peek.console.advance) :
    m.step.result = m'.step.result ∧ m.step.machine.Related R m'.step.machine := by
  obtain ⟨hresult, hm, hm'⟩ | ⟨next, action, hrun, hp, ⟨hr, hm⟩, hr', hm'⟩ :=
    steps_of_core_eq h.core h.halted
  · rw [hm, hm']
    exact ⟨hresult, h⟩
  · rw [hr, hm, hr', hm']
    apply h.perform
    · rintro c rfl
      exact hput (prints_of_plan hrun hp) c
    · rintro l rfl
      exact hpeek (reads_of_plan hrun hp)
    · rintro l rfl
      exact hadvance (reads_of_plan hrun hp)

/-- A change of the console that nothing in a step looks at can be made after the step. -/
theorem step_modifyConsole {f : Console → Console}
    (hput : m.Prints → ∀ c, (f m.console).put c = ((m.console.put c).1, f (m.console.put c).2))
    (hpeek : m.Reads → (f m.console).peek.result = m.console.peek.result ∧
      (f m.console).peek.console = f m.console.peek.console)
    (hadvance : m.Reads →
      (f m.console.peek.console).advance = f m.console.peek.console.advance) :
    (m.modifyConsole f).step.result = m.step.result ∧
      (m.modifyConsole f).step.machine = m.step.machine.modifyConsole f := by
  have h : m.Related (fun con con' => con' = f con) (m.modifyConsole f) := ⟨rfl, rfl, rfl, rfl⟩
  obtain ⟨hresult, hmachine⟩ : m.step.result = (m.modifyConsole f).step.result ∧
      m.step.machine.Related (fun con con' => con' = f con) (m.modifyConsole f).step.machine := by
    apply h.step
    · intro hprints c
      have hc : (m.modifyConsole f).console.put c = _ := hput hprints c
      rw [hc]
      exact ⟨rfl, rfl⟩
    · intro hreads
      exact ⟨(hpeek hreads).1.symm, (hpeek hreads).2⟩
    · intro hreads c _
      have hcon : (m.modifyConsole f).console.peek.console = _ := (hpeek hreads).2
      rw [hcon]
      exact hadvance hreads
  refine ⟨hresult.symm, ?_⟩
  generalize (m.modifyConsole f).step.machine = m' at hmachine
  obtain ⟨core, con, cycles, halted⟩ := m'
  obtain ⟨rfl, rfl, rfl, rfl⟩ := hmachine
  rfl

end Consoles

end Machine

/-! ### What is not looked at -/

/-- Reading has nothing to do with the sink. -/
lemma Console.peek_withSink (con : Console) (sink : Option Sink) :
    Console.peek { con with sink := sink } =
      ⟨con.peek.result, { con.peek.console with sink := sink }, con.peek.notes⟩ := by
  obtain ⟨output, pending, source, sink'⟩ := con
  cases pending with
  | cons c cs => rfl
  | nil =>
    simp only [peek]
    rcases source.next? with _ | ⟨segment, rest⟩
    · rfl
    · cases ht : segment.text <;> simp only [ht]

namespace Machine

variable {m : Machine}

/-- The machine with another sink, or with none. -/
def withSink (m : Machine) (sink : Option Sink) : Machine :=
  m.modifyConsole fun con => { con with sink := sink }

theorem step_attachSource (h : ¬ (m.Reads ∧ m.console.pending = [])) (source : Source) :
    (m.attachSource source).step.result = m.step.result ∧
      (m.attachSource source).step.machine = m.step.machine.attachSource source := by
  apply step_modifyConsole
  · intro _ c
    obtain ⟨core, ⟨output, pending, source', sink⟩, cycles, halted⟩ := m
    cases sink with
    | none => rfl
    | some sink =>
      simp only [Console.put]
      rcases sink.send (String.utf8EncodeChar c) with ⟨_ | _, _⟩ <;> rfl
  · intro hreads
    obtain ⟨core, ⟨output, pending, source', sink⟩, cycles, halted⟩ := m
    cases pending with
    | nil       => exact absurd ⟨hreads, rfl⟩ h
    | cons c cs => exact ⟨rfl, rfl⟩
  · exact fun _ => rfl

theorem step_withSink (h : ¬ m.Prints) (sink : Option Sink) :
    (m.withSink sink).step.result = m.step.result ∧
      (m.withSink sink).step.machine = m.step.machine.withSink sink := by
  apply step_modifyConsole
  · intro hprints
    exact absurd hprints h
  · intro _
    simp only [m.console.peek_withSink sink, and_self]
  · exact fun _ => rfl

/-! ### Atomicity -/

/-- A step that fails keeps all but the queue, which at most an `in` may have refilled. Only an `in`
on an empty queue looks at the source, and only an `out` of a character looks at the sink. -/
theorem step_atomic (m : Machine) :
    (∀ fault, m.step.result = .error fault → m.Kept m.step.machine ∧
      (m.step.machine.console.pending = m.console.pending ∨
        m.Reads ∧ m.console.Refilled m.step.machine.console)) ∧
    (¬ (m.Reads ∧ m.console.pending = []) →
      m.step.machine.console.source = m.console.source ∧
      ∀ source, (m.attachSource source).step.result = m.step.result ∧
        (m.attachSource source).step.machine = m.step.machine.attachSource source) ∧
    (¬ m.Prints →
      m.step.machine.console.sink = m.console.sink ∧
      ∀ sink, (m.withSink sink).step.result = m.step.result ∧
        (m.withSink sink).step.machine = m.step.machine.withSink sink) := by
  refine ⟨?_, ?_, ?_⟩
  · intro fault hfault
    have h := m.stepRule
    rw [hfault] at h
    exact ⟨h.kept, h.pending⟩
  · intro h
    -- with the source that it has, the machine is the same
    have hsource := (step_attachSource h m.console.source).2
    exact ⟨congrArg (·.console.source) hsource, step_attachSource h⟩
  · intro h
    have hsink := (step_withSink h m.console.sink).2
    exact ⟨congrArg (·.console.sink) hsink, step_withSink h⟩

/-- A machine that reads from a source that fails. -/
def unlucky : Machine := reader.attachSource ⟨[.byte 104, .failure "disk"]⟩

theorem step_atomic_unlucky :
    unlucky.step.result = .error (.io "disk") ∧ unlucky.Kept unlucky.step.machine ∧
      unlucky.step.machine.console.sink = none ∧
      ({} : Machine).step.machine.console.source = .empty := by
  refine ⟨rfl, ((step_atomic unlucky).1 (.io "disk") rfl).1, ?_, ?_⟩
  · refine ((step_atomic unlucky).2.2 ?_).1
    rintro ⟨-, v, hf, -⟩
    cases hf
  · refine ((step_atomic {}).2.1 ?_).1
    rintro ⟨⟨-, dst, hf⟩, -⟩
    cases hf

end Machine

end WordMachine
