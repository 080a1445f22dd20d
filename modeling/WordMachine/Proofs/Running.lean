import WordMachine.Machine.Run
import WordMachine.Proofs.Failure
import WordMachine.Proofs.Steps

/-!
# Running is stepping

A run makes the steps that could as well be made one by one. `RunRule` lists the ways in which a run
can end, in terms of successive steps alone. For each budget exactly one of them applies, and a run
ends by it. So a run can be cut in two anywhere, and a budget that is larger than what a machine
needs to stop makes no difference.
-/

namespace WordMachine

/-- The outcome, if some steps were carried out before those it counts. -/
def Outcome.later (before : Nat) : Outcome → Outcome
  | halted n      => .halted (before + n)
  | budgetSpent n => .budgetSpent (before + n)

@[simp] lemma Outcome.later_zero (o : Outcome) : o.later 0 = o := by
  cases o <;> simp [later]

@[simp] lemma Outcome.later_later (a b : Nat) (o : Outcome) :
    (o.later a).later b = o.later (b + a) := by
  cases o <;> simp [later, Nat.add_assoc]

namespace Machine

/-! ### Steps that carry out an instruction -/

/-- The step after the given number of steps carries out an instruction. -/
def Executes (m : Machine) (j : Nat) : Prop :=
  (m.after j).halted = false ∧ ∃ s, (m.after j).step.result = .ok s

/-- The machine comes to a stop by itself in at most the given number of steps. -/
def StopsWithin (m : Machine) (k : Nat) : Prop :=
  m.halted = true ∨ ∃ j < k, (m.after j).step.result ≠ .ok .continued

variable {m : Machine} {n k : Nat}

lemma executes_add {a j : Nat} : (m.after a).Executes j ↔ m.Executes (a + j) := by
  rw [Executes, Executes, after_add]

lemma executes_append {a : Nat} (h : ∀ j < a, m.Executes j)
    (h' : ∀ j < k, (m.after a).Executes j) : ∀ j < a + k, m.Executes j := by
  intro j hj
  obtain hlt | hle := Nat.lt_or_ge j a
  · exact h j hlt
  · obtain ⟨i, rfl⟩ := Nat.exists_eq_add_of_le hle
    exact executes_add.mp (h' i (Nat.lt_of_add_lt_add_left hj))

end Machine

lemma StepRule.halted_iff {m m' : Machine} {r : Except Fault Step} (h : StepRule m r m') :
    r = .ok .halted ↔ m'.halted = true := by
  cases h with
  | stopped h => simp [h]
  | halt => simp
  | refused h | update h | printed h | unprinted h | read h | unread h | rejected h => simp [h]

lemma StepRule.cycles_eq {m m' : Machine} {s : Step} (h : StepRule m (.ok s) m')
    (hm : m.halted = false) : m'.cycles = m.cycles + 1 := by
  cases h with
  | stopped h =>
    rw [h] at hm
    cases hm
  | halt | update | printed | read => rfl

/-- A step counts one cycle at most. -/
lemma StepRule.cycles_le {m m' : Machine} {r : Except Fault Step} (h : StepRule m r m') :
    m.cycles ≤ m'.cycles ∧ m'.cycles ≤ m.cycles + 1 := by
  cases h with
  | stopped | refused | unprinted | unread | rejected => exact ⟨Nat.le_refl _, Nat.le_succ _⟩
  | halt | update | printed | read => exact ⟨Nat.le_succ _, Nat.le_refl _⟩

lemma StepRule.exists_output {m m' : Machine} {r : Except Fault Step} (h : StepRule m r m') :
    ∃ text, m'.console.output = m.console.output ++ text := by
  cases h with
  | @printed _ c _ h hp hc =>
    exact ⟨String.singleton c, by rw [Console.output_of_put_ok hc, String.push_eq_append]⟩
  | unprinted h hp hc =>
    exact ⟨"", by rw [Console.output_of_put_error hc, String.append_empty]⟩
  | stopped | refused | halt | update => exact ⟨"", String.append_empty.symm⟩
  | read | unread | rejected => exact ⟨"", m.console.output_peek.trans String.append_empty.symm⟩

/-! ### How a run can end -/

/-- How a run of at most `n` steps can end: its result and the machine after it. The first steps
each carry out an instruction. After them either a step fails, or the machine has halted, or the
budget is spent. -/
inductive RunRule (m : Machine) (n : Nat) : Except Fault Outcome → Machine → Prop
  | failed {k : Nat} {fault : Fault} (hk : k < n) (h : ∀ j < k, m.Executes j)
      (hf : (m.after k).step.result = .error fault) :
      RunRule m n (.error fault) (m.after (k + 1))
  | halted {k : Nat} (hk : k ≤ n) (h : ∀ j < k, m.Executes j) (hh : (m.after k).halted = true) :
      RunRule m n (.ok (.halted k)) (m.after k)
  | spent (h : ∀ j < n, m.Executes j) (hh : (m.after n).halted = false) :
      RunRule m n (.ok (.budgetSpent n)) (m.after n)

namespace RunRule

open Machine

variable {m m' : Machine} {n k : Nat} {r : Except Fault Outcome}

/-- Steps that carry out instructions can be put before a run. -/
lemma append {a : Nat} (h : ∀ j < a, m.Executes j) (hr : RunRule (m.after a) n r m') :
    RunRule m (a + n) (r.map (Outcome.later a)) m' := by
  cases hr with
  | failed hk h' hf =>
    rw [← after_add] at hf
    rw [← after_add, ← Nat.add_assoc]
    exact .failed (Nat.add_lt_add_left hk a) (executes_append h h') hf
  | halted hk h' hh =>
    rw [← after_add] at hh ⊢
    exact .halted (Nat.add_le_add_left hk a) (executes_append h h') hh
  | spent h' hh =>
    rw [← after_add] at hh ⊢
    exact .spent (executes_append h h') hh

/-- A larger budget changes nothing for a run that did not spend its own. -/
lemma mono (h : RunRule m k r m') (hr : r ≠ .ok (.budgetSpent k)) (hk : k ≤ n) :
    RunRule m n r m' := by
  cases h with
  | failed hj h hf => exact .failed (Nat.lt_of_lt_of_le hj hk) h hf
  | halted hj h hh => exact .halted (Nat.le_trans hj hk) h hh
  | spent => exact absurd rfl hr

/-- A machine that stops by itself does not spend its budget. -/
lemma ne_budgetSpent (h : RunRule m k r m') (hm : m.StopsWithin k) :
    r ≠ .ok (.budgetSpent k) := by
  rintro rfl
  cases h with
  | spent h hh =>
    obtain hhalted | ⟨j, hj, hne⟩ := hm
    · cases k with
      | zero =>
        rw [after_zero, hhalted] at hh
        cases hh
      | succ k =>
        obtain ⟨hrun, -⟩ := h 0 k.succ_pos
        rw [after_zero, hhalted] at hrun
        cases hrun
    · -- a step that did not fail and was not followed by another has halted the machine
      obtain ⟨-, s, hs⟩ := h j hj
      have hhalted : (m.after (j + 1)).halted = true := by
        rw [after_succ']
        cases s with
        | continued => exact absurd hs hne
        | halted => exact (m.after j).stepRule.halted_iff.mp hs
      obtain hlt | heq := Nat.lt_or_eq_of_le (Nat.succ_le_of_lt hj)
      · obtain ⟨hrun, -⟩ := h (j + 1) hlt
        rw [hhalted] at hrun
        cases hrun
      · rw [← heq, hhalted] at hh
        cases hh

end RunRule

namespace Machine

variable {m : Machine}

lemma not_executes_of_error {k : Nat} {fault : Fault}
    (h : (m.after k).step.result = .error fault) : ¬ m.Executes k := by
  rintro ⟨-, s, hs⟩
  cases h.symm.trans hs

lemma not_executes_of_halted {k : Nat} (h : (m.after k).halted = true) : ¬ m.Executes k := by
  rintro ⟨hrun, -⟩
  rw [h] at hrun
  cases hrun

/-- The first step that carries out no instruction is the only such one. -/
lemma eq_of_not_executes {j k : Nat} (hj : ∀ i < j, m.Executes i) (hj' : ¬ m.Executes j)
    (hk : ∀ i < k, m.Executes i) (hk' : ¬ m.Executes k) : j = k := by
  obtain hlt | heq | hlt := Nat.lt_trichotomy j k
  · exact absurd (hk j hlt) hj'
  · exact heq
  · exact absurd (hj k hlt) hk'

end Machine

/-- A run can end in one way only. -/
theorem RunRule.unique {m m₁ m₂ : Machine} {n : Nat} {r₁ r₂ : Except Fault Outcome}
    (h₁ : RunRule m n r₁ m₁) (h₂ : RunRule m n r₂ m₂) : r₁ = r₂ ∧ m₁ = m₂ := by
  open Machine in
  cases h₁ with
  | failed hk h hf =>
    have hstop := not_executes_of_error hf
    cases h₂ with
    | failed hk' h' hf' =>
      obtain rfl := eq_of_not_executes h hstop h' (not_executes_of_error hf')
      cases hf.symm.trans hf'
      exact ⟨rfl, rfl⟩
    | halted hk' h' hh' =>
      obtain rfl := eq_of_not_executes h hstop h' (not_executes_of_halted hh')
      rw [step_of_halted hh'] at hf
      cases hf
    | spent h' => exact absurd (h' _ hk) hstop
  | halted hk h hh =>
    have hstop := not_executes_of_halted hh
    cases h₂ with
    | failed hk' h' hf' =>
      obtain rfl := eq_of_not_executes h hstop h' (not_executes_of_error hf')
      rw [step_of_halted hh] at hf'
      cases hf'
    | halted hk' h' hh' =>
      obtain rfl := eq_of_not_executes h hstop h' (not_executes_of_halted hh')
      exact ⟨rfl, rfl⟩
    | spent h' hh' =>
      obtain hlt | rfl := Nat.lt_or_eq_of_le hk
      · exact absurd (h' _ hlt) hstop
      · rw [hh] at hh'
        cases hh'
  | spent h hh =>
    cases h₂ with
    | failed hk' h' hf' => exact absurd (h _ hk') (not_executes_of_error hf')
    | halted hk' h' hh' =>
      obtain hlt | rfl := Nat.lt_or_eq_of_le hk'
      · exact absurd (h _ hlt) (not_executes_of_halted hh')
      · rw [hh] at hh'
        cases hh'
    | spent => exact ⟨rfl, rfl⟩

namespace Machine

/-! ### Runs -/

section Run

variable (m : Machine) (t : Option Level)

lemma runRule_runFrom {start : Nat} (hstart : start ≤ m.cycles) (n : Nat) (log : Array Event) :
    ∃ r, RunRule m n r (runFrom t start n log m).machine ∧
      (runFrom t start n log m).result = r.map (Outcome.later (m.cycles - start)) := by
  have hnone (m : Machine) : ∀ j < 0, m.Executes j := fun j hj => absurd hj j.not_lt_zero
  -- the machine changes along the induction, but the count that the run started at does not
  induction n generalizing m log with
  | zero =>
    cases hh : m.halted with
    | true =>
      simp only [runFrom, finish, hh, if_true]
      exact ⟨.ok (.halted 0), .halted (Nat.le_refl 0) (hnone m) hh, rfl⟩
    | false =>
      simp only [runFrom, finish, hh, Bool.false_eq_true, if_false]
      exact ⟨.ok (.budgetSpent 0), .spent (hnone m) hh, rfl⟩
  | succ n ih =>
    cases hr : m.step.result with
    | error fault =>
      simp only [runFrom, hr]
      exact ⟨.error fault, .failed n.succ_pos (hnone m) hr, rfl⟩
    | ok s =>
      cases hm : m.halted with
      | true =>
        simp only [runFrom, step_of_halted hm]
        exact ⟨.ok (.halted 0), .halted (Nat.zero_le _) (hnone m) hm, rfl⟩
      | false =>
        have hcycles := (hr ▸ m.stepRule).cycles_eq hm
        have hfirst : ∀ j < 1, m.Executes j := by
          rintro _ ⟨⟩
          · exact ⟨hm, s, hr⟩
          · contradiction
        cases s with
        | halted =>
          simp only [runFrom, hr]
          refine ⟨.ok (.halted 1), .halted n.succ_pos hfirst (m.stepRule.halted_iff.mp hr), ?_⟩
          rw [hcycles, Nat.sub_add_comm hstart]
          rfl
        | continued =>
          simp only [runFrom, hr]
          have hstart' : start ≤ m.step.machine.cycles := by
            rw [hcycles]
            exact Nat.le_succ_of_le hstart
          obtain ⟨r, hrule, hresult⟩ := ih m.step.machine hstart'
            (log ++ Event.visible t m.step.events)
          refine ⟨r.map (Outcome.later 1), ?_, ?_⟩
          · rw [Nat.add_comm]
            exact hrule.append hfirst
          · rw [hresult, hcycles, Nat.sub_add_comm hstart]
            cases r with
            | error fault => rfl
            | ok o => exact congrArg Except.ok (o.later_later 1 _).symm

/-- A run ends by a rule. -/
theorem runRule_run (n : Nat) : RunRule m n (m.run t n).result (m.run t n).machine := by
  obtain ⟨r, hrule, hresult⟩ := m.runRule_runFrom t (Nat.le_refl _) n #[]
  have hr : (runFrom t m.cycles n #[] m).result = r := by
    rw [hresult, Nat.sub_self]
    cases r with
    | error fault => rfl
    | ok o => exact congrArg Except.ok o.later_zero
  rw [run, hr]
  exact hrule

/-- Number of steps that a run makes, those included that come to nothing. -/
def stepsMade (m : Machine) (n : Nat) : Nat :=
  match n with
  | 0     => 0
  | n + 1 =>
    match m.step.result with
    | .ok .continued => m.step.machine.stepsMade n + 1
    | _              => 1

lemma stepsMade_pos (n : Nat) : 0 < m.stepsMade (n + 1) := by
  rw [stepsMade]
  split
  · exact Nat.succ_pos _
  · exact Nat.one_pos

lemma stepsMade_le (n : Nat) : m.stepsMade n ≤ n := by
  induction n generalizing m with
  | zero => exact Nat.le_refl 0
  | succ n ih =>
    rw [stepsMade]
    split
    · exact Nat.succ_le_succ (ih _)
    · exact n.succ_pos

/-- A run leaves the machine as its steps do. -/
theorem machine_run (n : Nat) : (m.run t n).machine = m.after (m.stepsMade n) := by
  rw [run]
  generalize m.cycles = start
  generalize (#[] : Array Event) = log
  induction n generalizing m log with
  | zero =>
    simp only [runFrom, finish, stepsMade, after_zero]
    split <;> rfl
  | succ n ih =>
    rcases hr : m.step.result with fault | ⟨_ | _⟩
    · simp only [runFrom, stepsMade, hr, after_succ, after_zero]
    · simp only [runFrom, stepsMade, hr, after_succ]
      exact ih _ _
    · simp only [runFrom, stepsMade, hr, after_succ, after_zero]

/-- Run with one budget and, if no step failed, go on with another. -/
def runInTwo (a b : Nat) : Except Fault Outcome × Machine :=
  let first := m.run t a
  match first.result with
  | .error fault => (.error fault, first.machine)
  | .ok o        =>
    let second := first.machine.run t b
    (second.result.map (Outcome.later o.steps), second.machine)

end Run

variable {m m' : Machine} {t : Option Level} {n : Nat} {r : Except Fault Outcome}

theorem runRule_iff : RunRule m n r m' ↔ (m.run t n).result = r ∧ (m.run t n).machine = m' := by
  constructor
  · exact (m.runRule_run t n).unique
  · rintro ⟨rfl, rfl⟩
    exact m.runRule_run t n

/-- Budgets add up. -/
theorem run_add (m : Machine) (t : Option Level) (a b : Nat) :
    ((m.run t (a + b)).result, (m.run t (a + b)).machine) = m.runInTwo t a b := by
  have hrule : RunRule m (a + b) (m.runInTwo t a b).1 (m.runInTwo t a b).2 := by
    have hfirst := m.runRule_run t a
    generalize hr : (m.run t a).result = r at hfirst
    generalize hm : (m.run t a).machine = m' at hfirst
    simp only [runInTwo, hr, hm]
    cases hfirst with
    | failed hk h hf => exact .failed (Nat.lt_add_right b hk) h hf
    | halted hk h hh =>
      obtain ⟨hresult, hmachine⟩ := run_of_halted hh t b
      simp only [hresult, hmachine]
      exact .halted (Nat.le_add_right_of_le hk) h hh
    | spent h hh => exact (runRule_run _ t b).append h
  obtain ⟨hresult, hmachine⟩ := runRule_iff.mp hrule
  exact Prod.ext hresult hmachine

/-- A budget that is larger than what the machine needs to stop makes no difference. -/
theorem run_of_stopsWithin {k : Nat} (hm : m.StopsWithin k) (hk : k ≤ n) :
    (m.run t n).result = (m.run t k).result ∧ (m.run t n).machine = (m.run t k).machine :=
  have hrule := m.runRule_run t k
  runRule_iff.mp (hrule.mono (hrule.ne_budgetSpent hm) hk)

/-- Machines whose steps come to the same make the same run. -/
theorem run_of_after (hresult : ∀ k, (m.after k).step.result = (m'.after k).step.result)
    (hhalted : ∀ k, (m.after k).halted = (m'.after k).halted) (t t' : Option Level) (n : Nat) :
    (m.run t n).result = (m'.run t' n).result ∧
      ∃ k, (m.run t n).machine = m.after k ∧ (m'.run t' n).machine = m'.after k := by
  have hexecutes {k : Nat} (h : ∀ j < k, m.Executes j) : ∀ j < k, m'.Executes j := by
    intro j hj
    rw [Executes, ← hhalted, ← hresult]
    exact h j hj
  have hrule := m.runRule_run t n
  generalize (m.run t n).result = r, (m.run t n).machine = m₁ at hrule ⊢
  cases hrule with
  | @failed k _ hk h hf =>
    rw [hresult] at hf
    obtain ⟨hr, hm⟩ := runRule_iff.mp (.failed hk (hexecutes h) hf)
    exact ⟨hr.symm, k + 1, rfl, hm⟩
  | @halted k hk h hh =>
    rw [hhalted] at hh
    obtain ⟨hr, hm⟩ := runRule_iff.mp (.halted hk (hexecutes h) hh)
    exact ⟨hr.symm, k, rfl, hm⟩
  | spent h hh =>
    rw [hhalted] at hh
    obtain ⟨hr, hm⟩ := runRule_iff.mp (.spent (hexecutes h) hh)
    exact ⟨hr.symm, n, rfl, hm⟩

/-! ### What is seen of a run -/

lemma exists_output_after (m : Machine) (k : Nat) :
    ∃ text, (m.after k).console.output = m.console.output ++ text := by
  induction k generalizing m with
  | zero => exact ⟨"", String.append_empty.symm⟩
  | succ k ih =>
    obtain ⟨text, htext⟩ := m.stepRule.exists_output
    obtain ⟨text', htext'⟩ := ih m.step.machine
    refine ⟨text ++ text', ?_⟩
    rw [after_succ, htext', htext, String.append_assoc]

/-- What a run has written, it has written also with a larger budget. -/
theorem exists_output_run (m : Machine) (t : Option Level) (a b : Nat) :
    ∃ text, (m.run t (a + b)).machine.console.output =
      (m.run t a).machine.console.output ++ text := by
  have hmachine := congrArg Prod.snd (m.run_add t a b)
  simp only [runInTwo] at hmachine
  rw [hmachine]
  cases (m.run t a).result with
  | error fault => exact ⟨"", String.append_empty.symm⟩
  | ok o =>
    simp only [machine_run]
    exact exists_output_after _ _

/-- A run that fails has come to the first step that does. The machine is as this step leaves it,
and so it is kept as it was after the steps before, but for what the step has exchanged. -/
theorem exists_of_run_error {fault : Fault} (h : (m.run t n).result = .error fault) :
    ∃ k < n, (∀ j < k, m.Executes j) ∧ (m.after k).step.result = .error fault ∧
      (m.run t n).machine = (m.after k).step.machine ∧ (m.after k).Kept (m.run t n).machine := by
  have hrule := m.runRule_run t n
  rw [h] at hrule
  generalize (m.run t n).machine = m' at hrule
  cases hrule with
  | @failed k _ hk h hf =>
    have hstep := (m.after k).stepRule
    rw [hf] at hstep
    rw [after_succ']
    exact ⟨k, hk, h, hf, rfl, hstep.kept⟩

lemma cycles_after_le (m : Machine) (k : Nat) : (m.after k).cycles ≤ m.cycles + k := by
  induction k with
  | zero => exact Nat.le_refl _
  | succ k ih =>
    rw [after_succ']
    exact Nat.le_trans (m.after k).stepRule.cycles_le.2 (Nat.succ_le_succ ih)

lemma cycles_after {k : Nat} (h : ∀ j < k, m.Executes j) : (m.after k).cycles = m.cycles + k := by
  induction k with
  | zero => rfl
  | succ k ih =>
    obtain ⟨hrun, s, hs⟩ := h k (Nat.lt_succ_self k)
    have hrule := (m.after k).stepRule
    rw [hs] at hrule
    rw [after_succ', hrule.cycles_eq hrun, ih fun j hj => h j (Nat.lt_succ_of_lt hj),
      Nat.add_assoc]

/-- A run that does not fail counts the instructions it has carried out, and says whether the
machine has halted. -/
theorem outcome_of_run {o : Outcome} (h : (m.run t n).result = .ok o) :
    o.steps ≤ n ∧ (∀ j < o.steps, m.Executes j) ∧ (m.run t n).machine = m.after o.steps ∧
      (m.run t n).machine.cycles = m.cycles + o.steps ∧
      (o = .halted o.steps ↔ (m.run t n).machine.halted = true) := by
  have hrule := m.runRule_run t n
  rw [h] at hrule
  generalize (m.run t n).machine = m' at hrule
  cases hrule with
  | halted hk hsteps hh => exact ⟨hk, hsteps, rfl, cycles_after hsteps, iff_of_true rfl hh⟩
  | spent hsteps hh =>
    refine ⟨Nat.le_refl n, hsteps, rfl, cycles_after hsteps, iff_of_false (by nofun) ?_⟩
    exact Bool.eq_false_iff.mp hh

/-- A run is what its steps are, made one by one until the machine has halted, a step fails or the
budget is spent. It counts the instructions carried out. Budgets add up, a larger one changes
nothing for a machine that stops by itself, and what is written stays written. -/
theorem run_is_stepping (m : Machine) (t : Option Level) :
    (∀ n r m', RunRule m n r m' ↔ (m.run t n).result = r ∧ (m.run t n).machine = m') ∧
    (∀ n fault, (m.run t n).result = .error fault →
      ∃ k < n, (∀ j < k, m.Executes j) ∧ (m.after k).step.result = .error fault ∧
        (m.run t n).machine = (m.after k).step.machine ∧ (m.after k).Kept (m.run t n).machine) ∧
    (∀ n o, (m.run t n).result = .ok o →
      o.steps ≤ n ∧ (∀ j < o.steps, m.Executes j) ∧ (m.run t n).machine = m.after o.steps ∧
        (m.run t n).machine.cycles = m.cycles + o.steps ∧
        (o = .halted o.steps ↔ (m.run t n).machine.halted = true)) ∧
    (∀ a b, ((m.run t (a + b)).result, (m.run t (a + b)).machine) = m.runInTwo t a b) ∧
    (∀ k n, m.StopsWithin k → k ≤ n →
      (m.run t n).result = (m.run t k).result ∧ (m.run t n).machine = (m.run t k).machine) ∧
    ∀ a b, ∃ text, (m.run t (a + b)).machine.console.output =
      (m.run t a).machine.console.output ++ text := by
  refine ⟨?_, ?_, ?_, ?_, ?_, ?_⟩
  · exact fun n r m' => runRule_iff
  · exact fun n fault h => exists_of_run_error h
  · exact fun n o h => outcome_of_run h
  · exact m.run_add t
  · exact fun k n hm hk => run_of_stopsWithin hm hk
  · exact m.exists_output_run t

/-- With a character to read, two steps are enough. Without one, the first step fails. -/
theorem run_is_stepping_reader :
    let m := reader.queueInput ['h']
    (m.run none 2).result = .ok (.halted 2) ∧ (m.run none 2).machine.cycles = 2 ∧
      m.StopsWithin 2 ∧ (m.run none 9).machine = (m.run none 2).machine ∧
      (reader.run none 9).result = .error .endOfInput ∧
      ∃ k < 9, (reader.after k).Kept (reader.run none 9).machine := by
  intro m
  obtain ⟨-, -, hok, -, hlarge, -⟩ := run_is_stepping m none
  have hresult : (m.run none 2).result = .ok (.halted 2) := rfl
  have hstops : m.StopsWithin 2 := .inr ⟨1, Nat.lt_succ_self 1, by nofun⟩
  have hcycles : (m.run none 2).machine.cycles = 2 := (hok 2 _ hresult).2.2.2.1
  have hmachine := (hlarge 2 9 hstops (by decide)).2
  obtain ⟨-, herror, -⟩ := run_is_stepping reader none
  obtain ⟨k, hk, -, -, -, hkept⟩ := herror 9 .endOfInput rfl
  exact ⟨hresult, hcycles, hstops, hmachine, rfl, k, hk, hkept⟩

end Machine

end WordMachine
