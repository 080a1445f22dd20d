import WordMachine.Proofs.Cycle
import WordMachine.Proofs.Steps

/-!
# The update of a step

Whether a step succeeds, and what it exchanges with the console, depends on the plan of the core and
on nothing else in it. The core itself is changed by one update at most. So a change of the core that
the plan does not notice can as well be made after the step, if it can be made after the update.
-/

namespace WordMachine

/-- The update that an action comes to, with the answers of a console. There is none if the action
halts the machine, or fails. -/
def Action.update? (con : Console) : Action → Option Update
  | .halt     => none
  | .update u => some u
  | .print c  =>
    match (con.put c).1 with
    | .ok ()   => some .pass
    | .error _ => none
  | .read l   =>
    match con.peek.result with
    | .ok c    => (Word.ofChar? c).map (Update.store l)
    | .error _ => none

/-- An update was settled, or it goes with a character that is written or read. -/
lemma Action.update?_cases {con : Console} {action : Action} {u : Update}
    (h : action.update? con = some u) :
    action = .update u ∨ (∃ c, action = .print c ∧ u = .pass) ∨
      ∃ l w, action = .read l ∧ u = .store l w := by
  cases action with
  | halt => cases h
  | update =>
    cases h
    exact .inl rfl
  | print c =>
    simp only [update?] at h
    split at h
    · cases h
      exact .inr (.inl ⟨c, rfl, rfl⟩)
    · cases h
  | read l =>
    simp only [update?] at h
    split at h
    · rw [Option.map_eq_some_iff] at h
      obtain ⟨w, -, rfl⟩ := h
      exact .inr (.inr ⟨l, w, rfl, rfl⟩)
    · cases h

/-- What a core wants depends on its instruction, on what this amounts to, and on `pc`. -/
lemma Core.plan_congr {c c' : Core} (hpc : c'.pc = c.pc) (hfetch : c'.fetch = c.fetch)
    (hact : ∀ i, c.fetch = .ok i → c'.act i = c.act i) : c'.plan = c.plan := by
  rw [plan, plan, hfetch, hpc]
  cases hi : c.fetch with
  | error e => rfl
  | ok i => rw [ok_bind, ok_bind, hact i hi]

/-- The core after an update, if there is one. -/
def Core.applyIf (c : Core) : Option (Word × Update) → Core
  | some (next, u) => c.apply next u
  | none           => c

namespace Machine

/-- The machine is about to carry out an instruction. -/
def Decodes (m : Machine) (i : Instruction) : Prop := m.halted = false ∧ m.core.fetch = .ok i

/-- The update that a step comes to, if any, with the address of the instruction that follows. -/
def update? (m : Machine) : Option (Word × Update) :=
  match m.halted, m.core.plan with
  | false, .ok (next, action) => (action.update? m.console).map (next, ·)
  | _, _                      => none

variable {m : Machine} {next : Word} {action : Action} {u : Update} {i : Instruction}

section Equations

lemma update?_of_halted (h : m.halted = true) : m.update? = none := by
  simp only [update?, h]

lemma update?_of_plan_error {e : Exception} (hp : m.core.plan = .error e) : m.update? = none := by
  cases h : m.halted <;> simp only [update?, h, hp]

lemma update?_of_plan (h : m.halted = false) (hp : m.core.plan = .ok (next, action)) :
    m.update? = (action.update? m.console).map (next, ·) := by
  simp only [update?, h, hp]

end Equations

/-- The plan of an instruction is what it amounts to. -/
lemma Decodes.plan_of_act (h : m.Decodes i) (ha : m.core.act i = .ok action) :
    m.core.plan = .ok (m.core.pc + UInt16.ofNat i.width, action) :=
  Core.plan_eq_ok_iff.mpr ⟨i, h.2, ha, rfl⟩

lemma Decodes.plan_of_act_error (h : m.Decodes i) {e : Exception}
    (ha : m.core.act i = .error e) : m.core.plan = .error e := by
  rw [Core.plan, h.2, ok_bind, ha]
  rfl

lemma Decodes.exists_act (h : m.Decodes i) {s : Step} (hok : m.step.result = .ok s) :
    ∃ action, m.core.act i = .ok action := by
  cases ha : m.core.act i with
  | error e =>
    rw [(step_of_plan_error h.1 (h.plan_of_act_error ha)).1] at hok
    cases hok
  | ok action => exact ⟨action, rfl⟩

lemma exists_plan_of_update? (h : m.update? = some (next, u)) :
    ∃ action, m.halted = false ∧ m.core.plan = .ok (next, action) ∧
      action.update? m.console = some u := by
  cases hh : m.halted with
  | true =>
    rw [update?_of_halted hh] at h
    cases h
  | false =>
    cases hp : m.core.plan with
    | error e =>
      rw [update?_of_plan_error hp] at h
      cases h
    | ok p =>
      obtain ⟨next', action⟩ := p
      rw [update?_of_plan hh hp, Option.map_eq_some_iff] at h
      obtain ⟨u, hu, heq⟩ := h
      cases heq
      exact ⟨action, rfl, rfl, hu⟩

/-! ### What follows from an update -/

/-- An action with an update lets the machine go on. -/
lemma result_perform_of_update? (h : action.update? m.console = some u) :
    (m.perform next action).result = .ok .continued := by
  cases action with
  | halt => cases h
  | update => rfl
  | print c =>
    simp only [perform, print]
    rcases hc : m.console.put c with ⟨_ | ⟨⟩, con⟩
    · simp [Action.update?, hc] at h
    · rfl
  | read l =>
    simp only [perform, read]
    cases hc : m.console.peek.result with
    | error fault => simp [Action.update?, hc] at h
    | ok c =>
      cases hw : Word.ofChar? c with
      | none   => simp [Action.update?, hc, hw] at h
      | some w => simp only [hw]

/-- Any other action that is carried out halts the machine. -/
lemma exists_update?_of_perform {s : Step} (h : (m.perform next action).result = .ok s)
    (hhalt : action ≠ .halt) : ∃ u, action.update? m.console = some u := by
  cases action with
  | halt => exact absurd rfl hhalt
  | update u => exact ⟨u, rfl⟩
  | print c =>
    simp only [perform, print] at h
    rcases hc : m.console.put c with ⟨_ | ⟨⟩, con⟩
    · rw [hc] at h
      cases h
    · exact ⟨.pass, by simp only [Action.update?, hc]⟩
  | read l =>
    simp only [perform, read] at h
    cases hc : m.console.peek.result with
    | error fault =>
      rw [hc] at h
      cases h
    | ok c =>
      cases hw : Word.ofChar? c with
      | none =>
        rw [hc] at h
        simp only [hw] at h
        cases h
      | some w => exact ⟨.store l w, by simp only [Action.update?, hc, hw, Option.map_some]⟩

lemma result_of_update? (h : m.update? = some (next, u)) : m.step.result = .ok .continued := by
  obtain ⟨action, hh, hp, hu⟩ := exists_plan_of_update? h
  rw [(step_of_plan hh hp).1]
  exact result_perform_of_update? hu

/-! ### Other cores -/

/-- What an action does with the console is the same on another core, and so is its update. -/
lemma perform_modifyCore (m : Machine) (f : Core → Core) (next : Word) (action : Action) :
    ((m.modifyCore f).perform next action).result = (m.perform next action).result ∧
      ((m.modifyCore f).perform next action).machine =
        (m.perform next action).machine.modifyCore fun _ =>
          (f m.core).applyIf ((action.update? m.console).map (next, ·)) := by
  cases action with
  | halt | update => exact ⟨rfl, rfl⟩
  | print c =>
    simp only [perform, print, modifyCore, Action.update?]
    rcases m.console.put c with ⟨_ | ⟨⟩, con⟩ <;> exact ⟨rfl, rfl⟩
  | read l =>
    simp only [perform, read, modifyCore, Action.update?]
    cases m.console.peek.result with
    | error fault => exact ⟨rfl, rfl⟩
    | ok c =>
      cases hw : Word.ofChar? c with
      | none   => simp only [hw, Option.map_none, Core.applyIf, and_self]
      | some w => simp only [hw, Option.map_some, Core.applyIf, and_self]

/-- On another core with the same plan, a step comes to the same, and makes the same update. -/
theorem step_otherCore (m : Machine) {f : Core → Core}
    (hplan : m.halted = false → (f m.core).plan = m.core.plan) :
    (m.modifyCore f).step.result = m.step.result ∧
      (m.modifyCore f).step.machine =
        m.step.machine.modifyCore fun _ => (f m.core).applyIf m.update? := by
  cases h : m.halted with
  | true =>
    have h' : (m.modifyCore f).halted = true := h
    rw [step_of_halted h, step_of_halted h', update?_of_halted h]
    exact ⟨rfl, rfl⟩
  | false =>
    have h' : (m.modifyCore f).halted = false := h
    have hplan' : (m.modifyCore f).core.plan = m.core.plan := hplan h
    cases hp : m.core.plan with
    | error e =>
      rw [hp] at hplan'
      obtain ⟨hr, hm⟩ := step_of_plan_error h hp
      obtain ⟨hr', hm'⟩ := step_of_plan_error h' hplan'
      rw [hr, hm, hr', hm', update?_of_plan_error hp]
      exact ⟨rfl, rfl⟩
    | ok p =>
      obtain ⟨next, action⟩ := p
      rw [hp] at hplan'
      obtain ⟨hr, hm⟩ := step_of_plan h hp
      obtain ⟨hr', hm'⟩ := step_of_plan h' hplan'
      rw [hr, hm, hr', hm', update?_of_plan h hp]
      exact m.perform_modifyCore f next action

/-- The core is changed by the update of the step alone. -/
theorem core_step (m : Machine) : m.step.machine.core = m.core.applyIf m.update? :=
  congrArg Machine.core (m.step_otherCore (f := id) fun _ => rfl).2

/-- A change of the core that its plan does not notice can be made after the step, perhaps as another
change. -/
theorem step_modifyCore {f g : Core → Core}
    (hplan : m.halted = false → (f m.core).plan = m.core.plan)
    (hupdate : (f m.core).applyIf m.update? = g (m.core.applyIf m.update?)) :
    (m.modifyCore f).step.result = m.step.result ∧
      (m.modifyCore f).step.machine = m.step.machine.modifyCore g := by
  obtain ⟨hresult, hmachine⟩ := m.step_otherCore hplan
  refine ⟨hresult, ?_⟩
  rw [hmachine, hupdate, ← core_step]
  rfl

end Machine

/-! ### Stacks -/

/-- What an update does to the stack. -/
def Update.onStack (next : Word) : Update → Stack → Stack
  | .push w, s               => s.push w
  | .call _, s               => s.push next
  | .pop _ _, s | .ret _, s  => s.pop
  | .pass, s | .store _ _, s | .jump _, s => s

lemma Core.stack_apply (c : Core) (next : Word) (u : Update) :
    (c.apply next u).stack = u.onStack next c.stack := by
  cases u <;> simp [apply, Update.onStack]

end WordMachine
