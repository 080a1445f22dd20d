import WordMachine.Proofs.Update

/-!
# Entries underneath a stack

Instructions look at the top of the stack, and at its depth only to see whether it is full. So a
machine does the same with more entries underneath its stack, as long as there is room for them and
it never finds its own stack empty.
-/

namespace WordMachine

/-! ### Deeper stacks -/

namespace Stack

/-- The stack with more entries underneath. -/
def putUnder (below : List Word) (s : Stack) : Stack := .ofList (below ++ s.toList)

section Equations

variable (s : Stack) (below : List Word) (w : Word)

@[simp] lemma toList_putUnder : (s.putUnder below).toList = below ++ s.toList := toList_ofList _

@[simp] lemma depth_putUnder : (s.putUnder below).depth = below.length + s.depth := by
  rw [← length_toList, toList_putUnder, List.length_append, length_toList]

@[simp] lemma putUnder_nil : s.putUnder [] = s := ext (toList_putUnder s [])

lemma putUnder_push : (s.push w).putUnder below = (s.putUnder below).push w := by
  apply ext
  rw [toList_putUnder, toList_push, toList_push, toList_putUnder, List.append_assoc]

end Equations

variable {s : Stack} {below : List Word} {w : Word}

lemma exists_push (h : s.top? = some w) : ∃ t : Stack, s = t.push w := by
  rw [top?_eq] at h
  obtain ⟨ws, hws⟩ := List.getLast?_eq_some_iff.mp h
  refine ⟨ofList ws, ext ?_⟩
  rw [hws, toList_push, toList_ofList]

lemma putUnder_pop (below : List Word) (h : s.top? = some w) :
    s.pop.putUnder below = (s.putUnder below).pop := by
  obtain ⟨t, rfl⟩ := exists_push h
  rw [pop_push, putUnder_push, pop_push]

lemma top?_putUnder (h : s.top? = some w) : (s.putUnder below).top? = some w := by
  obtain ⟨t, rfl⟩ := exists_push h
  rw [putUnder_push, top?_push]

lemma isFull_putUnder (h : below.length + (s.push w).depth ≤ stackLimit) :
    (s.putUnder below).isFull = false := by
  rw [← length_toList, toList_push, List.length_append, length_toList] at h
  rw [isFull, depth_putUnder]
  exact decide_eq_false (Nat.not_le.mpr h)

/-- Under a full stack there is no room for anything. -/
lemma eq_nil_of_isFull (h : s.isFull = true) (hroom : below.length + s.depth ≤ stackLimit) :
    below = [] := by
  have hfull : stackLimit ≤ s.depth := of_decide_eq_true h
  apply List.eq_nil_of_length_eq_zero
  omega

end Stack

/-! ### One step -/

namespace Core

/-- The core with more entries underneath its stack. -/
def putUnder (below : List Word) (c : Core) : Core :=
  let ⟨registers, memory, stack, pc⟩ := c
  ⟨registers, memory, stack.putUnder below, pc⟩

variable {c : Core} {i : Instruction} {below : List Word} {next w : Word} {u : Update}

lemma putUnder_nil (c : Core) : c.putUnder [] = c := by
  cases c
  rw [putUnder, Stack.putUnder_nil]

lemma value_putUnder (c : Core) (v : Value) : (c.putUnder below).value v = c.value v := rfl

lemma top_putUnder (h : c.top ≠ .error .stackUnderflow) : (c.putUnder below).top = c.top := by
  cases htop : c.stack.top? with
  | none =>
    rw [top, htop] at h
    exact absurd rfl h
  | some w =>
    have habove : (c.putUnder below).stack.top? = some w := Stack.top?_putUnder htop
    rw [top, top, htop, habove]

/-- An instruction comes to the same, if there is room for its entry, and if it does not find the
stack empty. -/
lemma act_putUnder (next : Word) (hroom : below.length + c.stack.depth ≤ stackLimit)
    (hafter : ∀ u, c.act i = .ok (.update u) →
      below.length + (u.onStack next c.stack).depth ≤ stackLimit)
    (hempty : c.act i ≠ .error .stackUnderflow) : (c.putUnder below).act i = c.act i := by
  cases hfull : c.stack.isFull with
  | true =>
    cases Stack.eq_nil_of_isFull hfull hroom
    rw [putUnder_nil]
  | false =>
    cases i with
    | push v =>
      have hact : c.act (.push v) = .ok (.update (.push (c.value v))) := by
        rw [act, hfull]
        rfl
      have hfits : (c.putUnder below).stack.isFull = false := Stack.isFull_putUnder (hafter _ hact)
      rw [hact, act, hfits]
      rfl
    | call v =>
      cases ha : addressOf (c.value v) with
      | error e =>
        rw [act, act, value_putUnder, ha]
        rfl
      | ok a =>
        have hact : c.act (.call v) = .ok (.update (.call a)) := by
          rw [act, ha, hfull]
          rfl
        have hfits : (c.putUnder below).stack.isFull = false := Stack.isFull_putUnder (hafter _ hact)
        rw [hact, act, value_putUnder, ha, hfits]
        rfl
    | pop | ret =>
      have htop : (c.putUnder below).top = c.top := by
        apply top_putUnder
        intro htop
        rw [act, htop] at hempty
        exact hempty rfl
      rw [act, act, htop]
    | _ => rfl

/-- An update that finds an entry on the stack does not notice what is underneath. -/
lemma apply_putUnder {action : Action} {con : Console}
    (hp : c.plan = .ok (next, action)) (hu : action.update? con = some u) :
    (c.putUnder below).apply next u = (c.apply next u).putUnder below := by
  obtain ⟨i, -, ha, -⟩ := plan_eq_ok_iff.mp hp
  cases u with
  | pass | jump => rfl
  | store l w => cases l <;> rfl
  | push w | call a => simp only [apply, putUnder, push, goto, Stack.putUnder_push]
  | pop l w =>
    obtain rfl | ⟨_, _, hu⟩ | ⟨_, _, _, hu⟩ := Action.update?_cases hu
    · cases ActRule.of_act ha with
      | pop hw hl =>
        have hpop := Stack.putUnder_pop below (top?_of_top hw)
        cases l <;> simp only [apply, putUnder, pop, write, goto, hpop]
    · cases hu
    · cases hu
  | ret a =>
    obtain rfl | ⟨_, _, hu⟩ | ⟨_, _, _, hu⟩ := Action.update?_cases hu
    · cases ActRule.of_act ha with
      | ret hw hl =>
        have hpop := Stack.putUnder_pop below (top?_of_top hw)
        simp only [apply, putUnder, pop, goto, hpop]
    · cases hu
    · cases hu

end Core

namespace Machine

/-- The machine with more entries underneath its stack. -/
def putUnder (below : List Word) (m : Machine) : Machine := m.modifyCore (Core.putUnder below)

variable {m : Machine} {below : List Word}

@[simp] lemma toList_putUnder (m : Machine) (below : List Word) :
    (m.putUnder below).core.stack.toList = below ++ m.core.stack.toList :=
  m.core.stack.toList_putUnder below

/-- Nor does what the core wants depend on the entries underneath. -/
lemma plan_putUnder (hh : m.halted = false)
    (hroom : below.length + m.core.stack.depth ≤ stackLimit)
    (hafter : below.length + m.step.machine.core.stack.depth ≤ stackLimit)
    (hempty : m.step.result ≠ .error (.exception .stackUnderflow)) :
    (m.core.putUnder below).plan = m.core.plan := by
  refine Core.plan_congr rfl rfl ?_
  intro i hf
  have hi : m.Decodes i := ⟨hh, hf⟩
  refine Core.act_putUnder (m.core.pc + UInt16.ofNat i.width) hroom ?_ ?_
  · intro u ha
    rw [core_step, update?_of_plan hh (hi.plan_of_act ha)] at hafter
    rw [← Core.stack_apply]
    exact hafter
  · intro ha
    exact hempty (step_of_plan_error hh (hi.plan_of_act_error ha)).1

/-- A step that does not fail for want of an entry is the same with more entries underneath the
stack, if there is room for them before and after it. -/
lemma step_putUnder (hroom : below.length + m.core.stack.depth ≤ stackLimit)
    (hafter : below.length + m.step.machine.core.stack.depth ≤ stackLimit)
    (hempty : m.step.result ≠ .error (.exception .stackUnderflow)) :
    (m.putUnder below).step.result = m.step.result ∧
      (m.putUnder below).step.machine = m.step.machine.putUnder below := by
  refine step_modifyCore (fun hh => plan_putUnder hh hroom hafter hempty) ?_
  cases hu : m.update? with
  | none => rfl
  | some p =>
    obtain ⟨action, hh, hp, hau⟩ := exists_plan_of_update? hu
    exact Core.apply_putUnder hp hau

/-! ### Runs -/

/-- With more entries underneath the stack, a run is the same: each step comes to the same, whether
it succeeds or fails, and the machines are the same but for these entries. There must be room for
them at the greatest depth that the run reaches, and this holds up to the first step that fails
because it finds its own stack empty. -/
theorem run_putUnder (m : Machine) (below : List Word) {n : Nat}
    (hroom : ∀ k ≤ n, below.length + (m.after k).core.stack.depth ≤ stackLimit) {k : Nat}
    (hk : k ≤ n)
    (hempty : ∀ j < k, (m.after j).step.result ≠ .error (.exception .stackUnderflow)) :
    (∀ j < k, ((m.putUnder below).after j).step.result = (m.after j).step.result) ∧
      (m.putUnder below).after k = (m.after k).putUnder below := by
  induction k with
  | zero => exact ⟨nofun, rfl⟩
  | succ k ih =>
    obtain ⟨hresults, hmachine⟩ :=
      ih (Nat.le_of_succ_le hk) fun j hj => hempty j (Nat.lt_succ_of_lt hj)
    have hafter := hroom (k + 1) hk
    rw [after_succ'] at hafter
    obtain ⟨hresult, hnext⟩ := step_putUnder (hroom k (Nat.le_of_succ_le hk)) hafter
      (hempty k (Nat.lt_succ_self k))
    rw [after_succ', after_succ', hmachine]
    refine ⟨?_, hnext⟩
    intro j hj
    obtain hlt | rfl := Nat.lt_succ_iff_lt_or_eq.mp hj
    · exact hresults j hlt
    · rw [hmachine]
      exact hresult

/-- A machine that pushes a word and pops it, and then finds nothing more to pop. -/
def popper : Machine where
  core := { memory := (Memory.zero.setFrom 0 [2, 5, 3, 32768, 3, 32768]).2 }

theorem run_putUnder_popper :
    (∀ k ≤ 3, 2 + (popper.after k).core.stack.depth ≤ stackLimit) ∧
      (∀ j < 2, (popper.after j).step.result ≠ .error (.exception .stackUnderflow)) ∧
      (popper.after 2).step.result = .error (.exception .stackUnderflow) ∧
      ((popper.putUnder [8, 9]).after 2).core.stack.toList = [8, 9] := by
  have hroom : ∀ k ≤ 3, 2 + (popper.after k).core.stack.depth ≤ stackLimit := by decide +kernel
  have hempty : ∀ j < 2, (popper.after j).step.result ≠ .error (.exception .stackUnderflow) := by
    intro j hj
    match j, hj with
    | 0, _ | 1, _ => nofun
  obtain ⟨-, hmachine⟩ := popper.run_putUnder [8, 9] hroom (by decide : 2 ≤ 3) hempty
  refine ⟨hroom, hempty, rfl, ?_⟩
  rw [hmachine, toList_putUnder]
  rfl

end Machine

end WordMachine
