import Mathlib.Data.List.Infix
import WordMachine.Proofs.Update

/-!
# Calls and their returns

A call puts the address behind it on the stack. As long as the stack stays deeper than it was before
the call, this entry and all those below it are left alone, whatever else the machine does. So a `ret`
that finds the entry on top goes back behind the call, and leaves the stack as the call found it. Only
a call in the last two cells has nothing behind it to go back to.
-/

namespace WordMachine

/-! ### Entries that are left alone -/

/-- A stack is told by its lower entries and its depth, if there is only one more entry. -/
lemma Stack.eq_push {s t : Stack} {w : Word} (h : s.toList ++ [w] <+: t.toList)
    (hdepth : t.depth = s.depth + 1) : t = s.push w := by
  apply Stack.ext
  rw [toList_push]
  refine (h.eq_of_length ?_).symm
  rw [List.length_append, length_toList, length_toList, hdepth, List.length_singleton]

/-- The lower entries of a stack stay where they are, unless the stack gets less deep than they
are. -/
lemma Update.prefix_onStack {u : Update} {next : Word} {s : Stack} {entries : List Word}
    (h : entries <+: s.toList) (hdeep : entries.length ≤ (u.onStack next s).depth) :
    entries <+: (u.onStack next s).toList := by
  cases u with
  | pass | store | jump => exact h
  | push | call =>
    rw [onStack, Stack.toList_push]
    exact h.trans (List.prefix_append _ _)
  | pop | ret =>
    rw [onStack, ← Stack.length_toList, Stack.toList_pop] at hdeep
    rw [onStack, Stack.toList_pop]
    exact List.prefix_of_prefix_length_le h (List.dropLast_prefix _) hdeep

namespace Machine

variable {m : Machine} {entries : List Word}

lemma prefix_step (h : entries <+: m.core.stack.toList)
    (hdeep : entries.length ≤ m.step.machine.core.stack.depth) :
    entries <+: m.step.machine.core.stack.toList := by
  rw [core_step] at hdeep ⊢
  cases hu : m.update? with
  | none => exact h
  | some p =>
    rw [hu] at hdeep
    simp only [Core.applyIf, Core.stack_apply] at hdeep ⊢
    exact Update.prefix_onStack h hdeep

/-- Whatever a number of steps comes to, the lower entries of the stack are left alone. -/
theorem prefix_after (h : entries <+: m.core.stack.toList) {n : Nat}
    (hdeep : ∀ j ≤ n, entries.length ≤ (m.after j).core.stack.depth) :
    entries <+: (m.after n).core.stack.toList := by
  induction n with
  | zero => exact h
  | succ n ih =>
    have hbefore := ih fun j hj => hdeep j (Nat.le_succ_of_le hj)
    have hlast := hdeep (n + 1) (Nat.le_refl _)
    rw [after_succ'] at hlast ⊢
    exact prefix_step hbefore hlast

/-! ### Calls -/

lemma Decodes.stack_of_call {v : Value} (h : m.Decodes (.call v)) {s : Step}
    (hok : m.step.result = .ok s) :
    m.step.machine.core.stack = m.core.stack.push (m.core.pc + 2) := by
  obtain ⟨action, ha⟩ := h.exists_act hok
  rw [core_step, update?_of_plan h.1 (h.plan_of_act ha)]
  cases ActRule.of_act ha
  rfl

/-- The entries that a call found, with the return address on them, are left alone as long as the
stack stays deeper than it was before. -/
lemma Decodes.prefix_of_call {v : Value} (hcall : m.Decodes (.call v)) {s : Step}
    (hok : m.step.result = .ok s) {n : Nat}
    (hdeep : ∀ j ≤ n, m.core.stack.depth < (m.after (j + 1)).core.stack.depth) :
    m.core.stack.toList ++ [m.core.pc + 2] <+: (m.after (n + 1)).core.stack.toList := by
  rw [after_succ]
  apply prefix_after
  · rw [hcall.stack_of_call hok, Stack.toList_push]
  · intro j hj
    rw [List.length_append, Stack.length_toList, List.length_singleton]
    exact hdeep j hj

/-! ### Returns -/

section Return

variable {w : Word}

lemma act_ret (htop : m.core.top = .ok w) :
    m.core.act .ret = (Core.addressOf w).map fun a => .update (.ret a) := by
  simp only [Core.act, htop, ok_bind]
  cases Core.addressOf w <;> rfl

/-- A return takes the word on top of the stack away and goes on there. -/
lemma Decodes.step_of_ret (h : m.Decodes .ret) (htop : m.core.top = .ok w)
    (hw : w.toNat < memorySize) :
    m.step.result = .ok .continued ∧ m.step.machine.core = m.core.pop.goto w := by
  have ha : m.core.act .ret = .ok (.update (.ret ⟨w.toNat, hw⟩)) := by
    rw [act_ret htop, Core.addressOf, Word.address_of_lt hw]
    rfl
  have haddress : Word.ofAddress ⟨w.toNat, hw⟩ = w := UInt16.toNat_inj.mp (Word.toNat_ofAddress _)
  obtain ⟨hresult, hmachine⟩ := step_of_plan h.1 (h.plan_of_act ha)
  refine ⟨hresult, ?_⟩
  rw [hmachine, perform, core_update, Core.apply, haddress]

/-- There is nothing to return to outside the memory. -/
lemma Decodes.step_of_ret_outside (h : m.Decodes .ret) (htop : m.core.top = .ok w)
    (hw : memorySize ≤ w.toNat) :
    m.step.result = .error (.exception (.invalidMemoryAccess (.invalidAddress w))) ∧
      m.step.machine = m := by
  apply step_of_plan_error h.1
  apply h.plan_of_act_error
  rw [act_ret htop, Core.addressOf, Word.address_of_le hw]
  rfl

end Return

/-- From a call on, as long as the stack stays deeper than before it, the entries that the call found
and the return address on them are left alone. A `ret` that finds just these goes back behind the
call, and the stack is as it was before it; behind a call in the last two cells there is no cell, and
the `ret` fails. -/
theorem ret_of_call {v : Value} {s : Step} (hcall : m.Decodes (.call v))
    (hok : m.step.result = .ok s) {n : Nat}
    (hdeep : ∀ j ≤ n, m.core.stack.depth < (m.after (j + 1)).core.stack.depth) :
    m.core.pc.toNat + 2 ≤ memorySize ∧
    (∀ j ≤ n, ∃ above, (m.after (j + 1)).core.stack.toList =
      m.core.stack.toList ++ (m.core.pc + 2) :: above) ∧
    ((m.after (n + 1)).Decodes .ret →
      (m.after (n + 1)).core.stack.depth = m.core.stack.depth + 1 →
      (m.core.pc.toNat + 2 < memorySize →
        (m.after (n + 1)).step.result = .ok .continued ∧
          (m.after (n + 2)).core.pc.toNat = m.core.pc.toNat + 2 ∧
          (m.after (n + 2)).core.stack = m.core.stack) ∧
      (m.core.pc = 32766 →
        (m.after (n + 1)).step.result =
            .error (.exception (.invalidMemoryAccess (.invalidAddress 32768))) ∧
          m.after (n + 2) = m.after (n + 1) ∧
          (m.after (n + 2)).core.stack = m.core.stack.push 32768)) := by
  have hwidth : m.core.pc.toNat + 2 ≤ memorySize := Core.pc_add_width_le hcall.2
  refine ⟨hwidth, ?_, ?_⟩
  · intro j hj
    obtain ⟨above, habove⟩ := hcall.prefix_of_call hok fun i hi => hdeep i (Nat.le_trans hi hj)
    refine ⟨above, ?_⟩
    rw [← habove, List.append_assoc]
    rfl
  · intro hret hdepth
    -- nothing is above the return address
    have hstack : (m.after (n + 1)).core.stack = m.core.stack.push (m.core.pc + 2) :=
      Stack.eq_push (hcall.prefix_of_call hok hdeep) hdepth
    have htop : (m.after (n + 1)).core.top = .ok (m.core.pc + 2) := by
      simp only [Core.top, hstack, Stack.top?_push]
    have hnext : (m.core.pc + 2).toNat = m.core.pc.toNat + 2 :=
      Word.toNat_add_ofNat (Nat.lt_of_lt_of_le (Nat.lt_add_of_pos_right Nat.two_pos) hwidth)
        (by decide)
    have hafter : m.after (n + 2) = (m.after (n + 1)).step.machine := m.after_succ' (n + 1)
    refine ⟨?_, ?_⟩
    · intro hlt
      obtain ⟨hresult, hcore⟩ := hret.step_of_ret htop (hnext ▸ hlt)
      rw [hafter, hcore]
      refine ⟨hresult, hnext, ?_⟩
      rw [Core.stack_goto, Core.stack_pop, hstack, Stack.pop_push]
    · intro hpc
      have hend : m.core.pc + 2 = 32768 := by
        rw [hpc]
        rfl
      rw [hend] at hstack htop
      obtain ⟨hresult, hmachine⟩ := hret.step_of_ret_outside htop (by decide)
      rw [hafter, hmachine]
      exact ⟨hresult, rfl, hstack⟩

/-- A machine that calls a routine, which pushes a word and pops it again before it returns. -/
def caller : Machine where
  core := { memory := (Memory.zero.setFrom 0 [17, 3, 0, 2, 7, 3, 32768, 18]).2 }

theorem ret_of_call_caller :
    caller.Decodes (.call (.imm 3)) ∧ caller.step.result = .ok .continued ∧
      (∀ j ≤ 2, caller.core.stack.depth < (caller.after (j + 1)).core.stack.depth) ∧
      (caller.after 3).Decodes .ret ∧ (caller.after 3).step.result = .ok .continued ∧
      (caller.after 4).core.pc.toNat = 2 ∧ (caller.after 4).core.stack = .empty := by
  have hcall : caller.Decodes (.call (.imm 3)) := ⟨rfl, rfl⟩
  have hdeep : ∀ j ≤ 2, caller.core.stack.depth < (caller.after (j + 1)).core.stack.depth := by
    decide +kernel
  have hret : (caller.after 3).Decodes .ret := ⟨rfl, rfl⟩
  obtain ⟨-, -, hreturn⟩ := ret_of_call hcall rfl hdeep
  obtain ⟨hresult, hpc, hstack⟩ := (hreturn hret rfl).1 (by decide)
  exact ⟨hcall, rfl, hdeep, hret, hresult, hpc, hstack⟩

end Machine

end WordMachine
