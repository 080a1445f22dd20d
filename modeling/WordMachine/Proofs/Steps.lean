import WordMachine.Proofs.Cycle

/-!
# Steps one after the other

A machine can be stepped on after a step that failed. `after` is the machine after a number of
steps, whatever came of them, and `gather` puts together what is seen of each step.
-/

namespace WordMachine.Machine

/-- The machine after a number of steps. -/
def after (m : Machine) (n : Nat) : Machine :=
  match n with
  | 0     => m
  | n + 1 => m.step.machine.after n

/-- What is seen of each of a number of steps, by looking at the machine before the step, at its
result, and at the machine after it. -/
def gather {α : Type} (look : Machine → Except Fault Step → Machine → List α) (m : Machine)
    (n : Nat) : List α :=
  match n with
  | 0     => []
  | n + 1 => look m m.step.result m.step.machine ++ m.step.machine.gather look n

/-- The results of a number of steps. -/
def results (m : Machine) (n : Nat) : List (Except Fault Step) := m.gather (fun _ r _ => [r]) n

section Equations

variable {α : Type} (look : Machine → Except Fault Step → Machine → List α) (m : Machine) (n : Nat)

@[simp] lemma after_zero : m.after 0 = m := rfl

@[simp] lemma after_succ : m.after (n + 1) = m.step.machine.after n := rfl

@[simp] lemma gather_zero : m.gather look 0 = [] := rfl

@[simp] lemma gather_succ :
    m.gather look (n + 1) = look m m.step.result m.step.machine ++ m.step.machine.gather look n :=
  rfl

@[simp] lemma results_zero : m.results 0 = [] := rfl

@[simp] lemma results_succ :
    m.results (n + 1) = m.step.result :: m.step.machine.results n := rfl

end Equations

/-- A last step can be split off. -/
lemma after_succ' (m : Machine) (n : Nat) : m.after (n + 1) = (m.after n).step.machine := by
  induction n generalizing m with
  | zero => rfl
  | succ n ih =>
    rw [after_succ, ih m.step.machine, after_succ]

lemma after_add (m : Machine) (a b : Nat) : m.after (a + b) = (m.after a).after b := by
  induction a generalizing m with
  | zero => rw [Nat.zero_add, after_zero]
  | succ a ih => rw [Nat.succ_add, after_succ, ih m.step.machine, after_succ]

/-- What is seen of some steps and of those after them, is seen of all of them. -/
lemma gather_add {α : Type} (look : Machine → Except Fault Step → Machine → List α) (m : Machine)
    (a b : Nat) : m.gather look (a + b) = m.gather look a ++ (m.after a).gather look b := by
  induction a generalizing m with
  | zero => rw [Nat.zero_add, gather_zero, after_zero, List.nil_append]
  | succ a ih => rw [Nat.succ_add, gather_succ, ih m.step.machine, gather_succ, List.append_assoc,
      after_succ]

lemma results_add (m : Machine) (a b : Nat) :
    m.results (a + b) = m.results a ++ (m.after a).results b :=
  m.gather_add _ a b

/-- What a step hands on, a run hands on: if each step splits off the front of what is left, then
so does a number of steps. -/
theorem gather_append {α : Type} (left : Machine → List α)
    {look : Machine → Except Fault Step → Machine → List α}
    (h : ∀ m, look m m.step.result m.step.machine ++ left m.step.machine = left m) (m : Machine)
    (n : Nat) : m.gather look n ++ left (m.after n) = left m := by
  -- the first step is taken off, so the machine changes along the induction
  induction n generalizing m with
  | zero => rfl
  | succ n ih =>
    rw [gather_succ, after_succ, List.append_assoc, ih m.step.machine]
    exact h m

end WordMachine.Machine
