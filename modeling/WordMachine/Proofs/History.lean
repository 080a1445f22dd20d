import WordMachine.Proofs.Operations

/-!
# What a machine shows of its history

The output, the count of cycles and the halt of a machine tell what instructions it has carried out:
whatever its owner did with it, they agree with the list of these instructions. A machine that has
halted does nothing any more.
-/

namespace WordMachine

/-- An instruction that was carried out, with the core before. -/
structure Executed where
  core : Core
  instruction : Instruction

/-- The character that the instruction wrote, if it wrote one. -/
def Executed.written (e : Executed) : List Char :=
  match e.instruction with
  | .out v => (e.core.value v).char?.toList
  | _      => []

namespace Machine

/-- The instruction that a step has carried out, if it did not fail. -/
def executed (m : Machine) (result : Except Fault Step) (_ : Machine) : List Executed :=
  match m.halted, m.core.fetch, result with
  | false, .ok i, .ok _ => [⟨m.core, i⟩]
  | _, _, _             => []

/-- The instructions that were carried out in the course of some operations. -/
def history (m : Machine) (ops : List Operation) : List Executed :=
  match ops with
  | []        => []
  | op :: ops => m.gather executed (m.stepsOf op) ++ (m.operate op).history ops

/-- The instructions account for what was written and counted between two states of a machine, and
for whether it has halted since. -/
structure Accounts (m m' : Machine) (es : List Executed) : Prop where
  output : m'.console.output = m.console.output ++ .ofList (es.flatMap Executed.written)
  cycles : m'.cycles = m.cycles + es.length
  halted : m'.halted = true ↔ m.halted = true ∨ ∃ e ∈ es, e.instruction = .halt

namespace Accounts

variable {m m' m'' : Machine} {es es' : List Executed}

lemma refl (m : Machine) : Accounts m m [] :=
  ⟨String.append_empty.symm, rfl, by simp⟩

lemma trans (h : Accounts m m' es) (h' : Accounts m' m'' es') : Accounts m m'' (es ++ es') := by
  constructor
  · rw [h'.output, h.output, List.flatMap_append, String.ofList_append, String.append_assoc]
  · rw [h'.cycles, h.cycles, List.length_append, Nat.add_assoc]
  · rw [h'.halted, h.halted, or_assoc]
    simp only [List.mem_append, or_and_right, exists_or]

end Accounts

/-! ### Steps -/

variable {m m' : Machine} {r : Except Fault Step}

lemma executed_of_error {fault : Fault} : m.executed (.error fault) m' = [] := by
  unfold executed
  split
  · contradiction
  · rfl

lemma executed_of_halted (h : m.halted = true) : m.executed r m' = [] := by
  unfold executed
  rw [h]

lemma exists_executed {next : Word} {action : Action} (h : m.halted = false)
    (hp : m.core.plan = .ok (next, action)) (s : Step) :
    ∃ i, ActRule m.core i action ∧ m.executed (.ok s) m' = [⟨m.core, i⟩] := by
  obtain ⟨i, hf, ha, -⟩ := Core.plan_eq_ok_iff.mp hp
  refine ⟨i, .of_act ha, ?_⟩
  simp only [executed, h, hf]

end Machine

/-- The character that is written by an action. -/
def Action.written : Action → List Char
  | .print c => [c]
  | _        => []

lemma ActRule.written_eq {c : Core} {i : Instruction} {action : Action} (h : ActRule c i action) :
    Executed.written ⟨c, i⟩ = action.written := by
  cases h with
  | out h => simp [Executed.written, Action.written, h]
  | _ => rfl

lemma ActRule.halt_iff {c : Core} {i : Instruction} {action : Action} (h : ActRule c i action) :
    i = .halt ↔ action = .halt := by
  cases h <;> simp

namespace Machine.Accounts

variable {m m' : Machine} {next : Word} {action : Action}

/-- An instruction that was carried out accounts for its action. -/
lemma of_plan (h : m.halted = false) (hp : m.core.plan = .ok (next, action)) (s : Step)
    (houtput : m'.console.output = m.console.output ++ .ofList action.written)
    (hcycles : m'.cycles = m.cycles + 1) (hhalted : m'.halted = true ↔ action = .halt) :
    Accounts m m' (m.executed (.ok s) m') := by
  obtain ⟨i, hi, hes⟩ := exists_executed h hp s
  rw [hes]
  constructor
  · rw [List.flatMap_singleton, hi.written_eq, houtput]
  · exact hcycles
  · simp [hhalted, h, hi.halt_iff]

/-- Nothing has to be accounted for where nothing was carried out. -/
lemma of_keptOutside (h : m.KeptOutside m') : Accounts m m' [] :=
  ⟨h.output.trans String.append_empty.symm, h.cycles, by simp [h.halted]⟩

lemma of_error {fault : Fault} (h : StepRule m (.error fault) m') :
    Accounts m m' (m.executed (.error fault) m') := by
  rw [executed_of_error]
  exact of_keptOutside ⟨h.kept.output, h.kept.cycles, h.kept.halted⟩

end Machine.Accounts

open Machine

/-- A step is accounted for by the instruction that it has carried out. -/
theorem StepRule.accounts {m m' : Machine} {r : Except Fault Step} (h : StepRule m r m') :
    Accounts m m' (m.executed r m') := by
  cases h with
  | stopped h =>
    rw [executed_of_halted h]
    exact .refl m
  | refused h hp => exact .of_error (.refused h hp)
  | halt h hp => exact .of_plan h hp .halted String.append_empty.symm rfl (by simp)
  | update h hp => exact .of_plan h hp .continued String.append_empty.symm rfl (by simp [h])
  | printed h hp hc =>
    refine .of_plan h hp .continued ?_ rfl (by simp [h])
    rw [Console.output_of_put_ok hc, String.push_eq_append]
    rfl
  | unprinted h hp hc => exact .of_error (.unprinted h hp hc)
  | read h hp hc hw =>
    have houtput := m.console.output_peek.trans String.append_empty.symm
    exact .of_plan h hp .continued houtput rfl (by simp [h])
  | unread h hp hc => exact .of_error (.unread h hp hc)
  | rejected h hp hc hw => exact .of_error (.rejected h hp hc hw)

namespace Machine

/-! ### Operations -/

/-- What a step comes to, and a change from outside, operations come to one after the other: `R` says
how the machine has changed while the instructions were carried out. -/
theorem operateAll_induction {R : Machine → Machine → List Executed → Prop}
    (refl : ∀ m, R m m [])
    (trans : ∀ {m m' m'' es es'}, R m m' es → R m' m'' es' → R m m'' (es ++ es'))
    (step : ∀ m, R m m.step.machine (m.executed m.step.result m.step.machine))
    {ops : List Operation}
    (outside : ∀ op ∈ ops, op.isOutside = true → ∀ m, R m (m.operate op) []) (m : Machine) :
    R m (m.operateAll ops) (m.history ops) := by
  have hafter (m : Machine) (n : Nat) : R m (m.after n) (m.gather executed n) := by
    induction n generalizing m with
    | zero => exact refl m
    | succ n ih => exact trans (step m) (ih m.step.machine)
  induction ops generalizing m with
  | nil => exact refl m
  | cons op ops ih =>
    obtain ⟨hop, hops⟩ := List.forall_mem_cons.mp outside
    rw [operateAll_cons]
    refine trans ?_ (ih hops (m.operate op))
    cases h : op.isOutside with
    | false =>
      rw [operate_of_inside h]
      exact hafter m _
    | true =>
      rw [stepsOf_of_outside h]
      exact hop h m

theorem accounts_operateAll (m : Machine) (ops : List Operation) :
    Accounts m (m.operateAll ops) (m.history ops) := by
  refine operateAll_induction .refl .trans (fun m => m.stepRule.accounts) ?_ m
  exact fun op _ hop m => .of_keptOutside (keptOutside_operate hop)

/-- What a machine does once it has halted: nothing. -/
structure Idle (m : Machine) : Prop where
  step : m.step.result = .ok .halted ∧ m.step.machine = m
  run : ∀ t n, (m.run t n).result = .ok (.halted 0) ∧ (m.run t n).machine = m

lemma idle_of_halted {m : Machine} (h : m.halted = true) : m.Idle := by
  constructor
  · rw [step_of_halted h]
    exact ⟨rfl, rfl⟩
  · exact run_of_halted h

/-- Whatever is done with a machine from its first state on, its output is what the instructions
carried out have written, its count of cycles is their number, and it has halted exactly if a `halt`
is among them. From then on it does nothing, whatever is changed from outside. -/
theorem history_of_load {program : List Word} {m : Machine} (h : load program = .ok m)
    (ops : List Operation) :
    (m.operateAll ops).console.output = .ofList ((m.history ops).flatMap Executed.written) ∧
    (m.operateAll ops).cycles = (m.history ops).length ∧
    ((m.operateAll ops).halted = true ↔ ∃ e ∈ m.history ops, e.instruction = .halt) ∧
    ((m.operateAll ops).halted = true → ∀ ops', ((m.operateAll ops).operateAll ops').Idle) ∧
    ∀ op, op.isOutside = true → (m.operateAll ops).KeptOutside ((m.operateAll ops).operate op) := by
  have haccounts := m.accounts_operateAll ops
  obtain ⟨-, rfl⟩ := load_eq_ok_iff.mp h
  refine ⟨?_, ?_, ?_, ?_, ?_⟩
  · rw [haccounts.output, String.empty_append]
  · rw [haccounts.cycles, Nat.zero_add]
  · simp [haccounts.halted]
  · intro hhalted ops'
    exact idle_of_halted ((accounts_operateAll _ ops').halted.mpr (.inl hhalted))
  · exact fun op hop => keptOutside_operate hop

/-- Going back to the start does not wake the machine. -/
theorem history_of_load_printer :
    let m := printer.operateAll [.step, .run none 9]
    let restart := Operation.edit fun c => c.goto 0
    load [19, 65] = .ok printer ∧ m.console.output = "A" ∧ m.halted = true ∧
      (m.operateAll [restart, .queueInput ['B']]).Idle ∧
      restart.isOutside = true ∧ m.KeptOutside (m.operate restart) := by
  intro m restart
  obtain ⟨houtput, -, -, hidle, houtside⟩ :=
    history_of_load load_printer [.step, .run none 9]
  have hhalted : m.halted = true := rfl
  exact ⟨load_printer, houtput, hhalted, hidle hhalted _, rfl, houtside restart rfl⟩

end Machine

end WordMachine
