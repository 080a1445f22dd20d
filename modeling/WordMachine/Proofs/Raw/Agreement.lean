import WordMachine.Proofs.Raw.Checks

/-!
# The interpreter over raw words agrees with the machine

Each row of the table comes to what the core plans for the opcode of that row, and so a cycle of the
interpreter is a step of the machine.
-/

namespace WordMachine

/-! ### Plans for an opcode -/

/-- What the core wants to happen for an opcode with the words that follow it. -/
def Core.planFor (c : Core) (op : Opcode) (x y z : Word) : Except Exception (Word × Action) := do
  let i ← Instruction.decode op x y z
  let action ← c.act i
  .ok (c.pc + UInt16.ofNat i.width, action)

/-- An operand word of an opcode, which is not looked at if the opcode has no such operand. -/
def Core.operandWord (c : Core) (op : Opcode) (i : Nat) : Except Exception Word :=
  if i ≤ op.arity then c.fetchWord (c.pc + UInt16.ofNat i) else .ok 0

lemma Core.plan_of_opcode {c : Core} {op : Opcode} (h : c.fetchWord c.pc = .ok op.tag) :
    c.plan = (do
      let x ← c.operandWord op 1
      let y ← c.operandWord op 2
      let z ← c.operandWord op 3
      c.planFor op x y z) := by
  simp only [plan, fetch, h, ok_bind, Opcode.decode_tag, bind_assoc, operandWord, planFor]

namespace Raw

open WordMachine.Instruction WordMachine.Core

variable {m : Machine} {op : Opcode}

/-! ### Operand words -/

lemma exec_zero (h : m.core.fetchWord m.core.pc = .ok op.tag) (ha : op.arity = 0) {x : Run Step}
    (hx : Run.exec x m = outcome m (m.core.planFor op 0 0 0)) :
    Run.exec x m = outcome m m.core.plan := by
  simp only [plan_of_opcode h, operandWord, ha, Nat.reduceLeDiff, ↓reduceIte, ok_bind]
  exact hx

lemma exec_one (h : m.core.fetchWord m.core.pc = .ok op.tag) (ha : op.arity = 1)
    {g : Word → Run Step} (hg : ∀ a, Run.exec (g a) m = outcome m (m.core.planFor op a 0 0)) :
    Run.exec (do let a ← cell (m.core.pc.toNat + 1); g a) m = outcome m m.core.plan := by
  have hpc := lt_of_fetchWord h
  simp only [plan_of_opcode h, operandWord, ha, Nat.reduceLeDiff, ↓reduceIte, ok_bind]
  exact (sees_fetchWord hpc (by decide)).bind fun a _ => hg a

lemma exec_two (h : m.core.fetchWord m.core.pc = .ok op.tag) (ha : op.arity = 2)
    {g : Word → Word → Run Step}
    (hg : ∀ a b, Run.exec (g a b) m = outcome m (m.core.planFor op a b 0)) :
    Run.exec (do
      let a ← cell (m.core.pc.toNat + 1)
      let b ← cell (m.core.pc.toNat + 2)
      g a b) m = outcome m m.core.plan := by
  have hpc := lt_of_fetchWord h
  simp only [plan_of_opcode h, operandWord, ha, Nat.reduceLeDiff, ↓reduceIte, ok_bind]
  refine (sees_fetchWord hpc (by decide)).bind fun a _ => ?_
  exact (sees_fetchWord hpc (by decide)).bind fun b _ => hg a b

lemma exec_three (h : m.core.fetchWord m.core.pc = .ok op.tag) (ha : op.arity = 3)
    {g : Word → Word → Word → Run Step}
    (hg : ∀ a b c, Run.exec (g a b c) m = outcome m (m.core.planFor op a b c)) :
    Run.exec (do
      let a ← cell (m.core.pc.toNat + 1)
      let b ← cell (m.core.pc.toNat + 2)
      let c ← cell (m.core.pc.toNat + 3)
      g a b c) m = outcome m m.core.plan := by
  have hpc := lt_of_fetchWord h
  simp only [plan_of_opcode h, operandWord, ha, Nat.reduceLeDiff, ↓reduceIte]
  refine (sees_fetchWord hpc (by decide)).bind fun a _ => ?_
  refine (sees_fetchWord hpc (by decide)).bind fun b _ => ?_
  exact (sees_fetchWord hpc (by decide)).bind fun c _ => hg a b c

/-! ### Rows -/

lemma row_halt (h : m.core.fetchWord m.core.pc = .ok (Opcode.tag .halt)) :
    Run.exec (row m.core.pc.toNat (Opcode.tag .halt)) m = outcome m m.core.plan :=
  exec_zero h rfl rfl

lemma row_set (h : m.core.fetchWord m.core.pc = .ok (Opcode.tag .set)) :
    Run.exec (row m.core.pc.toNat (Opcode.tag .set)) m = outcome m m.core.plan := by
  refine exec_two h rfl fun a b => ?_
  simp only [planFor, Instruction.decode, bind_assoc, pure_bind, act, ok_bind]
  refine (sees_register m a).bind fun dst hdst => ?_
  refine (sees_value m b).bind fun v _ => ?_
  exact exec_store_register_proceed hdst _ 3

lemma row_push (h : m.core.fetchWord m.core.pc = .ok (Opcode.tag .push)) :
    Run.exec (row m.core.pc.toNat (Opcode.tag .push)) m = outcome m m.core.plan := by
  refine exec_one h rfl fun a => ?_
  simp only [planFor, Instruction.decode, bind_assoc, pure_bind, act]
  refine (sees_value m a).bind fun v _ => ?_
  have hp := exec_push m (m.core.value v)
  split at hp
  · next hfull =>
    rw [exec_bind_of_error hp, if_pos hfull]
    rfl
  · next hfull =>
    rw [exec_bind_of_ok hp, if_neg hfull, exec_proceed, ofNat_toNat_add]
    rfl

lemma row_pop (h : m.core.fetchWord m.core.pc = .ok (Opcode.tag .pop)) :
    Run.exec (row m.core.pc.toNat (Opcode.tag .pop)) m = outcome m m.core.plan := by
  refine exec_one h rfl fun a => ?_
  simp only [planFor, Instruction.decode, bind_assoc, pure_bind, act, ok_bind]
  refine (sees_target m a).bind fun dst hdst => ?_
  refine (sees_top m).bind fun w _ => ?_
  obtain ⟨l, hl⟩ := exists_locate hdst
  have hdrop : Run.exec drop m = (.ok ⟨⟩, ⟨m.core.pop, m.console, m.cycles, m.halted⟩) := rfl
  rw [exec_bind_of_ok hdrop, id, exec_bind_of_ok (exec_store hdst hl w), hl, ok_bind, exec_proceed,
    ofNat_toNat_add]
  -- the word is written before the stack is cut, or after it
  cases l <;> rfl

/-- A row that combines two values with an operation that always has a result. -/
lemma exec_binary {op : BinaryOp} {f : Word → Word → Word}
    (h : m.core.fetchWord m.core.pc = .ok (Opcode.tag (.binary op)))
    (hf : ∀ x y, op.eval? x y = some (f x y)) :
    Run.exec (do
      let a ← cell (m.core.pc.toNat + 1)
      let b ← cell (m.core.pc.toNat + 2)
      let c ← cell (m.core.pc.toNat + 3)
      target a
      let x ← value b
      let y ← value c
      store a (f x y)
      proceed (m.core.pc.toNat + 4)) m = outcome m m.core.plan := by
  refine exec_three h rfl fun a b c => ?_
  simp only [planFor, Instruction.decode, bind_assoc, pure_bind, act, hf]
  refine (sees_target m a).bind fun dst hdst => ?_
  refine (sees_value m b).bind fun v _ => ?_
  refine (sees_value m c).bind fun v' _ => ?_
  exact exec_store_proceed hdst _ 4

lemma row_mod (h : m.core.fetchWord m.core.pc = .ok (Opcode.tag (.binary .mod))) :
    Run.exec (row m.core.pc.toNat (Opcode.tag (.binary .mod))) m = outcome m m.core.plan := by
  refine exec_three h rfl fun a b c => ?_
  simp only [planFor, Instruction.decode, bind_assoc, pure_bind, act]
  refine (sees_target m a).bind fun dst hdst => ?_
  refine (sees_value m b).bind fun v _ => ?_
  refine (sees_value m c).bind fun v' _ => ?_
  by_cases hzero : m.core.value v' = 0
  · simp only [BinaryOp.eval?, hzero, ↓reduceIte]
    rfl
  · simp only [BinaryOp.eval?, hzero, ↓reduceIte]
    exact exec_store_proceed hdst _ 4

lemma row_binary (op : BinaryOp)
    (h : m.core.fetchWord m.core.pc = .ok (Opcode.tag (.binary op))) :
    Run.exec (row m.core.pc.toNat (Opcode.tag (.binary op))) m = outcome m m.core.plan := by
  cases op with
  | eq   => exact exec_binary h fun _ _ => rfl
  | gt   => exact exec_binary h fun _ _ => rfl
  | add  => exact exec_binary h fun _ _ => rfl
  | mult => exact exec_binary h fun _ _ => rfl
  | mod  => exact row_mod h
  | and  => exact exec_binary h fun x y => congrArg some (and_and_valueMask x y)
  | or   => exact exec_binary h fun x y => congrArg some (or_and_valueMask x y)

lemma row_jmp (h : m.core.fetchWord m.core.pc = .ok (Opcode.tag .jmp)) :
    Run.exec (row m.core.pc.toNat (Opcode.tag .jmp)) m = outcome m m.core.plan := by
  refine exec_one h rfl fun a => ?_
  simp only [planFor, Instruction.decode, bind_assoc, pure_bind, act]
  refine (sees_value m a).bind fun v _ => ?_
  exact exec_jump m _ _

lemma row_jt (h : m.core.fetchWord m.core.pc = .ok (Opcode.tag .jt)) :
    Run.exec (row m.core.pc.toNat (Opcode.tag .jt)) m = outcome m m.core.plan := by
  refine exec_two h rfl fun a b => ?_
  simp only [planFor, Instruction.decode, bind_assoc, pure_bind, act]
  refine (sees_value m a).bind fun x _ => ?_
  refine (sees_value m b).bind fun v _ => ?_
  by_cases hzero : m.core.value x = 0
  · rw [if_pos hzero, if_neg (not_not_intro hzero), exec_proceed, ofNat_toNat_add]
    rfl
  · rw [if_neg hzero, if_pos hzero]
    exact exec_jump m _ _

lemma row_jf (h : m.core.fetchWord m.core.pc = .ok (Opcode.tag .jf)) :
    Run.exec (row m.core.pc.toNat (Opcode.tag .jf)) m = outcome m m.core.plan := by
  refine exec_two h rfl fun a b => ?_
  simp only [planFor, Instruction.decode, bind_assoc, pure_bind, act]
  refine (sees_value m a).bind fun x _ => ?_
  refine (sees_value m b).bind fun v _ => ?_
  by_cases hzero : m.core.value x = 0
  · rw [if_pos hzero, if_pos hzero]
    exact exec_jump m _ _
  · rw [if_neg hzero, if_neg hzero, exec_proceed, ofNat_toNat_add]
    rfl

lemma row_not (h : m.core.fetchWord m.core.pc = .ok (Opcode.tag .not)) :
    Run.exec (row m.core.pc.toNat (Opcode.tag .not)) m = outcome m m.core.plan := by
  refine exec_two h rfl fun a b => ?_
  simp only [planFor, Instruction.decode, bind_assoc, pure_bind, act, complement_eq]
  refine (sees_target m a).bind fun dst hdst => ?_
  refine (sees_value m b).bind fun v _ => ?_
  exact exec_store_proceed hdst _ 3

lemma row_rmem (h : m.core.fetchWord m.core.pc = .ok (Opcode.tag .rmem)) :
    Run.exec (row m.core.pc.toNat (Opcode.tag .rmem)) m = outcome m m.core.plan := by
  refine exec_two h rfl fun a b => ?_
  simp only [planFor, Instruction.decode, bind_assoc, pure_bind, act]
  refine (sees_target m a).bind fun dst hdst => ?_
  refine (sees_value m b).bind fun v _ => ?_
  refine (sees_cell m (m.core.value v)).bind fun goal _ => ?_
  exact exec_store_proceed hdst _ 3

lemma row_wmem (h : m.core.fetchWord m.core.pc = .ok (Opcode.tag .wmem)) :
    Run.exec (row m.core.pc.toNat (Opcode.tag .wmem)) m = outcome m m.core.plan := by
  refine exec_two h rfl fun a b => ?_
  simp only [planFor, Instruction.decode, bind_assoc, pure_bind, act]
  refine (sees_value m a).bind fun v _ => ?_
  refine (sees_value m b).bind fun x _ => ?_
  refine (sees_address m (m.core.value v)).bind fun goal _ => ?_
  rw [← ofNat_toNat_add]
  rfl

lemma row_call (h : m.core.fetchWord m.core.pc = .ok (Opcode.tag .call)) :
    Run.exec (row m.core.pc.toNat (Opcode.tag .call)) m = outcome m m.core.plan := by
  refine exec_one h rfl fun a => ?_
  simp only [planFor, Instruction.decode, bind_assoc, pure_bind, act]
  refine (sees_value m a).bind fun v _ => ?_
  refine (sees_address m (m.core.value v)).bind fun goal _ => ?_
  have hp := exec_push m (UInt16.ofNat (m.core.pc.toNat + 2))
  split at hp
  · next hfull =>
    rw [exec_bind_of_error hp, if_pos hfull]
    rfl
  · next hfull =>
    rw [exec_bind_of_ok hp, if_neg hfull, exec_proceed, ofNat_toNat_add]
    rfl

lemma row_ret (h : m.core.fetchWord m.core.pc = .ok (Opcode.tag .ret)) :
    Run.exec (row m.core.pc.toNat (Opcode.tag .ret)) m = outcome m m.core.plan := by
  refine exec_zero h rfl ?_
  simp only [planFor, Instruction.decode, bind_assoc, pure_bind, act]
  refine (sees_top m).bind fun w _ => ?_
  refine (sees_address m w).bind fun goal _ => ?_
  rfl

lemma row_out (h : m.core.fetchWord m.core.pc = .ok (Opcode.tag .out)) :
    Run.exec (row m.core.pc.toNat (Opcode.tag .out)) m = outcome m m.core.plan := by
  refine exec_one h rfl fun a => ?_
  simp only [planFor, Instruction.decode, bind_assoc, pure_bind, act]
  refine (sees_value m a).bind fun v _ => ?_
  by_cases hlt : (m.core.value v).toNat < memorySize
  · have hch : (m.core.value v).char? = some (Char.ofNat (m.core.value v).toNat) := by
      rw [Word.char?, dif_pos hlt, Char.ofNat, dif_pos (Word.isValidChar_of_lt hlt)]
    rw [if_pos hlt, hch]
    exact exec_emit_proceed m _ 2
  · have hch := (Word.char?_eq_none_iff _).mpr (Nat.not_lt.mp hlt)
    rw [if_neg hlt, hch]
    rfl

lemma row_read (h : m.core.fetchWord m.core.pc = .ok (Opcode.tag .read)) :
    Run.exec (row m.core.pc.toNat (Opcode.tag .read)) m = outcome m m.core.plan := by
  refine exec_one h rfl fun a => ?_
  simp only [planFor, Instruction.decode, bind_assoc, pure_bind, act]
  refine (sees_target m a).bind fun dst hdst => ?_
  obtain ⟨l, hl⟩ := exists_locate hdst
  rw [hl, ok_bind, ok_bind]
  have hpeek := exec_peek m
  cases hc : m.console.peek.result with
  | error fault =>
    rw [hc] at hpeek
    rw [exec_bind_of_error hpeek]
    simp only [outcome, Machine.perform, Machine.read, hc]
  | ok c =>
    rw [hc] at hpeek
    rw [exec_bind_of_ok hpeek]
    by_cases hlt : c.toNat < memorySize
    · have hw : Word.ofChar? c = some (UInt16.ofNat c.toNat) := if_pos hlt
      rw [if_pos hlt, exec_bind_of_ok (exec_store hdst hl _)]
      simp only [outcome, Machine.perform, Machine.read, hc, hw]
      rw [← ofNat_toNat_add]
      rfl
    · have hw := (Word.ofChar?_eq_none_iff c).mpr (Nat.not_lt.mp hlt)
      rw [if_neg hlt]
      simp only [outcome, Machine.perform, Machine.read, hc, hw]
      rfl

lemma row_noop (h : m.core.fetchWord m.core.pc = .ok (Opcode.tag .noop)) :
    Run.exec (row m.core.pc.toNat (Opcode.tag .noop)) m = outcome m m.core.plan := by
  refine exec_zero h rfl ?_
  simp only [planFor, Instruction.decode, pure_bind, act]
  refine (exec_proceed m _).trans ?_
  rw [ofNat_toNat_add]
  rfl

/-- Every row comes to what the core plans. -/
theorem row_eq_plan (op : Opcode) (h : m.core.fetchWord m.core.pc = .ok op.tag) :
    Run.exec (row m.core.pc.toNat op.tag) m = outcome m m.core.plan := by
  cases op with
  | halt      => exact row_halt h
  | set       => exact row_set h
  | push      => exact row_push h
  | pop       => exact row_pop h
  | binary op => exact row_binary op h
  | jmp       => exact row_jmp h
  | jt        => exact row_jt h
  | jf        => exact row_jf h
  | not       => exact row_not h
  | rmem      => exact row_rmem h
  | wmem      => exact row_wmem h
  | call      => exact row_call h
  | ret       => exact row_ret h
  | out       => exact row_out h
  | read      => exact row_read h
  | noop      => exact row_noop h

/-! ### Cycles -/

/-- A word that is the number of no opcode has no row. -/
lemma row_of_ofTag?_eq_none {w : Word} (h : Opcode.ofTag? w = none) (pc : Nat) :
    row pc w = fail (.invalidInstruction w) := by
  rw [row]
  split
  all_goals first
    | rfl
    | next hw => rw [Opcode.ofTag?, hw] at h; cases h

/-- A cycle comes to what the core plans. -/
theorem exec_cycle (m : Machine) : Run.exec cycle m = outcome m m.core.plan := by
  rw [cycle, exec_bind_of_ok (exec_get m)]
  have hcell := sees_cell m m.core.pc
  have hfetch := fetchWord_eq_map m.core m.core.pc
  cases ha : Core.addressOf m.core.pc with
  | error e =>
    rw [ha] at hcell hfetch
    rw [exec_bind_of_error hcell, plan, fetch, hfetch]
    rfl
  | ok a =>
    rw [ha] at hcell hfetch
    rw [exec_bind_of_ok hcell]
    cases hop : Opcode.ofTag? (m.core.memory.cell a) with
    | none =>
      rw [row_of_ofTag?_eq_none hop, plan, fetch, hfetch]
      simp only [Except.map, ok_bind, Opcode.decode, hop]
      rfl
    | some op =>
      have htag := Opcode.tag_of_ofTag? hop
      rw [← htag]
      apply row_eq_plan
      rw [hfetch, htag]
      rfl

/-- The machine and the interpreter over raw words agree: the same result, and the same machine
afterwards. -/
theorem step_eq_cycle {m : Machine} (h : m.halted = false) :
    (m.step.result, m.step.machine) = Run.exec cycle m := by
  rw [exec_cycle, Machine.step_eq_outcome h]

theorem step_eq_cycle_reader :
    let m := Machine.reader.attachSource (.ofBytes [104, 105, 13, 10])
    m.halted = false ∧ (m.step.result, m.step.machine) = Run.exec cycle m :=
  ⟨rfl, step_eq_cycle rfl⟩

end Raw

end WordMachine
