import WordMachine.Machine.Host
import Mathlib.Tactic.Lemma

/-!
# What a step can be

What the core wants to happen in a cycle, its *plan*, depends on the core alone: an exception, or
an action together with the address of the instruction that follows. `StepRule` lists what can
come of one step, with a rule for each plan and for each answer of the console, and
`Machine.stepRule` says that there is nothing else.
-/

namespace WordMachine

/-! ### Checks one after the other -/

section Checks

variable {ε α β : Type} {f : α → Except ε β}

@[simp] lemma ok_bind (a : α) : (Except.ok a >>= f) = f a := rfl

@[simp] lemma error_bind (e : ε) : (Except.error e >>= f) = .error e := rfl

lemma bind_eq_ok_iff {x : Except ε α} {b : β} :
    (x >>= f) = .ok b ↔ ∃ a, x = .ok a ∧ f a = .ok b := by
  cases x with
  | error e => simp
  | ok a    => simp

end Checks

/-! ### Actions -/

namespace Core

variable (c : Core)

def actStore (dst : Target) (w : Word) : Except Exception Action := do
  let l ← dst.locate
  .ok (.update (.store l w))

def actJump (w : Word) : Except Exception Action := do
  let a ← addressOf w
  .ok (.update (.jump a))

/-- What an instruction amounts to, without the notes that are made on the way. -/
def act : Instruction → Except Exception Action
  | .halt => .ok .halt
  | .set dst v => .ok (.update (.store (.reg dst) (c.value v)))
  | .push v => if c.stack.isFull then .error .stackOverflow else .ok (.update (.push (c.value v)))
  | .pop dst => do
    let w ← c.top
    let l ← dst.locate
    .ok (.update (.pop l w))
  | .binary op dst a b =>
    match op.eval? (c.value a) (c.value b) with
    | some w => actStore dst w
    | none   => .error .divisionByZero
  | .jmp address => actJump (c.value address)
  | .jt condition address =>
    if c.value condition ≠ 0 then actJump (c.value address) else .ok (.update .pass)
  | .jf condition address =>
    if c.value condition = 0 then actJump (c.value address) else .ok (.update .pass)
  | .not dst a => actStore dst (c.value a).complement
  | .rmem dst address => do
    let a ← addressOf (c.value address)
    actStore dst (c.memory.cell a)
  | .wmem address v => do
    let a ← addressOf (c.value address)
    .ok (.update (.store (.cell a) (c.value v)))
  | .call address => do
    let a ← addressOf (c.value address)
    if c.stack.isFull then .error .stackOverflow else .ok (.update (.call a))
  | .ret => do
    let w ← c.top
    let a ← addressOf w
    .ok (.update (.ret a))
  | .out v =>
    match (c.value v).char? with
    | some ch => .ok (.print ch)
    | none    => .error (.invalidCharacter (c.value v).toNat)
  | .read dst => do
    let l ← dst.locate
    .ok (.read l)
  | .noop => .ok (.update .pass)

end Core

namespace Resolution

@[simp] lemma result_update (notes : List Note) (u : Update) :
    (update notes u).result = .ok (.update u) := rfl

@[simp] lemma result_refuse (e : Exception) : (refuse e).result = .error e := rfl

@[simp] lemma result_check {α : Type} (x : Except Exception α) (k : α → Resolution) :
    (check x k).result = x >>= fun a => (k a).result := by
  cases x <;> rfl

@[simp] lemma result_ite (p : Prop) [Decidable p] (x y : Resolution) :
    (if p then x else y).result = if p then x.result else y.result := by
  split <;> rfl

end Resolution

@[simp] lemma Core.result_storing (note : Note) (dst : Target) (w : Word) :
    (Core.storing note dst w).result = Core.actStore dst w := by
  simp [Core.storing, Core.actStore]

@[simp] lemma Core.result_jumping (w : Word) : (Core.jumping w).result = Core.actJump w := by
  simp [Core.jumping, Core.actJump]

theorem Instruction.result_resolve (c : Core) (i : Instruction) :
    (i.resolve c).result = c.act i := by
  cases i with
  | binary op dst a b =>
    simp only [resolve, Core.act]
    cases op.eval? (c.value a) (c.value b) with
    | none   => rfl
    | some w => exact Core.result_storing _ dst w
  | out v =>
    simp only [resolve, Core.act]
    cases (c.value v).char? <;> rfl
  | _ => simp [resolve, Core.act]

/-- What an instruction amounts to when no check fails, one rule for each way to get there. -/
inductive ActRule (c : Core) : Instruction → Action → Prop
  | halt : ActRule c .halt .halt
  | set (dst : Reg) (v : Value) : ActRule c (.set dst v) (.update (.store (.reg dst) (c.value v)))
  | push (v : Value) (h : c.stack.isFull = false) :
      ActRule c (.push v) (.update (.push (c.value v)))
  | pop {dst : Target} {w : Word} {l : Location} (hw : c.top = .ok w) (hl : dst.locate = .ok l) :
      ActRule c (.pop dst) (.update (.pop l w))
  | binary {op : BinaryOp} {dst : Target} {a b : Value} {w : Word} {l : Location}
      (hw : op.eval? (c.value a) (c.value b) = some w) (hl : dst.locate = .ok l) :
      ActRule c (.binary op dst a b) (.update (.store l w))
  | jmp {v : Value} {a : Address} (ha : Core.addressOf (c.value v) = .ok a) :
      ActRule c (.jmp v) (.update (.jump a))
  | jtTaken {x v : Value} {a : Address} (hx : c.value x ≠ 0)
      (ha : Core.addressOf (c.value v) = .ok a) : ActRule c (.jt x v) (.update (.jump a))
  | jtPassed {x v : Value} (hx : c.value x = 0) : ActRule c (.jt x v) (.update .pass)
  | jfTaken {x v : Value} {a : Address} (hx : c.value x = 0)
      (ha : Core.addressOf (c.value v) = .ok a) : ActRule c (.jf x v) (.update (.jump a))
  | jfPassed {x v : Value} (hx : c.value x ≠ 0) : ActRule c (.jf x v) (.update .pass)
  | not {dst : Target} {l : Location} (a : Value) (hl : dst.locate = .ok l) :
      ActRule c (.not dst a) (.update (.store l (c.value a).complement))
  | rmem {dst : Target} {v : Value} {a : Address} {l : Location}
      (ha : Core.addressOf (c.value v) = .ok a) (hl : dst.locate = .ok l) :
      ActRule c (.rmem dst v) (.update (.store l (c.memory.cell a)))
  | wmem {v : Value} {a : Address} (x : Value) (ha : Core.addressOf (c.value v) = .ok a) :
      ActRule c (.wmem v x) (.update (.store (.cell a) (c.value x)))
  | call {v : Value} {a : Address} (ha : Core.addressOf (c.value v) = .ok a)
      (h : c.stack.isFull = false) : ActRule c (.call v) (.update (.call a))
  | ret {w : Word} {a : Address} (hw : c.top = .ok w) (ha : Core.addressOf w = .ok a) :
      ActRule c .ret (.update (.ret a))
  | out {v : Value} {ch : Char} (h : (c.value v).char? = some ch) : ActRule c (.out v) (.print ch)
  | read {dst : Target} {l : Location} (hl : dst.locate = .ok l) : ActRule c (.read dst) (.read l)
  | noop : ActRule c .noop (.update .pass)

theorem ActRule.of_act {c : Core} {i : Instruction} {action : Action} (h : c.act i = .ok action) :
    ActRule c i action := by
  cases i with
  | halt =>
    cases h
    exact .halt
  | set dst v =>
    cases h
    exact .set dst v
  | push v =>
    simp only [Core.act] at h
    split at h
    · cases h
    · next hfull =>
      cases h
      exact .push v (eq_false_of_ne_true hfull)
  | pop dst =>
    obtain ⟨w, hw, h⟩ := bind_eq_ok_iff.mp h
    obtain ⟨l, hl, h⟩ := bind_eq_ok_iff.mp h
    cases h
    exact .pop hw hl
  | binary op dst a b =>
    simp only [Core.act] at h
    cases hw : op.eval? (c.value a) (c.value b) with
    | none =>
      rw [hw] at h
      cases h
    | some w =>
      rw [hw] at h
      obtain ⟨l, hl, h⟩ := bind_eq_ok_iff.mp h
      cases h
      exact .binary hw hl
  | jmp v =>
    obtain ⟨a, ha, h⟩ := bind_eq_ok_iff.mp h
    cases h
    exact .jmp ha
  | jt x v =>
    simp only [Core.act] at h
    split at h
    · next hx =>
      obtain ⟨a, ha, h⟩ := bind_eq_ok_iff.mp h
      cases h
      exact .jtTaken hx ha
    · next hx =>
      cases h
      exact .jtPassed (Decidable.not_not.mp hx)
  | jf x v =>
    simp only [Core.act] at h
    split at h
    · next hx =>
      obtain ⟨a, ha, h⟩ := bind_eq_ok_iff.mp h
      cases h
      exact .jfTaken hx ha
    · next hx =>
      cases h
      exact .jfPassed hx
  | not dst a =>
    obtain ⟨l, hl, h⟩ := bind_eq_ok_iff.mp h
    cases h
    exact .not a hl
  | rmem dst v =>
    obtain ⟨a, ha, h⟩ := bind_eq_ok_iff.mp h
    obtain ⟨l, hl, h⟩ := bind_eq_ok_iff.mp h
    cases h
    exact .rmem ha hl
  | wmem v x =>
    obtain ⟨a, ha, h⟩ := bind_eq_ok_iff.mp h
    cases h
    exact .wmem x ha
  | call v =>
    obtain ⟨a, ha, h⟩ := bind_eq_ok_iff.mp h
    split at h
    · cases h
    · next hfull =>
      cases h
      exact .call ha (eq_false_of_ne_true hfull)
  | ret =>
    obtain ⟨w, hw, h⟩ := bind_eq_ok_iff.mp h
    obtain ⟨a, ha, h⟩ := bind_eq_ok_iff.mp h
    cases h
    exact .ret hw ha
  | out v =>
    simp only [Core.act] at h
    cases hch : (c.value v).char? with
    | none =>
      rw [hch] at h
      cases h
    | some ch =>
      rw [hch] at h
      cases h
      exact .out hch
  | read dst =>
    obtain ⟨l, hl, h⟩ := bind_eq_ok_iff.mp h
    cases h
    exact .read hl
  | noop =>
    cases h
    exact .noop

namespace Core

variable {c : Core} {i : Instruction}

/-- Only `out` writes a character, and only one whose code is a value. -/
theorem act_eq_print_iff {ch : Char} :
    c.act i = .ok (.print ch) ↔ ∃ v, i = .out v ∧ (c.value v).char? = some ch := by
  constructor
  · intro h
    cases ActRule.of_act h with
    | out hch => exact ⟨_, rfl, hch⟩
  · rintro ⟨v, rfl, hch⟩
    simp only [act, hch]

/-- Only `in` reads a character. -/
theorem act_eq_read_iff {l : Location} :
    c.act i = .ok (.read l) ↔ ∃ dst, i = .read dst ∧ dst.locate = .ok l := by
  constructor
  · intro h
    cases ActRule.of_act h with
    | read hl => exact ⟨_, rfl, hl⟩
  · rintro ⟨dst, rfl, hl⟩
    simp only [act, hl]
    rfl

lemma top?_of_top {w : Word} (h : c.top = .ok w) : c.stack.top? = some w := by
  rw [top] at h
  split at h
  · next htop =>
    cases h
    exact htop
  · cases h

/-! ### Plans -/

/-- What the core wants to happen, with the address of the instruction that follows. -/
def plan (c : Core) : Except Exception (Word × Action) := do
  let i ← c.fetch
  let action ← c.act i
  .ok (c.pc + UInt16.ofNat i.width, action)

theorem plan_eq_ok_iff {next : Word} {action : Action} :
    c.plan = .ok (next, action) ↔
      ∃ i, c.fetch = .ok i ∧ c.act i = .ok action ∧ c.pc + UInt16.ofNat i.width = next := by
  simp only [plan, bind_eq_ok_iff, Except.ok.injEq, Prod.mk.injEq]
  constructor
  · rintro ⟨i, hi, a, ha, hnext, rfl⟩
    exact ⟨i, hi, ha, hnext⟩
  · rintro ⟨i, hi, ha, hnext⟩
    exact ⟨i, hi, action, ha, hnext, rfl⟩

end Core

/-! ### Targets -/

/-- An operand that was checked names a place. -/
lemma Instruction.exists_locate {w : Word} {t : Target} (h : targetOperand w = .ok t) :
    ∃ l, t.locate = .ok l := by
  by_cases hlit : w.toNat < registerBase
  · rw [targetOperand, Target.decode_of_lt hlit] at h
    cases h
    rw [Target.locate, Word.address_of_lt hlit]
    exact ⟨_, rfl⟩
  · simp only [targetOperand, Target.decode, if_neg hlit] at h
    split at h
    · cases h
      exact ⟨_, rfl⟩
    · cases h

/-- An operand that is a register is one that can be written. -/
lemma Instruction.targetOperand_of_regOperand {w : Word} {r : Reg} (h : regOperand w = .ok r) :
    targetOperand w = .ok (.reg r) := by
  rw [regOperand, Reg.decode] at h
  rw [targetOperand]
  cases ht : Target.decode w with
  | error e =>
    rw [ht] at h
    cases h
  | ok t =>
    rw [ht] at h
    cases t with
    | memory a => cases h
    | reg r'   =>
      cases h
      rfl

lemma Instruction.targetOperand_of_decode {op : Opcode} {x y z : Word} {dst : Target}
    (h : decode op x y z = .ok (.read dst)) : targetOperand x = .ok dst := by
  cases op with
  | read =>
    obtain ⟨t, ht, h⟩ := bind_eq_ok_iff.mp h
    cases h
    exact ht
  | _ => simp [decode, bind_eq_ok_iff, pure, Except.pure] at h

/-! ### Fetching -/

/-- The instruction that is read is of the kind that was asked for. -/
lemma Instruction.opcode_of_decode {op : Opcode} {x y z : Word} {i : Instruction}
    (h : decode op x y z = .ok i) : i.opcode = op := by
  cases op with
  | halt | ret | noop =>
    cases h
    rfl
  | push | pop | jmp | call | out | read =>
    obtain ⟨a, -, h⟩ := bind_eq_ok_iff.mp h
    cases h
    rfl
  | set | jt | jf | not | rmem | wmem =>
    obtain ⟨a, -, h⟩ := bind_eq_ok_iff.mp h
    obtain ⟨b, -, h⟩ := bind_eq_ok_iff.mp h
    cases h
    rfl
  | binary =>
    obtain ⟨a, -, h⟩ := bind_eq_ok_iff.mp h
    obtain ⟨b, -, h⟩ := bind_eq_ok_iff.mp h
    obtain ⟨c, -, h⟩ := bind_eq_ok_iff.mp h
    cases h
    rfl

/-- Close behind the address of a cell, addresses are added as numbers are. -/
lemma Word.toNat_add_ofNat {w : Word} {i : Nat} (hw : w.toNat < memorySize) (hi : i < memorySize) :
    (w + UInt16.ofNat i).toNat = w.toNat + i := by
  simp only [memorySize] at hw hi
  rw [UInt16.toNat_add, UInt16.toNat_ofNat']
  omega

namespace Core

variable {c : Core} {i : Instruction}

/-- An address that could be fetched from is that of a cell. -/
lemma lt_of_fetchWord {w x : Word} (h : c.fetchWord w = .ok x) : w.toNat < memorySize := by
  apply Nat.lt_of_not_le
  intro hw
  rw [fetchWord, Memory.get_of_le c.memory hw] at h
  cases h

/-- An instruction that was fetched was read from words. -/
lemma exists_decode_of_fetch (hf : c.fetch = .ok i) :
    ∃ op x y z, Instruction.decode op x y z = .ok i := by
  obtain ⟨w, -, h⟩ := bind_eq_ok_iff.mp hf
  obtain ⟨op, -, h⟩ := bind_eq_ok_iff.mp h
  obtain ⟨x, -, h⟩ := bind_eq_ok_iff.mp h
  obtain ⟨y, -, h⟩ := bind_eq_ok_iff.mp h
  obtain ⟨z, -, h⟩ := bind_eq_ok_iff.mp h
  exact ⟨op, x, y, z, h⟩

/-- An instruction that was fetched lies in memory with all its words. -/
lemma pc_add_width_le (hf : c.fetch = .ok i) : c.pc.toNat + i.width ≤ memorySize := by
  obtain ⟨w, hw, h⟩ := bind_eq_ok_iff.mp hf
  obtain ⟨op, -, h⟩ := bind_eq_ok_iff.mp h
  obtain ⟨x, hx, h⟩ := bind_eq_ok_iff.mp h
  obtain ⟨y, hy, h⟩ := bind_eq_ok_iff.mp h
  obtain ⟨z, hz, h⟩ := bind_eq_ok_iff.mp h
  have hpc := lt_of_fetchWord hw
  -- the last word that is read is the last operand, or the number itself
  have hoperand {k : Nat} {x : Word} (hk : k ≤ op.arity) (hsmall : k < memorySize)
      (hx : (if k ≤ op.arity then c.fetchWord (c.pc + UInt16.ofNat k) else .ok 0) = .ok x) :
      c.pc.toNat + k < memorySize := by
    rw [if_pos hk] at hx
    rw [← Word.toNat_add_ofNat hpc hsmall]
    exact lt_of_fetchWord hx
  rw [Instruction.width, Instruction.opcode_of_decode h, Opcode.width]
  have harity := op.arity_le
  obtain hzero | hone | htwo | hthree :
      op.arity = 0 ∨ op.arity = 1 ∨ op.arity = 2 ∨ op.arity = 3 := by omega
  · rw [hzero]
    exact hpc
  · rw [hone]
    exact hoperand (Nat.le_of_eq hone.symm) (by decide) hx
  · rw [htwo]
    exact hoperand (Nat.le_of_eq htwo.symm) (by decide) hy
  · rw [hthree]
    exact hoperand (Nat.le_of_eq hthree.symm) (by decide) hz

/-- Nothing in the core can be held against an `in` that was fetched. -/
lemma exists_plan_of_fetch {dst : Target} (hf : c.fetch = .ok (.read dst)) :
    ∃ next l, c.plan = .ok (next, .read l) := by
  obtain ⟨op, x, y, z, h⟩ := exists_decode_of_fetch hf
  obtain ⟨l, hl⟩ := Instruction.exists_locate (Instruction.targetOperand_of_decode h)
  exact ⟨_, l, plan_eq_ok_iff.mpr ⟨_, hf, act_eq_read_iff.mpr ⟨dst, rfl, hl⟩, rfl⟩⟩

end Core

/-! ### Steps -/

/-- What comes of a plan. -/
def outcome (m : Machine) : Except Exception (Word × Action) → Except Fault Step × Machine
  | .error e           => (.error (.exception e), m)
  | .ok (next, action) => ((m.perform next action).result, (m.perform next action).machine)

namespace Machine

variable {m : Machine}

lemma execute_of_act_error {i : Instruction} {e : Exception} (h : m.core.act i = .error e) :
    m.execute i = ⟨.error (.exception e), m, (i.resolve m.core).notes⟩ :=
  execute_of_refused ((i.result_resolve m.core).trans h)

lemma result_execute_of_act {i : Instruction} {action : Action} (h : m.core.act i = .ok action) :
    (m.execute i).result = (m.perform (m.core.pc + UInt16.ofNat i.width) action).result := by
  rcases hr : i.resolve m.core with ⟨notes, result⟩
  have hresult : result = .ok action := by
    rw [← h, ← i.result_resolve, hr]
  simp only [execute, hr, hresult]

lemma machine_execute_of_act {i : Instruction} {action : Action} (h : m.core.act i = .ok action) :
    (m.execute i).machine = (m.perform (m.core.pc + UInt16.ofNat i.width) action).machine := by
  rcases hr : i.resolve m.core with ⟨notes, result⟩
  have hresult : result = .ok action := by
    rw [← h, ← i.result_resolve, hr]
  simp only [execute, hr, hresult]

/-- A step that the core objects to changes nothing. -/
theorem step_of_plan_error {e : Exception} (h : m.halted = false) (hp : m.core.plan = .error e) :
    m.step.result = .error (.exception e) ∧ m.step.machine = m := by
  cases hf : m.core.fetch with
  | error e' =>
    simp only [Core.plan, hf, error_bind, Except.error.injEq] at hp
    rw [step_of_fetch_error h hf, hp]
    exact ⟨rfl, rfl⟩
  | ok i =>
    cases ha : m.core.act i with
    | error e' =>
      simp only [Core.plan, hf, ha, ok_bind, error_bind, Except.error.injEq] at hp
      rw [result_step_of_fetch h hf, machine_step_of_fetch h hf, execute_of_act_error ha, hp]
      exact ⟨rfl, rfl⟩
    | ok action =>
      simp only [Core.plan, hf, ha, ok_bind] at hp
      cases hp

/-- Any other step does what was planned. -/
theorem step_of_plan {next : Word} {action : Action} (h : m.halted = false)
    (hp : m.core.plan = .ok (next, action)) :
    m.step.result = (m.perform next action).result ∧
      m.step.machine = (m.perform next action).machine := by
  obtain ⟨i, hf, ha, rfl⟩ := Core.plan_eq_ok_iff.mp hp
  rw [result_step_of_fetch h hf, machine_step_of_fetch h hf]
  exact ⟨result_execute_of_act ha, machine_execute_of_act ha⟩

/-- A machine that has not halted does in a step what its core plans. -/
theorem step_eq_outcome (h : m.halted = false) :
    (m.step.result, m.step.machine) = outcome m m.core.plan := by
  cases hp : m.core.plan with
  | error e =>
    obtain ⟨hr, hm⟩ := step_of_plan_error h hp
    rw [hr, hm, outcome]
  | ok p =>
    obtain ⟨hr, hm⟩ := step_of_plan h hp
    rw [hr, hm, outcome]

end Machine

/-- What can come of one step: its result and the machine after it. -/
inductive StepRule (m : Machine) : Except Fault Step → Machine → Prop
  | stopped (h : m.halted = true) : StepRule m (.ok .halted) m
  | refused {e : Exception} (h : m.halted = false) (hp : m.core.plan = .error e) :
      StepRule m (.error (.exception e)) m
  | halt {next : Word} (h : m.halted = false) (hp : m.core.plan = .ok (next, .halt)) :
      StepRule m (.ok .halted) ⟨m.core, m.console, m.cycles + 1, true⟩
  | update {next : Word} {u : Update} (h : m.halted = false)
      (hp : m.core.plan = .ok (next, .update u)) :
      StepRule m (.ok .continued) (m.update next u)
  | printed {next : Word} {c : Char} {con : Console} (h : m.halted = false)
      (hp : m.core.plan = .ok (next, .print c)) (hc : m.console.put c = (.ok (), con)) :
      StepRule m (.ok .continued) ⟨m.core.goto next, con, m.cycles + 1, m.halted⟩
  | unprinted {next : Word} {c : Char} {message : String} {con : Console} (h : m.halted = false)
      (hp : m.core.plan = .ok (next, .print c)) (hc : m.console.put c = (.error message, con)) :
      StepRule m (.error (.io message)) ⟨m.core, con, m.cycles, m.halted⟩
  | read {next : Word} {l : Location} {c : Char} {w : Word} (h : m.halted = false)
      (hp : m.core.plan = .ok (next, .read l)) (hc : m.console.peek.result = .ok c)
      (hw : Word.ofChar? c = some w) :
      StepRule m (.ok .continued)
        ⟨m.core.apply next (.store l w), m.console.peek.console.advance, m.cycles + 1, m.halted⟩
  | unread {next : Word} {l : Location} {fault : Fault} (h : m.halted = false)
      (hp : m.core.plan = .ok (next, .read l)) (hc : m.console.peek.result = .error fault) :
      StepRule m (.error fault) ⟨m.core, m.console.peek.console, m.cycles, m.halted⟩
  | rejected {next : Word} {l : Location} {c : Char} (h : m.halted = false)
      (hp : m.core.plan = .ok (next, .read l)) (hc : m.console.peek.result = .ok c)
      (hw : Word.ofChar? c = none) :
      StepRule m (.error (.exception (.invalidCharacter c.toNat)))
        ⟨m.core, m.console.peek.console, m.cycles, m.halted⟩

/-- The rules cover every step. -/
theorem Machine.stepRule (m : Machine) : StepRule m m.step.result m.step.machine := by
  cases h : m.halted with
  | true =>
    rw [step_of_halted h]
    exact .stopped h
  | false =>
    cases hp : m.core.plan with
    | error e =>
      obtain ⟨hr, hm⟩ := step_of_plan_error h hp
      rw [hr, hm]
      exact .refused h hp
    | ok p =>
      obtain ⟨next, action⟩ := p
      obtain ⟨hr, hm⟩ := step_of_plan h hp
      rw [hr, hm]
      cases action with
      | halt => exact .halt h hp
      | update u => exact .update h hp
      | print c =>
        rcases hc : m.console.put c with ⟨_ | ⟨⟩, con⟩
        · simp only [perform, print, hc]
          exact .unprinted h hp hc
        · simp only [perform, print, hc]
          exact .printed h hp hc
      | read l =>
        cases hc : m.console.peek.result with
        | error fault =>
          simp only [perform, Machine.read, hc]
          exact .unread h hp hc
        | ok c =>
          cases hw : Word.ofChar? c with
          | none =>
            simp only [perform, Machine.read, hc, hw]
            exact .rejected h hp hc hw
          | some w =>
            simp only [perform, Machine.read, hc, hw]
            exact .read h hp hc hw

/-- A machine that reads one character and stops. -/
def Machine.reader : Machine where
  core := { memory := (Memory.zero.set 0 20).set 1 32768 }

/-- A machine that writes one character and stops. -/
def Machine.printer : Machine where
  core := { memory := (Memory.zero.set 0 19).set 1 65 }

/-- A machine that loads a word of its memory into a register. -/
def Machine.loader : Machine where
  core := { memory := (((Memory.zero.set 0 15).set 1 32768).set 2 3).set 3 40000 }

/-- A machine that multiplies a word above all values by itself. -/
def Machine.multiplier : Machine where
  core :=
    { registers := Registers.zero.set ⟨1⟩ 40000
      memory := (((Memory.zero.set 0 10).set 1 32768).set 2 32769).set 3 32769 }

/-- A machine with its instruction in the last word of the memory. -/
def Machine.brink : Machine where
  core := { memory := Memory.zero.set 32767 21, pc := 32767 }

end WordMachine
