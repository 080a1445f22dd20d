import WordMachine.Proofs.History
import WordMachine.Proofs.Stuck
import WordMachine.Proofs.Update

/-!
# Control stays in memory

From its first state on, a machine carries out only instructions that lie in memory with all their
words, and it never puts more on its stack than the limit allows. It can leave the memory at its end
only, behind an instruction in the last cells that does not jump. There it is stuck, so that it never
goes on at the start.
-/

namespace WordMachine

/-! ### Where an instruction leads -/

/-- The address at which an update lets the machine go on, if it is another than the next one. -/
def Update.goal? : Update → Option Address
  | .jump a | .call a | .ret a => some a
  | _                          => none

/-- The address at which an action lets the machine go on, if it is another than the next one. -/
def Action.goal? : Action → Option Address
  | .update u => u.goal?
  | _         => none

lemma Stack.depth_push (s : Stack) (w : Word) : (s.push w).depth = s.depth + 1 := by
  rw [← length_toList, toList_push, List.length_append, length_toList, List.length_singleton]

lemma Stack.depth_pop_le (s : Stack) : s.pop.depth ≤ s.depth := by
  rw [← length_toList, toList_pop, ← length_toList]
  exact (List.dropLast_sublist _).length_le

/-- A stack that is not full has room for one more entry. -/
lemma Stack.depth_push_le {s : Stack} (h : s.isFull = false) (w : Word) :
    (s.push w).depth ≤ stackLimit := by
  rw [depth_push]
  exact Nat.succ_le_of_lt (Nat.lt_of_not_le (of_decide_eq_false h))

lemma Word.ofAddress_ne_end (a : Address) : ofAddress a ≠ 32768 := by
  intro h
  have hval := congrArg UInt16.toNat h
  rw [toNat_ofAddress] at hval
  exact absurd hval (Nat.ne_of_lt a.isLt)

namespace Core

variable {c : Core} {i : Instruction} {next : Word} {action : Action} {u : Update}

/-- Behind an instruction that was fetched there is a cell, or the end of the memory. -/
lemma toNat_next (hf : c.fetch = .ok i) :
    (c.pc + UInt16.ofNat i.width).toNat = c.pc.toNat + i.width := by
  have hlast := pc_add_width_le hf
  have hpos : 0 < i.width := Nat.succ_pos _
  have hwidth : i.width ≤ 4 := Nat.succ_le_succ i.opcode.arity_le
  have hsmall : 4 < memorySize := by decide
  exact Word.toNat_add_ofNat (by omega) (by omega)

lemma pc_lt_of_plan (hp : c.plan = .ok (next, action)) : c.pc.toNat < memorySize := by
  obtain ⟨i, hf, -, -⟩ := plan_eq_ok_iff.mp hp
  exact Nat.lt_of_lt_of_le (Nat.lt_add_of_pos_right (Nat.succ_pos _)) (pc_add_width_le hf)

lemma next_le_of_plan (hp : c.plan = .ok (next, action)) : next.toNat ≤ memorySize := by
  obtain ⟨i, hf, -, rfl⟩ := plan_eq_ok_iff.mp hp
  rw [toNat_next hf]
  exact pc_add_width_le hf

lemma pc_apply (c : Core) (next : Word) (u : Update) :
    (c.apply next u).pc = u.goal?.elim next Word.ofAddress := by
  cases u <;> rfl

lemma pc_apply_le (hp : c.plan = .ok (next, action)) (u : Update) :
    (c.apply next u).pc.toNat ≤ memorySize := by
  rw [pc_apply]
  cases u.goal? with
  | none => exact next_le_of_plan hp
  | some a =>
    show (Word.ofAddress a).toNat ≤ memorySize
    rw [Word.toNat_ofAddress]
    exact Nat.le_of_lt a.isLt

/-- Instructions put nothing on a full stack. -/
lemma depth_apply_le (hp : c.plan = .ok (next, .update u)) (h : c.stack.depth ≤ stackLimit) :
    (c.apply next u).stack.depth ≤ stackLimit := by
  obtain ⟨i, -, ha, -⟩ := plan_eq_ok_iff.mp hp
  rw [stack_apply]
  cases u with
  | pass | store | jump => exact h
  | pop | ret => exact Nat.le_trans c.stack.depth_pop_le h
  | push w =>
    cases ActRule.of_act ha with
    | push v hroom => exact Stack.depth_push_le hroom _
  | call a =>
    cases ActRule.of_act ha with
    | call haddress hroom => exact Stack.depth_push_le hroom next

/-- There is nothing to fetch behind the last cell. -/
lemma plan_of_end (h : c.pc = 32768) :
    c.plan = .error (.invalidMemoryAccess (.invalidAddress 32768)) := by
  have hget : c.memory.get 32768 = .error (.invalidAddress 32768) :=
    Memory.get_of_le c.memory (by decide)
  rw [plan, fetch, fetchWord, h, hget]
  rfl

end Core

/-! ### Instructions that were carried out -/

/-- The instruction lies in memory, with all its words. -/
structure Executed.InMemory (e : Executed) : Prop where
  fetched : e.core.fetch = .ok e.instruction
  last : e.core.pc.toNat + e.instruction.width ≤ memorySize

/-- The instruction ends with the last cell, and it neither jumps nor halts: the machine falls through
it to the end of the memory. -/
structure Executed.EndsMemory (e : Executed) : Prop where
  fetched : e.core.fetch = .ok e.instruction
  last : e.core.pc.toNat + e.instruction.width = memorySize
  passes : ∃ action, e.core.act e.instruction = .ok action ∧ action ≠ .halt ∧ action.goal? = none

lemma Executed.endsMemory_of_plan {c : Core} {action : Action} (hp : c.plan = .ok (32768, action))
    (hhalt : action ≠ .halt) (hgoal : action.goal? = none) :
    ∃ i, c.fetch = .ok i ∧ EndsMemory ⟨c, i⟩ := by
  obtain ⟨i, hf, ha, hnext⟩ := Core.plan_eq_ok_iff.mp hp
  refine ⟨i, hf, hf, ?_, action, ha, hhalt, hgoal⟩
  rw [← Core.toNat_next hf, hnext]
  rfl

namespace Machine

variable {m m' m'' : Machine} {r : Except Fault Step} {es es' : List Executed}

lemma executed_of_fetch {i : Instruction} (h : m.halted = false) (hf : m.core.fetch = .ok i)
    (s : Step) : m.executed (.ok s) m' = [⟨m.core, i⟩] := by
  simp only [executed, h, hf]

lemma inMemory_of_mem_executed {e : Executed} (h : e ∈ m.executed r m') : e.InMemory := by
  unfold executed at h
  split at h
  · next hf =>
    obtain rfl := List.mem_singleton.mp h
    exact ⟨hf, Core.pc_add_width_le hf⟩
  · cases h

/-! ### Steps -/

/-- The next instruction starts in memory or right behind it, where a machine does not halt, and the
stack is within its limit. -/
structure Bounded (m : Machine) : Prop where
  pc : m.core.pc.toNat ≤ memorySize
  stack : m.core.stack.depth ≤ stackLimit
  halted : m.halted = true → m.core.pc.toNat < memorySize

/-- While the instructions were carried out, all of them in memory, the machine has kept to its bounds.
If it has come to the end of the memory, it was there before or has fallen through the last of
them. -/
structure Contained (m m' : Machine) (es : List Executed) : Prop where
  bounded : m.Bounded → m'.Bounded
  inMemory : ∀ e ∈ es, e.InMemory
  fallen : m'.core.pc = 32768 →
    m.core.pc = 32768 ∧ es = [] ∨ ∃ e, es.getLast? = some e ∧ e.EndsMemory

lemma Contained.refl (m : Machine) : Contained m m [] :=
  ⟨id, nofun, fun hpc => .inl ⟨hpc, rfl⟩⟩

lemma Contained.trans (h : Contained m m' es) (h' : Contained m' m'' es') :
    Contained m m'' (es ++ es') := by
  constructor
  · exact fun hm => h'.bounded (h.bounded hm)
  · intro e he
    rcases List.mem_append.mp he with he | he
    · exact h.inMemory e he
    · exact h'.inMemory e he
  · intro hpc
    obtain ⟨hpc', rfl⟩ | ⟨e, he, hend⟩ := h'.fallen hpc
    · rw [List.append_nil]
      exact h.fallen hpc'
    · exact .inr ⟨e, by rw [List.getLast?_append, he]; rfl, hend⟩

lemma contained_of_outside {op : Operation} (h : op.isOutside = true) (hne : ∀ f, op ≠ .edit f)
    (m : Machine) : Contained m (m.operate op) [] := by
  have hcore := core_operate (m := m) h hne
  have hkept := keptOutside_operate (m := m) h
  constructor
  · intro hm
    refine ⟨hcore ▸ hm.pc, hcore ▸ hm.stack, ?_⟩
    rw [hcore, hkept.halted]
    exact hm.halted
  · nofun
  · intro hpc
    exact .inl ⟨hcore ▸ hpc, rfl⟩

end Machine

open Machine

theorem StepRule.bounded {m m' : Machine} {r : Except Fault Step} (h : StepRule m r m')
    (hm : m.Bounded) : m'.Bounded := by
  have hrunning {m : Machine} {p : Prop} (h : m.halted = false) : m.halted = true → p := by
    intro h'
    rw [h] at h'
    cases h'
  cases h with
  | stopped | refused => exact hm
  | unprinted | unread | rejected => exact ⟨hm.pc, hm.stack, hm.halted⟩
  | halt h hp => exact ⟨hm.pc, hm.stack, fun _ => Core.pc_lt_of_plan hp⟩
  | update h hp => exact ⟨Core.pc_apply_le hp _, Core.depth_apply_le hp hm.stack, hrunning h⟩
  | printed h hp => exact ⟨Core.next_le_of_plan hp, hm.stack, hrunning h⟩
  | @read _ l _ w h hp =>
    refine ⟨Core.next_le_of_plan hp, ?_, hrunning h⟩
    rw [Core.stack_apply]
    exact hm.stack

/-- A step that comes to the end of the memory falls through its instruction. -/
theorem StepRule.fallen {m m' : Machine} {r : Except Fault Step} (h : StepRule m r m')
    (hpc : m'.core.pc = 32768) :
    m.core.pc = 32768 ∧ m.executed r m' = [] ∨
      ∃ e, (m.executed r m').getLast? = some e ∧ e.EndsMemory := by
  have hpassed {next : Word} {action : Action} {m'' : Machine} (h : m.halted = false)
      (hp : m.core.plan = .ok (next, action)) (hnext : next = 32768) (hhalt : action ≠ .halt)
      (hgoal : action.goal? = none) :
      ∃ e, (m.executed (.ok .continued) m'').getLast? = some e ∧ e.EndsMemory := by
    rw [hnext] at hp
    obtain ⟨i, hf, hend⟩ := Executed.endsMemory_of_plan hp hhalt hgoal
    exact ⟨_, by rw [executed_of_fetch h hf]; rfl, hend⟩
  cases h with
  | stopped h => exact .inl ⟨hpc, executed_of_halted h⟩
  | refused | unprinted | unread | rejected => exact .inl ⟨hpc, executed_of_error⟩
  | halt h hp =>
    have hlt := Core.pc_lt_of_plan hp
    rw [show m.core.pc = 32768 from hpc] at hlt
    exact absurd hlt (by decide)
  | @update next u h hp =>
    have hend : u.goal?.elim next Word.ofAddress = 32768 := (m.core.pc_apply next u).symm.trans hpc
    cases hgoal : u.goal? with
    | none =>
      rw [hgoal] at hend
      exact .inr (hpassed h hp hend (by nofun) hgoal)
    | some a =>
      rw [hgoal] at hend
      exact absurd hend (Word.ofAddress_ne_end a)
  | printed h hp => exact .inr (hpassed h hp hpc (by nofun) rfl)
  | read h hp => exact .inr (hpassed h hp hpc (by nofun) rfl)

namespace Machine

variable {m : Machine}

lemma contained_step (m : Machine) :
    Contained m m.step.machine (m.executed m.step.result m.step.machine) :=
  ⟨m.stepRule.bounded, fun _ => inMemory_of_mem_executed, m.stepRule.fallen⟩

/-! ### Operations -/

lemma ne_edit_of_mem {op : Operation} {ops : List Operation} (hops : ∀ f, .edit f ∉ ops)
    (hmem : op ∈ ops) (f : Core → Core) : op ≠ .edit f := by
  rintro rfl
  exact hops f hmem

theorem contained_operateAll (m : Machine) {ops : List Operation} (hops : ∀ f, .edit f ∉ ops) :
    Contained m (m.operateAll ops) (m.history ops) := by
  refine operateAll_induction .refl .trans contained_step ?_ m
  exact fun op hmem hop => contained_of_outside hop (ne_edit_of_mem hops hmem)

lemma bounded_of_load {program : List Word} (h : load program = .ok m) : m.Bounded := by
  obtain ⟨-, rfl⟩ := load_eq_ok_iff.mp h
  exact ⟨Nat.zero_le _, Nat.zero_le _, by nofun⟩

/-- The machine has come to the end of the memory, and it has not halted. -/
structure PastEnd (m : Machine) : Prop where
  halted : m.halted = false
  pc : m.core.pc = 32768

lemma Bounded.pastEnd (h : m.Bounded) (hpc : m.core.pc = 32768) : m.PastEnd := by
  refine ⟨Bool.eq_false_iff.mpr ?_, hpc⟩
  intro hhalted
  have hlt := h.halted hhalted
  rw [hpc] at hlt
  exact absurd hlt (by decide)

lemma PastEnd.stuck (h : m.PastEnd) : m.Stuck (.invalidMemoryAccess (.invalidAddress 32768)) :=
  .refused h.halted (Core.plan_of_end h.pc)

/-- Nothing but a change of the core lets the machine leave the end of the memory. -/
theorem PastEnd.operateAll (h : m.PastEnd) {ops : List Operation} (hops : ∀ f, .edit f ∉ ops) :
    (m.operateAll ops).PastEnd := by
  refine operateAll_induction (R := fun m m' _ => m.PastEnd → m'.PastEnd) ?_ ?_ ?_ ?_ m h
  · exact fun _ => id
  · exact fun h h' hm => h' (h hm)
  · intro m hm
    rw [hm.stuck.step.2]
    exact hm
  · intro op hmem hop m hm
    have hcore := core_operate (m := m) hop (ne_edit_of_mem hops hmem)
    exact ⟨(keptOutside_operate hop).halted.trans hm.halted, (congrArg Core.pc hcore).trans hm.pc⟩

/-- However long a program runs and whatever it reads, the next instruction starts in memory or right
behind it, the stack is within its limit, and each instruction that was carried out lies in memory with
all its words. The machine comes to the end of the memory only by falling through an instruction that
ends with the last cell. From then on each step fails, and the machine stays there. -/
theorem bounds_of_load {program : List Word} (h : load program = .ok m) {ops : List Operation}
    (hops : ∀ f, .edit f ∉ ops) :
    let m' := m.operateAll ops
    m'.core.pc.toNat ≤ memorySize ∧ m'.core.stack.depth ≤ stackLimit ∧
    (∀ e ∈ m.history ops, e.InMemory) ∧
    (m'.core.pc = 32768 →
      (∃ e, (m.history ops).getLast? = some e ∧ e.EndsMemory) ∧
      ∀ ops', (∀ f, .edit f ∉ ops') →
        (m'.operateAll ops').step.result =
            .error (.exception (.invalidMemoryAccess (.invalidAddress 32768))) ∧
          (m'.operateAll ops').step.machine = m'.operateAll ops' ∧
          (m'.operateAll ops').core.pc = 32768) := by
  intro m'
  have hcontained := m.contained_operateAll hops
  have hbounded : m'.Bounded := hcontained.bounded (bounded_of_load h)
  refine ⟨hbounded.pc, hbounded.stack, hcontained.inMemory, ?_⟩
  intro hpc
  constructor
  · refine (hcontained.fallen hpc).resolve_left ?_
    rintro ⟨hstart, -⟩
    obtain ⟨-, rfl⟩ := load_eq_ok_iff.mp h
    cases hstart
  · intro ops' hops'
    have hend := (hbounded.pastEnd hpc).operateAll hops'
    exact ⟨hend.stuck.step.1, hend.stuck.step.2, hend.pc⟩

/-- A machine that writes a `noop` to the last cell and goes on there. -/
def faller : Machine where
  core := { memory := (Memory.zero.setFrom 0 [16, 32767, 21, 6, 32767]).2 }

lemma load_faller : load [16, 32767, 21, 6, 32767] = .ok faller := load_eq_setFrom (by decide)

/-- A `noop` in the last cell is fallen through. -/
lemma pc_step_of_noop (h : m.halted = false) (hpc : m.core.pc = 32767)
    (hget : m.core.memory.get 32767 = .ok Opcode.noop.tag) : m.step.machine.core.pc = 32768 := by
  have hfetch : m.core.fetch = .ok .noop := by
    rw [Core.fetch, hpc, Core.fetchWord, hget]
    rfl
  have hplan : m.core.plan = .ok (32768, .update .pass) :=
    Core.plan_eq_ok_iff.mpr ⟨.noop, hfetch, rfl, by rw [hpc]; rfl⟩
  rw [(step_of_plan h hplan).2]
  rfl

lemma pc_faller : (faller.operateAll [.step, .step, .step]).core.pc = 32768 := by
  iterate 3 rw [operateAll_cons, operate]
  rw [operateAll_nil]
  refine pc_step_of_noop rfl rfl ?_
  have hmemory :
      faller.step.machine.step.machine.core.memory = faller.core.memory.set 32767 21 := rfl
  rw [hmemory, Memory.get_of_lt _ (by decide)]
  exact congrArg Except.ok (Memory.cell_set_self _ _ _)

theorem bounds_of_load_faller :
    load [16, 32767, 21, 6, 32767] = .ok faller ∧
      (faller.operateAll [.step, .step, .step]).core.pc = 32768 ∧
      (∃ e, (faller.history [.step, .step, .step]).getLast? = some e ∧ e.EndsMemory) ∧
      ((faller.operateAll [.step, .step, .step]).operateAll
          [.run none 5, .queueInput ['a']]).step.result =
        .error (.exception (.invalidMemoryAccess (.invalidAddress 32768))) := by
  have hops : ∀ f, Operation.edit f ∉ [.step, .step, .step] := by simp
  have hbounds := bounds_of_load load_faller hops
  obtain ⟨hlast, hfurther⟩ := hbounds.2.2.2 pc_faller
  have hstuck := hfurther [.run none 5, .queueInput ['a']] (by simp)
  exact ⟨load_faller, pc_faller, hlast, hstuck.1⟩

end Machine

end WordMachine
