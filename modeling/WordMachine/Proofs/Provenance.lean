import WordMachine.Proofs.Operations

/-!
# Where wide words come from

A word is wide if it has more than the fifteen bits of a value. Registers, cells and the stack can
hold such words, and instructions move them about. But no instruction makes one, with a single
exception: a `call` in the last two cells puts the address behind them on the stack. So each wide
word that a machine holds stood in its program, or it is that address.
-/

namespace WordMachine

/-- The word is no value. -/
def Word.IsWide (w : Word) : Prop := modulus ≤ w.toNat

instance (w : Word) : Decidable w.IsWide := inferInstanceAs (Decidable (modulus ≤ w.toNat))

lemma Word.not_isWide_of_lt {w : Word} (h : w.toNat < modulus) : ¬ w.IsWide := Nat.not_le.mpr h

/-! ### Words that are computed -/

lemma Word.not_isWide_wrap (n : Nat) : ¬ (wrap n).IsWide := not_isWide_of_lt (toNat_wrap_lt n)

lemma Word.not_isWide_and_valueMask (w : Word) : ¬ (w &&& valueMask).IsWide := by
  rw [and_valueMask]
  exact not_isWide_wrap _

lemma BinaryOp.not_isWide_eval? {op : BinaryOp} {a b w : Word} (h : op.eval? a b = some w) :
    ¬ w.IsWide := by
  cases op with
  | eq | gt =>
    cases h
    split <;> decide
  | add | mult =>
    cases h
    exact Word.not_isWide_wrap _
  | mod =>
    simp only [eval?] at h
    split at h
    · cases h
    · cases h
      exact Word.not_isWide_wrap _
  | and | or =>
    cases h
    exact Word.not_isWide_and_valueMask _

lemma Word.not_isWide_complement (w : Word) : ¬ w.complement.IsWide :=
  Word.not_isWide_and_valueMask _

lemma Word.not_isWide_of_ofChar? {c : Char} {w : Word} (h : ofChar? c = some w) : ¬ w.IsWide := by
  intro hw
  have hnone := (char?_eq_none_iff w).mpr hw
  rw [char?_of_ofChar? h] at hnone
  cases hnone

/-! ### Words that are held -/

namespace Core

/-- The word is in a register, in a cell or on the stack. -/
inductive Holds (c : Core) : Word → Prop
  | register (r : Reg) : Holds c (c.registers.get r)
  | cell (a : Address) : Holds c (c.memory.cell a)
  | entry {w : Word} (h : w ∈ c.stack.toList) : Holds c w

/-- Each wide word of the second core is in the same place in the first one. -/
structure NoneNew (c c' : Core) : Prop where
  register : ∀ r, (c'.registers.get r).IsWide → c'.registers.get r = c.registers.get r
  cell : ∀ a, (c'.memory.cell a).IsWide → c'.memory.cell a = c.memory.cell a
  stack : c'.stack = c.stack

variable {c : Core} {l : Location} {w x : Word}

lemma get_write (c : Core) (l : Location) (w : Word) (r : Reg) :
    (c.write l w).registers.get r = w ∨ (c.write l w).registers.get r = c.registers.get r := by
  cases l with
  | cell a => exact .inr rfl
  | reg s =>
    by_cases hs : s = r
    · subst hs
      exact .inl (c.registers.get_set_self s w)
    · exact .inr (c.registers.get_set_of_ne w hs)

lemma cell_write (c : Core) (l : Location) (w : Word) (a : Address) :
    (c.write l w).memory.cell a = w ∨ (c.write l w).memory.cell a = c.memory.cell a := by
  cases l with
  | reg r => exact .inr rfl
  | cell b =>
    by_cases hb : b = a
    · subst hb
      exact .inl (c.memory.cell_set_self b w)
    · exact .inr (c.memory.cell_set_of_ne w hb)

namespace Holds

lemma of_goto (h : (c.goto w).Holds x) : c.Holds x := by
  cases h with
  | register r => exact .register r
  | cell a => exact .cell a
  | entry h => exact .entry h

lemma of_write (h : (c.write l w).Holds x) : c.Holds x ∨ x = w := by
  cases h with
  | register r =>
    obtain hw | hkept := c.get_write l w r
    · exact .inr hw
    · rw [hkept]
      exact .inl (.register r)
  | cell a =>
    obtain hw | hkept := c.cell_write l w a
    · exact .inr hw
    · rw [hkept]
      exact .inl (.cell a)
  | entry h =>
    rw [stack_write] at h
    exact .inl (.entry h)

lemma of_push (h : (c.push w).Holds x) : c.Holds x ∨ x = w := by
  cases h with
  | register r => exact .inl (.register r)
  | cell a => exact .inl (.cell a)
  | entry h =>
    rw [stack_push, Stack.toList_push, List.mem_append, List.mem_singleton] at h
    exact h.imp_left .entry

lemma of_pop (h : c.pop.Holds x) : c.Holds x := by
  cases h with
  | register r => exact .register r
  | cell a => exact .cell a
  | entry h =>
    rw [stack_pop, Stack.toList_pop] at h
    exact .entry ((List.dropLast_sublist _).subset h)

end Holds

end Core

/-- The word that an update puts somewhere, if it puts one. -/
def Update.placed? (next : Word) : Update → Option Word
  | .store _ w | .push w | .pop _ w => some w
  | .call _                         => some next
  | .pass | .jump _ | .ret _        => none

/-- After an update there is no word but those before and the one that was placed. -/
lemma Core.Holds.of_apply {c : Core} {next x : Word} {u : Update} (h : (c.apply next u).Holds x) :
    c.Holds x ∨ u.placed? next = some x := by
  cases u with
  | pass => exact .inl h.of_goto
  | store l w => exact h.of_goto.of_write.imp_right fun e => congrArg some e.symm
  | push w => exact h.of_goto.of_push.imp_right fun e => congrArg some e.symm
  | pop l w => exact h.of_goto.of_pop.of_write.imp_right fun e => congrArg some e.symm
  | jump a => exact .inl h.of_goto
  | call a => exact h.of_goto.of_push.imp_right fun e => congrArg some e.symm
  | ret a => exact .inl h.of_goto.of_pop

/-! ### Words that are placed -/

namespace Instruction

/-- The value that an instruction places as it is, if it places one. -/
def moved? : Instruction → Option Value
  | set _ v | push v | wmem _ v => some v
  | _                           => none

/-- Whether the instruction combines, compares, inverts or reads. -/
def computes : Instruction → Bool
  | binary _ _ _ _ | not _ _ | read _ => true
  | _                                 => false

lemma exists_valueOperand {op : Opcode} {x y z : Word} {i : Instruction} {v : Value}
    (h : decode op x y z = .ok i) (hv : i.moved? = some v) : ∃ w, valueOperand w = .ok v := by
  cases opcode_of_decode h
  cases i with
  | push =>
    obtain ⟨a, ha, h⟩ := bind_eq_ok_iff.mp h
    cases h
    cases hv
    exact ⟨x, ha⟩
  | set | wmem =>
    obtain ⟨a, -, h⟩ := bind_eq_ok_iff.mp h
    obtain ⟨b, hb, h⟩ := bind_eq_ok_iff.mp h
    cases h
    cases hv
    exact ⟨y, hb⟩
  | _ => cases hv

/-- A literal has no more bits than a value. -/
lemma not_isWide_of_valueOperand {w x : Word} (h : valueOperand w = .ok (.imm x)) :
    ¬ x.IsWide := by
  simp only [valueOperand, Value.decode] at h
  split at h
  · next hlit =>
    cases h
    exact Word.not_isWide_of_lt hlit
  · split at h <;> cases h

end Instruction

namespace Core

variable {c : Core} {i : Instruction} {v : Value} {next w : Word} {u : Update}

lemma holds_of_top (h : c.top = .ok w) : c.Holds w := by
  have htop := top?_of_top h
  rw [Stack.top?_eq] at htop
  exact .entry (List.mem_of_getLast? htop)

/-- A wide value of an instruction is not in the instruction, but in a register. -/
lemma holds_value (hf : c.fetch = .ok i) (hv : i.moved? = some v) (hw : (c.value v).IsWide) :
    c.Holds (c.value v) := by
  obtain ⟨op, x, y, z, h⟩ := exists_decode_of_fetch hf
  obtain ⟨w', hw'⟩ := Instruction.exists_valueOperand h hv
  cases v with
  | reg r => exact .register r
  | imm w => exact absurd hw (Instruction.not_isWide_of_valueOperand hw')

/-- A call in the last two cells. -/
def CallsAtEnd (c : Core) : Prop := c.pc = 32766 ∧ ∃ v, c.fetch = .ok (.call v)

lemma eq_of_isWide_next (hf : c.fetch = .ok (.call v)) (hw : (c.pc + UInt16.ofNat 2).IsWide) :
    c.pc + UInt16.ofNat 2 = 32768 ∧ c.CallsAtEnd := by
  have hlast : c.pc.toNat + 2 ≤ memorySize := pc_add_width_le hf
  have hpc : c.pc.toNat < memorySize := Nat.lt_of_lt_of_le (Nat.lt_add_of_pos_right Nat.two_pos) hlast
  -- the call lies in memory, but the address behind it is wide: that leaves one place
  rw [Word.IsWide, Word.toNat_add_ofNat hpc (by decide)] at hw
  have hpc' : c.pc = 32766 := by
    apply UInt16.toNat_inj.mp
    simp only [memorySize, modulus] at hlast hw
    have hend : (32766 : Word).toNat = 32766 := rfl
    omega
  exact ⟨by rw [hpc']; rfl, hpc', v, hf⟩

/-- A wide word that is placed was held before, or it is the address behind the last cell. -/
lemma holds_of_placed (hp : c.plan = .ok (next, .update u)) (hu : u.placed? next = some w)
    (hw : w.IsWide) : c.Holds w ∨ w = 32768 ∧ c.CallsAtEnd := by
  obtain ⟨i, hf, ha, rfl⟩ := plan_eq_ok_iff.mp hp
  cases ActRule.of_act ha with
  | set dst v =>
    cases hu
    exact .inl (holds_value hf rfl hw)
  | push v =>
    cases hu
    exact .inl (holds_value hf rfl hw)
  | pop htop hl =>
    cases hu
    exact .inl (holds_of_top htop)
  | binary heval =>
    cases hu
    exact absurd hw (BinaryOp.not_isWide_eval? heval)
  | not a =>
    cases hu
    exact absurd hw (Word.not_isWide_complement _)
  | rmem =>
    cases hu
    exact .inl (.cell _)
  | wmem x =>
    cases hu
    exact .inl (holds_value hf rfl hw)
  | call =>
    cases hu
    exact .inr (eq_of_isWide_next hf hw)
  | jmp | jtTaken | jtPassed | jfTaken | jfPassed | ret | noop => cases hu

end Core

/-! ### Steps -/

/-- A wide word that a machine holds after a step was held before, or the step is a call in the last
two cells and the word is the address behind them. -/
theorem StepRule.holds {m m' : Machine} {r : Except Fault Step} (h : StepRule m r m') {w : Word}
    (hw : w.IsWide) (hm' : m'.core.Holds w) :
    m.core.Holds w ∨ w = 32768 ∧ m.core.CallsAtEnd := by
  cases h with
  | stopped | refused | halt | unprinted | unread | rejected => exact .inl hm'
  | update h hp =>
    obtain hbefore | hplaced := hm'.of_apply
    · exact .inl hbefore
    · exact Core.holds_of_placed hp hplaced hw
  | printed => exact .inl hm'.of_goto
  | read h hp hc hword =>
    obtain hbefore | heq := hm'.of_goto.of_write
    · exact .inl hbefore
    · exact absurd (heq ▸ hw) (Word.not_isWide_of_ofChar? hword)

lemma Core.noneNew_store {c : Core} {l : Location} {w : Word} (hw : ¬ w.IsWide) (next : Word) :
    c.NoneNew (c.apply next (.store l w)) := by
  constructor
  · intro r hr
    exact (c.get_write l w r).resolve_left fun heq => hw (heq ▸ hr)
  · intro a ha
    exact (c.cell_write l w a).resolve_left fun heq => hw (heq ▸ ha)
  · exact c.stack_write l w

lemma Core.NoneNew.refl (c : Core) : c.NoneNew c := ⟨fun _ _ => rfl, fun _ _ => rfl, rfl⟩

/-- Instructions that compute leave each wide word where it was, and put none elsewhere. -/
theorem StepRule.noneNew {m m' : Machine} {r : Except Fault Step} (h : StepRule m r m')
    {i : Instruction} (hf : m.core.fetch = .ok i) (hi : i.computes = true) :
    m.core.NoneNew m'.core := by
  cases h with
  | stopped | refused | halt | unprinted | unread | rejected => exact .refl m.core
  | update h hp =>
    obtain ⟨i', hf', ha, -⟩ := Core.plan_eq_ok_iff.mp hp
    cases hf.symm.trans hf'
    -- of the instructions that compute, only these two change the core alone
    cases ActRule.of_act ha with
    | binary heval => exact Core.noneNew_store (BinaryOp.not_isWide_eval? heval) _
    | not a => exact Core.noneNew_store (Word.not_isWide_complement _) _
    | _ => cases hi
  | printed h hp =>
    obtain ⟨i', hf', ha, -⟩ := Core.plan_eq_ok_iff.mp hp
    cases hf.symm.trans hf'
    cases ActRule.of_act ha
    cases hi
  | read h hp hc hword => exact Core.noneNew_store (Word.not_isWide_of_ofChar? hword) _

namespace Machine

/-! ### Operations -/

/-- Each wide word of the second machine is held by the first one, or it is the address behind the
last cell. -/
def Inherits (m m' : Machine) : Prop :=
  ∀ w : Word, w.IsWide → m'.core.Holds w → m.core.Holds w ∨ w = 32768

variable {m m' m'' : Machine}

lemma Inherits.refl (m : Machine) : m.Inherits m := fun _ _ h => .inl h

lemma Inherits.trans (h : m.Inherits m') (h' : m'.Inherits m'') : m.Inherits m'' := by
  intro w hw hm
  obtain hm' | heq := h' w hw hm
  · exact h w hw hm'
  · exact .inr heq

lemma inherits_after (m : Machine) (n : Nat) : m.Inherits (m.after n) := by
  induction n generalizing m with
  | zero => exact .refl m
  | succ n ih =>
    have hstep : m.Inherits m.step.machine :=
      fun w hw hm => (m.stepRule.holds hw hm).imp_right And.left
    exact hstep.trans (ih m.step.machine)

/-- Unless the core is changed from outside, no operation brings other wide words. -/
lemma inherits_operate {op : Operation} (h : ∀ f, op ≠ .edit f) : m.Inherits (m.operate op) := by
  cases op with
  | step => exact m.inherits_after 1
  | run t n =>
    rw [operate, machine_run]
    exact m.inherits_after _
  | edit f => exact absurd rfl (h f)
  | queueInput | attachSource | attachSink => exact .refl m

theorem inherits_operateAll (m : Machine) {ops : List Operation} (h : ∀ f, .edit f ∉ ops) :
    m.Inherits (m.operateAll ops) := by
  induction ops generalizing m with
  | nil =>
    rw [operateAll_nil]
    exact .refl m
  | cons op ops ih =>
    have hop : ∀ f, op ≠ .edit f := fun f => (List.ne_of_not_mem_cons (h f)).symm
    have hops : ∀ f, .edit f ∉ ops := fun f => List.not_mem_of_not_mem_cons (h f)
    rw [operateAll_cons]
    exact (inherits_operate hop).trans (ih (m.operate op) hops)

lemma mem_of_load {program : List Word} (h : load program = .ok m) {w : Word} (hw : w.IsWide)
    (hm : m.core.Holds w) : w ∈ program := by
  obtain ⟨-, rfl⟩ := load_eq_ok_iff.mp h
  cases hm with
  | register r =>
    rw [Registers.get_zero] at hw
    exact absurd hw (by decide)
  | cell a =>
    rw [Memory.cell_ofList, List.getD_eq_getElem?_getD] at hw ⊢
    cases hword : program[a.val]? with
    | some word => exact List.mem_of_getElem? hword
    | none =>
      rw [hword] at hw
      exact absurd hw (by decide)
  | entry h => cases h

/-- However long a program runs and whatever it reads, each wide word in the machine stood in the
program or is the address behind the last cell. That address comes from a call in the last two
cells, and instructions that compute bring no wide word. -/
theorem wide_words_of_load {program : List Word} {m : Machine} (h : load program = .ok m)
    {ops : List Operation} (hops : ∀ f, .edit f ∉ ops) :
    (∀ w : Word, w.IsWide → (m.operateAll ops).core.Holds w → w ∈ program ∨ w = 32768) ∧
    (∀ (m : Machine) (w : Word), w.IsWide → m.step.machine.core.Holds w →
      m.core.Holds w ∨ w = 32768 ∧ m.core.CallsAtEnd) ∧
    ∀ (m : Machine) (i : Instruction), m.core.fetch = .ok i → i.computes = true →
      m.core.NoneNew m.step.machine.core := by
  refine ⟨?_, ?_, ?_⟩
  · intro w hw hm
    exact (m.inherits_operateAll hops w hw hm).imp_left (mem_of_load h hw)
  · exact fun m w hw hm => m.stepRule.holds hw hm
  · exact fun m i hf hi => m.stepRule.noneNew hf hi

/-- A wide word of the program gets into a register. -/
theorem wide_words_of_load_loader :
    load [15, 32768, 3, 40000] = .ok loader ∧
      (loader.operateAll [.step]).core.registers.get ⟨0⟩ = 40000 ∧ Word.IsWide 40000 ∧
      ((40000 : Word) ∈ [15, 32768, 3, 40000] ∨ (40000 : Word) = 32768) := by
  have hload : load [15, 32768, 3, 40000] = .ok loader := load_eq_setFrom (by decide)
  have hops : ∀ f, Operation.edit f ∉ [Operation.step] := by simp
  have hget : (loader.operateAll [.step]).core.registers.get ⟨0⟩ = 40000 := rfl
  obtain ⟨horigin, -, -⟩ := wide_words_of_load hload hops
  refine ⟨hload, hget, by decide, horigin _ (by decide) ?_⟩
  rw [← hget]
  exact .register ⟨0⟩

end Machine

end WordMachine
