import WordMachine.Proofs.Update

/-!
# Cells that are not read

A step reads the cells of its instruction, and an `rmem` reads one more. What stands in any other
cell makes no difference to the step: it comes to the same, and leaves that cell alone or writes the
same word to it. So a cell that is not read before it is written makes no difference to a run.
-/

namespace WordMachine

/-! ### What is read and written -/

namespace Core

variable (c : Core)

/-- The addresses of the words that are read for the instruction at `pc`: those of its number and its
operands, or of the number alone if it is that of no instruction. Where the reading goes beyond the
last cell, it ends, and so do the cells. -/
def fetched : List Word :=
  match c.fetchWord c.pc >>= Opcode.decode with
  | .ok op   => (List.range op.width).map fun k => c.pc + UInt16.ofNat k
  | .error _ => [c.pc]

/-- The address that an `rmem` at `pc` reads from. -/
def loaded : List Word :=
  match c.fetch with
  | .ok (.rmem _ address) => [c.value address]
  | _                     => []

end Core

/-- The target that an instruction writes to. -/
def Instruction.destination? (c : Core) : Instruction → Option Target
  | .set dst _ => some (.reg dst)
  | .pop dst | .binary _ dst _ _ | .not dst _ | .rmem dst _ | .read dst => some dst
  | .wmem address _ => some (.memory (c.value address))
  | _ => none

/-- The place that an update puts a word into. -/
def Update.location? : Update → Option Location
  | .store l _ | .pop l _ => some l
  | _                     => none

/-- The place that an action puts a word into. -/
def Action.location? : Action → Option Location
  | .update u => u.location?
  | .read l   => some l
  | _         => none

namespace Machine

/-- The next step reads the cell, as a part of the instruction or for an `rmem`. -/
def Consults (m : Machine) (x : Address) : Prop :=
  m.halted = false ∧ Word.ofAddress x ∈ m.core.fetched ++ m.core.loaded

instance (m : Machine) (x : Address) : Decidable (m.Consults x) :=
  inferInstanceAs (Decidable (_ ∧ _))

/-- The next step succeeds, and its instruction writes the cell. -/
def Writes (m : Machine) (x : Address) : Prop :=
  (∃ s, m.step.result = .ok s) ∧
    ∃ i, m.Decodes i ∧ i.destination? m.core = some (.memory (Word.ofAddress x))

/-- In a number of steps, the cell is not read up to and including the first step that writes it. -/
def Unread (m : Machine) (x : Address) (n : Nat) : Prop :=
  ∀ j < n, (∀ i < j, ¬ (m.after i).Writes x) → ¬ (m.after j).Consults x

/-- The same machine with another word in a cell. -/
def poke (m : Machine) (x : Address) (v : Word) : Machine :=
  m.modifyCore fun c => c.write (.cell x) v

/-- The same but for what stands in a cell. -/
structure SameBut (x : Address) (m m' : Machine) : Prop where
  registers : m'.core.registers = m.core.registers
  stack : m'.core.stack = m.core.stack
  pc : m'.core.pc = m.core.pc
  console : m'.console = m.console
  cycles : m'.cycles = m.cycles
  halted : m'.halted = m.halted
  cell : ∀ y, y ≠ x → m'.core.memory.cell y = m.core.memory.cell y

end Machine

/-! ### Addresses and locations -/

lemma Word.ofAddress_eq_iff {x : Address} {w : Word} : ofAddress x = w ↔ w.toNat = x.val := by
  rw [← UInt16.toNat_inj, toNat_ofAddress]
  exact eq_comm

lemma Core.addressOf_eq_ok_iff {w : Word} {a : Address} :
    addressOf w = .ok a ↔ w = Word.ofAddress a := by
  constructor
  · intro h
    by_cases hw : w.toNat < memorySize
    · rw [addressOf, Word.address_of_lt hw] at h
      cases h
      exact (Word.ofAddress_eq_iff.mpr rfl).symm
    · rw [addressOf, Word.address_of_le (Nat.le_of_not_lt hw)] at h
      cases h
  · rintro rfl
    rw [addressOf, Word.address_ofAddress]
    rfl

lemma Target.locate_eq_cell_iff {t : Target} {l : Location} {a : Address} (h : t.locate = .ok l) :
    l = .cell a ↔ t = .memory (Word.ofAddress a) := by
  cases t with
  | reg r =>
    cases h
    exact ⟨nofun, nofun⟩
  | memory w =>
    cases hw : w.address with
    | error e =>
      rw [locate, hw] at h
      cases h
    | ok b =>
      have hb : w = Word.ofAddress b := Core.addressOf_eq_ok_iff.mp (by rw [Core.addressOf, hw]; rfl)
      rw [locate, hw] at h
      cases h
      subst hb
      constructor
      · intro e
        cases e
        rfl
      · intro e
        rw [Target.memory.injEq, Word.ofAddress_eq_iff, Word.toNat_ofAddress] at e
        rw [Fin.ext e]

/-- A cell is written by the action of an instruction if it is the target of the instruction. -/
lemma ActRule.location_iff {c : Core} {i : Instruction} {action : Action} {x : Address}
    (h : ActRule c i action) :
    action.location? = some (.cell x) ↔
      i.destination? c = some (.memory (Word.ofAddress x)) := by
  cases h with
  | pop _ hl | binary _ hl | not _ hl | rmem _ hl | read hl =>
    simp only [Action.location?, Update.location?, Instruction.destination?, Option.some.injEq]
    exact Target.locate_eq_cell_iff hl
  | wmem _ ha =>
    simp only [Action.location?, Update.location?, Instruction.destination?, Option.some.injEq]
    refine Target.locate_eq_cell_iff (?_ : (Target.memory _).locate = _)
    rw [Core.addressOf_eq_ok_iff.mp ha, Target.locate, Word.address_ofAddress]
    rfl
  | _ =>
    constructor
    · intro e
      cases e
    · intro e
      cases e

lemma Action.location?_of_update? {con : Console} {action : Action} {u : Update}
    (h : action.update? con = some u) : u.location? = action.location? := by
  obtain rfl | ⟨c, rfl, rfl⟩ | ⟨l, w, rfl, rfl⟩ := update?_cases h <;> rfl

namespace Machine

variable {m : Machine} {x : Address} {v : Word}

/-- A cell is written if the update of the step puts a word there. -/
lemma writes_iff :
    m.Writes x ↔ ∃ next u, m.update? = some (next, u) ∧ u.location? = some (.cell x) := by
  constructor
  · rintro ⟨⟨s, hok⟩, i, hi, hx⟩
    obtain ⟨action, ha⟩ := hi.exists_act hok
    have hplan := hi.plan_of_act ha
    rw [← (ActRule.of_act ha).location_iff] at hx
    have hhalt : action ≠ .halt := by
      rintro rfl
      cases hx
    rw [(step_of_plan hi.1 hplan).1] at hok
    obtain ⟨u, hu⟩ := exists_update?_of_perform hok hhalt
    refine ⟨m.core.pc + UInt16.ofNat i.width, u, ?_, ?_⟩
    · rw [update?_of_plan hi.1 hplan, hu]
      rfl
    · rw [Action.location?_of_update? hu, hx]
  · rintro ⟨next, u, hu, hx⟩
    obtain ⟨action, hh, hp, hau⟩ := exists_plan_of_update? hu
    obtain ⟨i, hf, ha, -⟩ := Core.plan_eq_ok_iff.mp hp
    rw [Action.location?_of_update? hau, (ActRule.of_act ha).location_iff] at hx
    exact ⟨⟨_, result_of_update? hu⟩, i, ⟨hh, hf⟩, hx⟩

end Machine

/-! ### One step -/

namespace Memory

variable (m : Memory) (a : Address) (v w : Word)

lemma set_set : (m.set a v).set a w = m.set a w := by
  simp only [set, Vector.set_set]

lemma set_comm {a b : Address} (h : a ≠ b) : (m.set a v).set b w = (m.set b w).set a v :=
  congrArg mk (m.cells.set_comm v w (Fin.val_ne_of_ne h))

end Memory

namespace Core

variable {c : Core} {x : Address} {v w next : Word} {u : Update} {i : Instruction}

lemma fetchWord_write (h : w ≠ Word.ofAddress x) :
    (c.write (.cell x) v).fetchWord w = c.fetchWord w := by
  by_cases hw : w.toNat < memorySize
  · have hne : x ≠ ⟨w.toNat, hw⟩ := by
      rintro rfl
      exact h (Word.ofAddress_eq_iff.mpr rfl).symm
    rw [fetchWord, fetchWord, Memory.get_of_lt _ hw, Memory.get_of_lt _ hw, memory_write_cell,
      Memory.cell_set_of_ne _ _ hne]
  · rw [fetchWord, fetchWord, Memory.get_of_le _ (Nat.le_of_not_lt hw),
      Memory.get_of_le _ (Nat.le_of_not_lt hw)]

/-- What stands in a cell that is not read makes no difference to the instruction. -/
lemma fetch_write (h : Word.ofAddress x ∉ c.fetched) :
    (c.write (.cell x) v).fetch = c.fetch := by
  rw [fetch, fetch, pc_write]
  cases hw : c.fetchWord c.pc with
  | error e =>
    simp only [fetched, hw, error_bind, List.mem_singleton] at h
    rw [fetchWord_write (Ne.symm h), hw]
    rfl
  | ok w =>
    cases hop : Opcode.decode w with
    | error e =>
      simp only [fetched, hw, hop, ok_bind, List.mem_singleton] at h
      rw [fetchWord_write (Ne.symm h), hw, ok_bind, ok_bind, hop]
      rfl
    | ok op =>
      simp only [fetched, hw, hop, ok_bind, List.mem_map, List.mem_range, not_exists, not_and] at h
      have hword : ∀ k ≤ op.arity, (c.write (.cell x) v).fetchWord (c.pc + UInt16.ofNat k) =
          c.fetchWord (c.pc + UInt16.ofNat k) := fun k hk =>
        fetchWord_write (h k (Nat.lt_succ_of_le hk))
      have hnumber := hword 0 (Nat.zero_le _)
      rw [show UInt16.ofNat 0 = 0 from rfl, UInt16.add_zero, hw] at hnumber
      have hoperand : ∀ k, (if k ≤ op.arity then
          (c.write (.cell x) v).fetchWord (c.pc + UInt16.ofNat k) else .ok 0) =
          (if k ≤ op.arity then c.fetchWord (c.pc + UInt16.ofNat k) else .ok 0) := by
        intro k
        split
        · next hk => exact hword k hk
        · rfl
      simp only [hnumber, hop, ok_bind, hoperand]

lemma act_write (h : ∀ dst address, i = .rmem dst address → c.value address ≠ Word.ofAddress x) :
    (c.write (.cell x) v).act i = c.act i := by
  cases i with
  | rmem dst address =>
    have hvalue : (c.write (.cell x) v).value address = c.value address := rfl
    rw [act, act, hvalue]
    cases ha : addressOf (c.value address) with
    | error e => rfl
    | ok a =>
      have hne : x ≠ a := by
        rintro rfl
        exact h dst address rfl (addressOf_eq_ok_iff.mp ha)
      rw [ok_bind, ok_bind, memory_write_cell, Memory.cell_set_of_ne _ _ hne]
  | _ => rfl

lemma plan_write (hf : Word.ofAddress x ∉ c.fetched) (hl : Word.ofAddress x ∉ c.loaded) :
    (c.write (.cell x) v).plan = c.plan := by
  refine plan_congr (pc_write ..) (fetch_write hf) ?_
  intro i hi
  apply act_write
  rintro dst address rfl
  simp only [loaded, hi, List.mem_singleton] at hl
  exact Ne.symm hl

lemma apply_write_of_ne (h : u.location? ≠ some (.cell x)) :
    (c.write (.cell x) v).apply next u = (c.apply next u).write (.cell x) v := by
  cases u with
  | store l w | pop l w =>
    cases l with
    | reg r => rfl
    | cell a =>
      have hne : x ≠ a := by
        rintro rfl
        exact h rfl
      simp only [apply, write, goto, pop, Memory.set_comm _ _ _ hne]
  | _ => rfl

lemma apply_write_self (h : u.location? = some (.cell x)) :
    (c.write (.cell x) v).apply next u = c.apply next u := by
  cases u with
  | store l w | pop l w =>
    cases h
    simp only [apply, write, goto, pop, Memory.set_set]
  | _ => cases h

lemma cell_apply (h : u.location? ≠ some (.cell x)) :
    (c.apply next u).memory.cell x = c.memory.cell x := by
  cases u with
  | store l w | pop l w =>
    cases l with
    | reg r => rfl
    | cell a =>
      have hne : a ≠ x := by
        rintro rfl
        exact h rfl
      exact Memory.cell_set_of_ne _ _ hne
  | _ => rfl

end Core

namespace Machine

variable {m : Machine} {x : Address} {v : Word}

lemma plan_poke (h : ¬ m.Consults x) (hm : m.halted = false) :
    (m.poke x v).core.plan = m.core.plan := by
  have hread : Word.ofAddress x ∉ m.core.fetched ++ m.core.loaded := fun hx => h ⟨hm, hx⟩
  rw [List.mem_append, not_or] at hread
  exact Core.plan_write hread.1 hread.2

/-- A step that neither reads nor writes a cell leaves it as it is, and would do so with anything
else in it. -/
lemma step_poke_of_not_writes (h : ¬ m.Consults x) (hw : ¬ m.Writes x) :
    (m.poke x v).step.result = m.step.result ∧
      (m.poke x v).step.machine = m.step.machine.poke x v := by
  refine step_modifyCore (plan_poke h) ?_
  cases hu : m.update? with
  | none => rfl
  | some p => exact Core.apply_write_of_ne fun hx => hw (writes_iff.mpr ⟨p.1, p.2, hu, hx⟩)

/-- After a step that writes a cell without reading it, it makes no difference any more what was
there. -/
lemma step_poke_of_writes (h : ¬ m.Consults x) (hw : m.Writes x) :
    (m.poke x v).step.result = m.step.result ∧ (m.poke x v).step.machine = m.step.machine := by
  refine step_modifyCore (g := id) (plan_poke h) ?_
  obtain ⟨next, u, hu, hx⟩ := writes_iff.mp hw
  rw [hu]
  exact Core.apply_write_self hx

lemma cell_step (hw : ¬ m.Writes x) :
    m.step.machine.core.memory.cell x = m.core.memory.cell x := by
  rw [core_step]
  cases hu : m.update? with
  | none => rfl
  | some p => exact Core.cell_apply fun hx => hw (writes_iff.mpr ⟨p.1, p.2, hu, hx⟩)

/-! ### Runs -/

lemma cell_after {n : Nat} (h : ∀ j < n, ¬ (m.after j).Writes x) :
    (m.after n).core.memory.cell x = m.core.memory.cell x := by
  induction n with
  | zero => rfl
  | succ n ih =>
    rw [after_succ', cell_step (h n (Nat.lt_succ_self n))]
    exact ih fun j hj => h j (Nat.lt_succ_of_lt hj)

/-- The difference that a cell makes stays in that cell until a step writes it. -/
lemma after_poke {n : Nat} (h : m.Unread x n) :
    (∀ j < n, ¬ (m.after j).Writes x) ∧ (m.poke x v).after n = (m.after n).poke x v ∨
      (∃ j < n, (m.after j).Writes x) ∧ (m.poke x v).after n = m.after n := by
  induction n with
  | zero => exact .inl ⟨nofun, rfl⟩
  | succ n ih =>
    rw [after_succ', after_succ']
    obtain ⟨hnone, heq⟩ | ⟨⟨j, hj, hw⟩, heq⟩ := ih fun j hj => h j (Nat.lt_succ_of_lt hj)
    · have hread := h n (Nat.lt_succ_self n) hnone
      rw [heq]
      by_cases hw : (m.after n).Writes x
      · exact .inr ⟨⟨n, Nat.lt_succ_self n, hw⟩, (step_poke_of_writes hread hw).2⟩
      · refine .inl ⟨?_, (step_poke_of_not_writes hread hw).2⟩
        intro j hj
        obtain hlt | rfl := Nat.lt_succ_iff_lt_or_eq.mp hj
        · exact hnone j hlt
        · exact hw
    · rw [heq]
      exact .inr ⟨⟨j, Nat.lt_succ_of_lt hj, hw⟩, rfl⟩

lemma Unread.mono {k n : Nat} (h : m.Unread x n) (hk : k ≤ n) : m.Unread x k :=
  fun j hj => h j (Nat.lt_of_lt_of_le hj hk)

lemma result_after_poke {k n : Nat} (h : m.Unread x n) (hk : k < n) :
    ((m.poke x v).after k).step.result = (m.after k).step.result := by
  obtain ⟨hnone, heq⟩ | ⟨-, heq⟩ := after_poke (v := v) (h.mono (Nat.le_of_lt hk))
  · have hread := h k hk hnone
    rw [heq]
    by_cases hw : (m.after k).Writes x
    · exact (step_poke_of_writes hread hw).1
    · exact (step_poke_of_not_writes hread hw).1
  · rw [heq]

lemma sameBut_poke (m : Machine) (x : Address) (v : Word) : SameBut x m (m.poke x v) where
  registers := rfl
  stack := rfl
  pc := rfl
  console := rfl
  cycles := rfl
  halted := rfl
  cell _ hy := m.core.memory.cell_set_of_ne v hy.symm

/-- A cell that is not read before it is written makes no difference to a run: whatever word is put
there, each step comes to the same, and the machines are the same but for this cell. There they agree
once a step has written it, and before that each has the word it had at first. -/
theorem run_of_unread {n : Nat} (h : m.Unread x n) (v : Word) :
    (∀ k < n, ((m.poke x v).after k).step.result = (m.after k).step.result) ∧
    ∀ k ≤ n, SameBut x (m.after k) ((m.poke x v).after k) ∧
      ((∃ j < k, (m.after j).Writes x) →
        ((m.poke x v).after k).core.memory.cell x = (m.after k).core.memory.cell x) ∧
      ((∀ j < k, ¬ (m.after j).Writes x) →
        (m.after k).core.memory.cell x = m.core.memory.cell x ∧
          ((m.poke x v).after k).core.memory.cell x = v) := by
  refine ⟨fun k hk => result_after_poke h hk, ?_⟩
  intro k hk
  obtain ⟨hnone, heq⟩ | ⟨⟨j, hj, hw⟩, heq⟩ := after_poke (v := v) (h.mono hk)
  · rw [heq]
    refine ⟨sameBut_poke _ x v, ?_, ?_⟩
    · rintro ⟨j, hj, hw⟩
      exact absurd hw (hnone j hj)
    · intro _
      exact ⟨cell_after hnone, Memory.cell_set_self _ x v⟩
  · rw [heq]
    refine ⟨⟨rfl, rfl, rfl, rfl, rfl, rfl, fun _ _ => rfl⟩, fun _ => rfl, ?_⟩
    intro hnone
    exact absurd hw (hnone j hj)

/-- A machine that jumps over a cell, writes it, and then reads it. -/
def overwriter : Machine where
  core := { memory := (Memory.zero.setFrom 0 [6, 3, 0, 16, 2, 65, 15, 32768, 2]).2 }

theorem run_of_unread_overwriter :
    overwriter.Unread 2 3 ∧
      ((overwriter.poke 2 99).after 1).core.memory.cell 2 = 99 ∧
      ((overwriter.poke 2 99).after 3).core.memory.cell 2 = 65 ∧
      ((overwriter.poke 2 99).after 3).core.registers = (overwriter.after 3).core.registers := by
  have hwrites : (overwriter.after 1).Writes 2 :=
    ⟨⟨.continued, rfl⟩, .wmem (.imm 2) (.imm 65), ⟨rfl, rfl⟩, rfl⟩
  have hunread : overwriter.Unread 2 3 := by
    intro j hj hnone
    match j, hj with
    | 0, _ => decide +kernel
    | 1, _ => decide +kernel
    | 2, _ => exact absurd hwrites (hnone 1 (Nat.lt_succ_self 1))
  obtain ⟨-, hrun⟩ := run_of_unread hunread 99
  have hkept : ∀ j < 1, ¬ (overwriter.after j).Writes 2 := by
    intro j hj hw
    cases Nat.lt_one_iff.mp hj
    obtain ⟨next, u, hu, hx⟩ := writes_iff.mp hw
    have hjump : overwriter.update? = some (2, .jump 3) := rfl
    rw [after_zero, hjump] at hu
    cases hu
    cases hx
  obtain ⟨-, -, hbefore⟩ := hrun 1 (by decide)
  obtain ⟨hsame, hafter, -⟩ := hrun 3 (by decide)
  refine ⟨hunread, (hbefore hkept).2, ?_, hsame.registers⟩
  rw [hafter ⟨1, by decide, hwrites⟩]
  rfl

end Machine

end WordMachine
