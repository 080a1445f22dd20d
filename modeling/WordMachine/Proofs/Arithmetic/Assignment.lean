import WordMachine.Proofs.Arithmetic.Residue
import WordMachine.Proofs.Input.Conservation
import WordMachine.Proofs.Update

/-!
# Arithmetic of the machine

A step that combines two values stores the result of the operation and lets the machine go on; only
`mod` can fail. Steps that add and multiply, one after the other, compute with the residues of all
places as with integers modulo `modulus`, so that every law of commutative rings holds of what they
store.
-/

namespace WordMachine

/-! ### Places -/

lemma Core.look_write_of_ne (c : Core) {l l' : Location} (w : Word) (h : l' ≠ l) :
    (c.write l w).look l' = c.look l' := by
  cases l with
  | cell a =>
    cases l' with
    | cell b => exact c.memory.cell_set_of_ne w fun e => h (congrArg Location.cell e.symm)
    | reg s  => rfl
  | reg r =>
    cases l' with
    | cell b => rfl
    | reg s  => exact c.registers.get_set_of_ne w fun e => h (congrArg Location.reg e.symm)

lemma Core.look_store_self (c : Core) (next : Word) (l : Location) (w : Word) :
    (c.apply next (.store l w)).look l = w := by
  rw [apply, look_goto, look_write_self]

lemma Core.look_store_of_ne (c : Core) {l l' : Location} (next w : Word) (h : l' ≠ l) :
    (c.apply next (.store l w)).look l' = c.look l' := by
  rw [apply, look_goto, look_write_of_ne c w h]

namespace Machine

variable {m : Machine} {op : BinaryOp} {dst : Target} {x y : Value} {l : Location}

/-! ### One step -/

lemma Decodes.exists_target (h : m.Decodes (.binary op dst x y)) :
    ∃ l : Location, dst = l.target := by
  apply Target.exists_eq_target
  intro w hw
  exact Core.proper_of_fetch h.2 w (List.mem_append_left _ (List.mem_append_left _ hw))

lemma Decodes.exists_target_not (h : m.Decodes (.not dst x)) :
    ∃ l : Location, dst = l.target := by
  apply Target.exists_eq_target
  intro w hw
  exact Core.proper_of_fetch h.2 w (List.mem_append_left _ hw)

/-- An update that stores a word is carried out as it was settled. -/
lemma Decodes.step_store {i : Instruction} {w : Word} (h : m.Decodes i)
    (ha : m.core.act i = .ok (.update (.store l w))) :
    m.step.result = .ok .continued ∧
      m.step.machine = m.update (m.core.pc + UInt16.ofNat i.width) (.store l w) :=
  step_of_plan h.1 (h.plan_of_act ha)

lemma Decodes.step_binary {w : Word} (h : m.Decodes (.binary op l.target x y))
    (hw : op.eval? (m.core.value x) (m.core.value y) = some w) :
    m.step.result = .ok .continued ∧ m.step.machine = m.update (m.core.pc + 4) (.store l w) := by
  refine h.step_store ?_
  simp only [Core.act, hw, Core.actStore, Location.locate_target, ok_bind]

lemma Decodes.step_binary_error (h : m.Decodes (.binary op l.target x y))
    (hw : op.eval? (m.core.value x) (m.core.value y) = none) :
    m.step.result = .error (.exception .divisionByZero) ∧ m.step.machine = m := by
  refine step_of_plan_error h.1 (h.plan_of_act_error ?_)
  simp only [Core.act, hw]

/-- Two values are combined exactly, unless they are to be divided and the divisor is zero. -/
theorem Decodes.step_binary_cases (h : m.Decodes (.binary op dst x y)) :
    ∃ l : Location, dst = l.target ∧
      (op = .mod ∧ m.core.value y = 0 →
        m.step.result = .error (.exception .divisionByZero) ∧ m.step.machine = m) ∧
      (¬(op = .mod ∧ m.core.value y = 0) →
        ∃ w n, op.eval? (m.core.value x) (m.core.value y) = some w ∧
          op.unreduced? (m.core.value x).toNat (m.core.value y).toNat = some n ∧
          w.toNat = n % modulus ∧ m.step.result = .ok .continued ∧
          m.step.machine.core.look l = w) := by
  obtain ⟨l, rfl⟩ := h.exists_target
  refine ⟨l, rfl, ?_, ?_⟩
  · intro hzero
    exact h.step_binary_error ((BinaryOp.eval?_eq_none_iff _ _ _).mpr hzero)
  · intro hdefined
    rw [← BinaryOp.eval?_eq_none_iff op (m.core.value x)] at hdefined
    obtain ⟨w, hw⟩ := Option.ne_none_iff_exists'.mp hdefined
    have hreduced := hw
    rw [BinaryOp.eval?_eq_map_unreduced?, Option.map_eq_some_iff] at hreduced
    obtain ⟨n, hn, rfl⟩ := hreduced
    obtain ⟨hresult, hmachine⟩ := h.step_binary hw
    refine ⟨Word.wrap n, n, hw, hn, Word.toNat_wrap n, hresult, ?_⟩
    rw [hmachine, core_update, Core.look_store_self]

lemma Decodes.step_not (h : m.Decodes (.not l.target x)) :
    m.step.result = .ok .continued ∧
      m.step.machine = m.update (m.core.pc + 3) (.store l (m.core.value x).complement) := by
  refine h.step_store ?_
  simp only [Core.act, Core.actStore, Location.locate_target, ok_bind]

end Machine

/-! ### Sums and products -/

/-- The operations of a ring. -/
inductive RingOp
  | add
  | mult

namespace RingOp

def toBinaryOp : RingOp → BinaryOp
  | add  => .add
  | mult => .mult

def eval (op : RingOp) (a b : ZMod modulus) : ZMod modulus :=
  match op with
  | add  => a + b
  | mult => a * b

/-- The machine adds and multiplies integers modulo `modulus`. -/
lemma exists_eval? (op : RingOp) (a b : Word) :
    ∃ w, op.toBinaryOp.eval? a b = some w ∧ w.toZMod = op.eval a.toZMod b.toZMod ∧
      w.toNat < modulus := by
  cases op with
  | add =>
    refine ⟨_, rfl, ?_, Word.toNat_wrap_lt _⟩
    exact Option.some.inj (BinaryOp.map_toZMod_add a b)
  | mult =>
    refine ⟨_, rfl, ?_, Word.toNat_wrap_lt _⟩
    exact Option.some.inj (BinaryOp.map_toZMod_mult a b)

end RingOp

/-- A sum or product of two values, and the place where it goes. -/
structure Assignment where
  op : RingOp
  dst : Location
  x : Value
  y : Value

/-- The residues that the places of a core hold. -/
def Core.residues (c : Core) (l : Location) : ZMod modulus := (c.look l).toZMod

def Value.residue (ρ : Location → ZMod modulus) : Value → ZMod modulus
  | .imm w => w.toZMod
  | .reg r => ρ (.reg r)

lemma Value.residue_residues (c : Core) (v : Value) :
    v.residue c.residues = (c.value v).toZMod := by
  cases v <;> rfl

lemma Core.residues_store (c : Core) (next : Word) (l : Location) (w : Word) :
    (c.apply next (.store l w)).residues = Function.update c.residues l w.toZMod := by
  funext l'
  rw [residues]
  by_cases h : l' = l
  · rw [h, look_store_self, Function.update_self]
  · rw [look_store_of_ne c next w h, Function.update_of_ne h, residues]

namespace Assignment

def instruction (s : Assignment) : Instruction := .binary s.op.toBinaryOp s.dst.target s.x s.y

/-- What an assignment does to the integers modulo `modulus` in all places. -/
def run (ρ : Location → ZMod modulus) (s : Assignment) : Location → ZMod modulus :=
  Function.update ρ s.dst (s.op.eval (s.x.residue ρ) (s.y.residue ρ))

end Assignment

namespace Machine

/-- The next steps carry out the given instructions, one after the other. -/
def CarriesOut (m : Machine) : List Instruction → Prop
  | []      => True
  | i :: is => m.Decodes i ∧ m.step.machine.CarriesOut is

variable {m : Machine} {s : Assignment} {ss : List Assignment}

lemma Decodes.step_assignment (h : m.Decodes s.instruction) :
    m.step.result = .ok .continued ∧ m.step.machine.core.residues = s.run m.core.residues ∧
      (m.step.machine.core.look s.dst).toNat < modulus ∧
      ∀ l, l ≠ s.dst → m.step.machine.core.look l = m.core.look l := by
  obtain ⟨w, hw, hring, hlt⟩ := s.op.exists_eval? (m.core.value s.x) (m.core.value s.y)
  obtain ⟨hresult, hmachine⟩ := Decodes.step_binary h hw
  rw [hmachine, core_update]
  refine ⟨hresult, ?_, ?_, ?_⟩
  · rw [Core.residues_store, Assignment.run, Value.residue_residues, Value.residue_residues, hring]
  · rw [Core.look_store_self]
    exact hlt
  · intro l hl
    exact Core.look_store_of_ne _ _ _ hl

/-- Assignments that are carried out one after the other compute with the residues of all places as
with integers modulo `modulus`. -/
theorem CarriesOut.residues_after (h : m.CarriesOut (ss.map Assignment.instruction)) :
    m.results ss.length = List.replicate ss.length (.ok .continued) ∧
      (m.after ss.length).core.residues = ss.foldl Assignment.run m.core.residues := by
  -- the first assignment is taken off, so the machine changes along the induction
  induction ss generalizing m with
  | nil => exact ⟨rfl, rfl⟩
  | cons s ss ih =>
    obtain ⟨hdecodes, hrest⟩ := h
    obtain ⟨hresult, hresidues, -, -⟩ := hdecodes.step_assignment
    obtain ⟨hresults, hafter⟩ := ih hrest
    rw [List.length_cons, results_succ, hresult, hresults, after_succ, hafter, hresidues,
      List.foldl_cons, List.replicate_succ]
    exact ⟨rfl, rfl⟩

/-- What was assigned is a reduced word. -/
lemma CarriesOut.look_after_lt (h : m.CarriesOut (ss.map Assignment.instruction)) {l : Location}
    (hl : (m.core.look l).toNat < modulus ∨ l ∈ ss.map Assignment.dst) :
    ((m.after ss.length).core.look l).toNat < modulus := by
  induction ss generalizing m with
  | nil =>
    rcases hl with hl | hl
    · exact hl
    · cases hl
  | cons s ss ih =>
    obtain ⟨hdecodes, hrest⟩ := h
    obtain ⟨-, -, hdst, hother⟩ := hdecodes.step_assignment
    apply ih hrest
    by_cases hs : l = s.dst
    · rw [hs]
      exact .inl hdst
    · rw [hother l hs]
      rw [List.map_cons, List.mem_cons] at hl
      rcases hl with hl | hl | hl
      · exact .inl hl
      · exact absurd hl hs
      · exact .inr hl

theorem CarriesOut.toNat_look_after (h : m.CarriesOut (ss.map Assignment.instruction))
    {l : Location} (hl : l ∈ ss.map Assignment.dst) :
    ((m.after ss.length).core.look l).toNat = (ss.foldl Assignment.run m.core.residues l).val := by
  rw [← h.residues_after.2, Core.residues, Word.val_toZMod (h.look_after_lt (.inr hl))]

/-- Two inversions, one of the result of the other, leave the residue. -/
theorem CarriesOut.look_not_not {r : Reg} {x : Value} {l : Location}
    (h : m.CarriesOut [.not (.reg r) x, .not l.target (.reg r)]) :
    (m.after 2).core.look l = (m.core.value x).residue := by
  obtain ⟨hfirst, hsecond, -⟩ := h
  obtain ⟨-, hmachine⟩ := Decodes.step_not (l := .reg r) hfirst
  obtain ⟨-, hmachine'⟩ := hsecond.step_not
  have hvalue : m.step.machine.core.value (.reg r) = (m.core.value x).complement := by
    rw [hmachine, core_update]
    exact Core.look_store_self m.core _ (.reg r) _
  show m.step.machine.step.machine.core.look l = _
  rw [hmachine', core_update, Core.look_store_self, hvalue, Word.complement_complement]

/-- A step that combines two values stores the result on integers, reduced, and fails only for a
zero divisor; `not` inverts the lower fifteen bits. Thirty-two bits are enough in between, and `and`
and `or` work bit by bit. Sums, products and bits depend on the residues of the operands only.
Reduced words are the integers modulo `modulus`, with which sums and products are computed that
follow each other. The largest value is minus one, and inversion is an involution that exchanges
`and` and `or`. -/
theorem arithmetic_modulo :
    (∀ (m : Machine) op dst x y, m.Decodes (.binary op dst x y) →
      ∃ l : Location, dst = l.target ∧
        (op = .mod ∧ m.core.value y = 0 →
          m.step.result = .error (.exception .divisionByZero) ∧ m.step.machine = m) ∧
        (¬(op = .mod ∧ m.core.value y = 0) →
          ∃ w n, op.eval? (m.core.value x) (m.core.value y) = some w ∧
            op.unreduced? (m.core.value x).toNat (m.core.value y).toNat = some n ∧
            w.toNat = n % modulus ∧ m.step.result = .ok .continued ∧
            m.step.machine.core.look l = w)) ∧
    (∀ (m : Machine) dst x, m.Decodes (.not dst x) →
      ∃ l : Location, dst = l.target ∧ m.step.result = .ok .continued ∧
        m.step.machine.core.look l = (m.core.value x).complement) ∧
    (∀ (op : BinaryOp) (a b : Word),
      (op.wide? a b).map UInt32.toNat = op.unreduced? a.toNat b.toNat ∧
        op.eval? a b = (op.wide? a b).map fun n => (n % modulus.toUInt32).toUInt16) ∧
    (∀ (a b w : Word) (k : Nat),
      (BinaryOp.and.eval? a b = some w → w.bit k = (decide (k < 15) && (a.bit k && b.bit k))) ∧
        (BinaryOp.or.eval? a b = some w → w.bit k = (decide (k < 15) && (a.bit k || b.bit k))) ∧
        a.complement.bit k = (decide (k < 15) && !a.bit k)) ∧
    (∀ op ∈ [BinaryOp.add, .mult, .and, .or], ∀ a b : Word,
      op.eval? a.residue b = op.eval? a b ∧ op.eval? a b.residue = op.eval? a b) ∧
    (∀ a : Word, a.residue.complement = a.complement ∧ a.complement.complement = a.residue ∧
      (a.toNat < modulus → a.residue = a)) ∧
    Set.BijOn Word.toZMod { w | w.toNat < modulus } Set.univ ∧
    (∀ (m : Machine) (ss : List Assignment), m.CarriesOut (ss.map Assignment.instruction) →
      m.results ss.length = List.replicate ss.length (.ok .continued) ∧
        (m.after ss.length).core.residues = ss.foldl Assignment.run m.core.residues ∧
        ∀ l ∈ ss.map Assignment.dst, ((m.after ss.length).core.look l).toNat =
          (ss.foldl Assignment.run m.core.residues l).val) ∧
    (∀ a w : Word, BinaryOp.add.eval? a valueMask = some w →
      w.toNat = if a.toNat % modulus = 0 then modulus - 1 else a.toNat % modulus - 1) ∧
    (∀ (m : Machine) r x (l : Location), m.CarriesOut [.not (.reg r) x, .not l.target (.reg r)] →
      (m.after 2).core.look l = (m.core.value x).residue) ∧
    ∀ a b : Word,
      (BinaryOp.and.eval? a b).map Word.complement = BinaryOp.or.eval? a.complement b.complement ∧
        (BinaryOp.or.eval? a b).map Word.complement =
          BinaryOp.and.eval? a.complement b.complement := by
  refine ⟨?_, ?_, ?_, ?_, ?_, ?_, Word.bijOn_toZMod, ?_, ?_, ?_, ?_⟩
  · exact fun m op dst x y h => h.step_binary_cases
  · intro m dst x h
    obtain ⟨l, rfl⟩ := h.exists_target_not
    obtain ⟨hresult, hmachine⟩ := h.step_not
    refine ⟨l, rfl, hresult, ?_⟩
    rw [hmachine, core_update, Core.look_store_self]
  · exact fun op a b => ⟨op.map_toNat_wide? a b, op.eval?_eq_map_wide? a b⟩
  · exact fun a b w k => ⟨fun h => BinaryOp.bit_of_and a b h k, fun h => BinaryOp.bit_of_or a b h k,
      Word.bit_complement a k⟩
  · exact fun op hop a b => BinaryOp.eval?_residue a b hop
  · exact fun a => ⟨a.complement_residue, a.complement_complement, Word.residue_of_lt⟩
  · exact fun m ss h => ⟨h.residues_after.1, h.residues_after.2, fun l hl => h.toNat_look_after hl⟩
  · exact fun a w h => BinaryOp.toNat_of_add_valueMask a h
  · exact fun m r x l h => h.look_not_not
  · exact fun a b => ⟨BinaryOp.map_complement_and a b, BinaryOp.map_complement_or a b⟩

/-- A product that needs more than sixteen bits, and less than thirty-two. -/
theorem arithmetic_modulo_multiplier :
    multiplier.Decodes (.binary .mult (.reg ⟨0⟩) (.reg ⟨1⟩) (.reg ⟨1⟩)) ∧
      multiplier.step.result = .ok .continued ∧
      (multiplier.step.machine.core.registers.get ⟨0⟩).toNat = 40000 * 40000 % modulus := by
  have h : multiplier.Decodes (.binary .mult (.reg ⟨0⟩) (.reg ⟨1⟩) (.reg ⟨1⟩)) := ⟨rfl, rfl⟩
  obtain ⟨l, hl, -, hdefined⟩ := arithmetic_modulo.1 _ _ _ _ _ h
  obtain ⟨w, n, -, hn, hw, hresult, hlook⟩ := hdefined (by simp)
  cases l with
  | cell a => cases hl
  | reg r =>
    cases hl
    cases hn
    rw [← hlook] at hw
    exact ⟨h, hresult, hw⟩

end Machine

end WordMachine
