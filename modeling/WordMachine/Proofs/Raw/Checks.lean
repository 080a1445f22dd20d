import WordMachine.Proofs.Cycle
import WordMachine.Proofs.Raw.Interpreter

/-!
# Checks of the interpreter over raw words

Each computation of the interpreter is a check of the machine, seen through what the typed layers
make of a word: that is `Sees`. Checks are carried out in the same order on both sides, so a row of
the table is compared with the plan of the core one check after the other, with `Sees.bind`.
-/

namespace WordMachine.Raw

/-! ### Carrying out -/

section Exec

variable {α β : Type} (m : Machine)

@[simp] lemma exec_pure (a : α) : Run.exec (pure a) m = (.ok a, m) := rfl

@[simp] lemma exec_throw (fault : Fault) :
    Run.exec (throw fault : Run α) m = (.error fault, m) := rfl

@[simp] lemma exec_get : Run.exec (get : Run Machine) m = (.ok m, m) := rfl

@[simp] lemma exec_modify (f : Machine → Machine) :
    Run.exec (modify f : Run PUnit) m = (.ok ⟨⟩, f m) := rfl

lemma exec_bind (x : Run α) (f : α → Run β) :
    Run.exec (x >>= f) m =
      match Run.exec x m with
      | (.ok a, m)        => Run.exec (f a) m
      | (.error fault, m) => (.error fault, m) := by
  simp only [Run.exec, ExceptT.run_bind, StateT.run_bind]
  rcases StateT.run (ExceptT.run x) m with ⟨_ | _, _⟩ <;> rfl

variable {m}

lemma exec_bind_of_ok {x : Run α} {f : α → Run β} {a : α} {m' : Machine}
    (h : Run.exec x m = (.ok a, m')) : Run.exec (x >>= f) m = Run.exec (f a) m' := by
  rw [exec_bind, h]

lemma exec_bind_of_error {x : Run α} {f : α → Run β} {fault : Fault} {m' : Machine}
    (h : Run.exec x m = (.error fault, m')) : Run.exec (x >>= f) m = (.error fault, m') := by
  rw [exec_bind, h]

end Exec

/-! ### Checks -/

/-- A computation does no more than a check of the machine, of whose result it makes something. -/
def Sees {α β : Type} (x : Run α) (m : Machine) (y : Except Exception β) (f : β → α) : Prop :=
  Run.exec x m = ((y.map f).mapError .exception, m)

/-- A plan comes to what the rest of a computation does, if the computation starts with a check that
the plan starts with. -/
lemma Sees.bind {α β : Type} {x : Run α} {m : Machine} {y : Except Exception β} {f : β → α}
    {g : α → Run Step} {k : β → Except Exception (Word × Action)} (h : Sees x m y f)
    (hk : ∀ b, y = .ok b → Run.exec (g (f b)) m = outcome m (k b)) :
    Run.exec (x >>= g) m = outcome m (y >>= k) := by
  cases y with
  | error e => rw [exec_bind_of_error h, error_bind, outcome]
  | ok b    => rw [exec_bind_of_ok h, ok_bind, hk b rfl]

/-! ### Cells -/

lemma sees_address (m : Machine) (w : Word) :
    Sees (address w.toNat) m (Core.addressOf w) id := by
  by_cases h : w.toNat < memorySize
  · rw [Core.addressOf, Word.address_of_lt h, address, dif_pos h]
    rfl
  · rw [Core.addressOf, Word.address_of_le (Nat.not_lt.mp h), address, dif_neg h,
      UInt16.ofNat_toNat]
    rfl

lemma sees_cell (m : Machine) (w : Word) :
    Sees (cell w.toNat) m (Core.addressOf w) m.core.memory.cell := by
  have h := sees_address m w
  rw [Sees, cell]
  cases hw : Core.addressOf w with
  | error e =>
    rw [hw] at h
    exact exec_bind_of_error h
  | ok a =>
    rw [hw] at h
    exact exec_bind_of_ok h

lemma fetchWord_eq_map (c : Core) (w : Word) :
    c.fetchWord w = (Core.addressOf w).map c.memory.cell := by
  rw [Core.fetchWord, Memory.get, Core.addressOf]
  cases w.address <;> rfl

lemma sees_fetchWord {m : Machine} {w : Word} {i : Nat} (hw : w.toNat < memorySize)
    (hi : i < memorySize) :
    Sees (cell (w.toNat + i)) m (m.core.fetchWord (w + UInt16.ofNat i)) id := by
  have h := sees_cell m (w + UInt16.ofNat i)
  rw [Word.toNat_add_ofNat hw hi] at h
  rw [fetchWord_eq_map, Sees, h]
  cases Core.addressOf (w + UInt16.ofNat i) <;> rfl

/-! ### Operands -/

lemma sees_value (m : Machine) (w : Word) :
    Sees (value w) m (Instruction.valueOperand w) m.core.value := by
  rw [Sees, value, Instruction.valueOperand]
  obtain h | ⟨hreg, h, hsel⟩ | h := operand_cases w
  · rw [Value.decode_of_lt h, if_pos h]
    rfl
  · rw [Value.decode_of_selector hsel, if_neg (Nat.not_lt.mpr h), dif_pos hreg]
    rfl
  · rw [Value.decode_of_le h, if_neg (by omega), dif_neg (by omega)]
    rfl

lemma sees_target (m : Machine) (w : Word) :
    Sees (target w) m (Instruction.targetOperand w) fun _ => ⟨⟩ := by
  rw [Sees, target, Instruction.targetOperand]
  obtain h | ⟨hreg, h, hsel⟩ | h := operand_cases w
  · rw [Target.decode_of_lt h, if_pos (by omega)]
    rfl
  · rw [Target.decode_of_selector hsel, if_pos (by omega)]
    rfl
  · rw [Target.decode_of_le h, if_neg (by omega)]
    rfl

lemma sees_register (m : Machine) (w : Word) :
    Sees (register w) m (Instruction.regOperand w) fun _ => ⟨⟩ := by
  have htarget := sees_target m w
  rw [Sees, Instruction.targetOperand] at htarget
  rw [Sees, register, Instruction.regOperand, Reg.decode]
  obtain h | ⟨hreg, h, hsel⟩ | h := operand_cases w
  · rw [Target.decode_of_lt h] at htarget ⊢
    rw [exec_bind_of_ok htarget, if_pos h]
    rfl
  · rw [Target.decode_of_selector hsel] at htarget ⊢
    rw [exec_bind_of_ok htarget, if_neg (Nat.not_lt.mpr h)]
    rfl
  · rw [Target.decode_of_le h] at htarget ⊢
    exact exec_bind_of_error htarget

lemma sees_top (m : Machine) : Sees top m m.core.top id := by
  rw [Sees, top, exec_bind_of_ok (exec_get m), Core.top, Stack.top?]
  cases m.core.stack.words.back? <;> rfl

/-! ### Ends of rows -/

/-- Writing to an operand that was checked writes to the place that it names. -/
lemma exec_store {w : Word} {t : Target} {l : Location}
    (ht : Instruction.targetOperand w = .ok t) (hl : t.locate = .ok l) (x : Word)
    {core : Core} {con : Console} {cycles : Nat} {halted : Bool} :
    Run.exec (store w x) ⟨core, con, cycles, halted⟩ =
      (.ok ⟨⟩, ⟨core.write l x, con, cycles, halted⟩) := by
  obtain h | ⟨hreg, h, hsel⟩ | h := operand_cases w
  · rw [Instruction.targetOperand, Target.decode_of_lt h] at ht
    cases ht
    rw [Target.locate, Word.address_of_lt h] at hl
    cases hl
    rw [store, dif_pos h]
    rfl
  · rw [Instruction.targetOperand, Target.decode_of_selector hsel] at ht
    cases ht
    cases hl
    rw [store, dif_neg (Nat.not_lt.mpr h), dif_pos hreg]
    rfl
  · rw [Instruction.targetOperand, Target.decode_of_le h] at ht
    cases ht

lemma exec_proceed (m : Machine) (pc : Nat) :
    Run.exec (proceed pc) m =
      (.ok .continued, ⟨m.core.goto (UInt16.ofNat pc), m.console, m.cycles + 1, m.halted⟩) := rfl

/-- The address of the instruction that follows. -/
lemma ofNat_toNat_add (w : Word) (n : Nat) :
    UInt16.ofNat (w.toNat + n) = w + UInt16.ofNat n := by
  rw [UInt16.ofNat_add, UInt16.ofNat_toNat]

lemma exec_store_proceed {m : Machine} {w : Word} {t : Target}
    (ht : Instruction.targetOperand w = .ok t) (x : Word) (n : Nat) :
    Run.exec (do store w x; proceed (m.core.pc.toNat + n)) m =
      outcome m (do
        let action ← Core.actStore t x
        .ok (m.core.pc + UInt16.ofNat n, action)) := by
  obtain ⟨l, hl⟩ := Instruction.exists_locate ht
  rw [exec_bind_of_ok (exec_store ht hl x), exec_proceed, Core.actStore, hl, ofNat_toNat_add]
  rfl

lemma exec_store_register_proceed {m : Machine} {w : Word} {r : Reg}
    (hr : Instruction.regOperand w = .ok r) (x : Word) (n : Nat) :
    Run.exec (do store w x; proceed (m.core.pc.toNat + n)) m =
      outcome m (.ok (m.core.pc + UInt16.ofNat n, .update (.store (.reg r) x))) := by
  have ht := Instruction.targetOperand_of_regOperand hr
  rw [exec_bind_of_ok (exec_store ht (l := .reg r) rfl x), exec_proceed, ofNat_toNat_add]
  rfl

lemma exec_jump (m : Machine) (x next : Word) :
    Run.exec (do let goal ← address x.toNat; proceed goal.val) m =
      outcome m (do
        let action ← Core.actJump x
        .ok (next, action)) := by
  rw [Core.actJump, bind_assoc]
  refine (sees_address m x).bind fun a _ => ?_
  rfl

lemma exec_push (m : Machine) (x : Word) :
    Run.exec (push x) m =
      if m.core.stack.isFull then (.error (.exception .stackOverflow), m)
      else (.ok ⟨⟩, ⟨m.core.push x, m.console, m.cycles, m.halted⟩) := by
  rw [push, exec_bind_of_ok (exec_get m)]
  by_cases h : m.core.stack.words.size < stackLimit
  · have hfull : m.core.stack.isFull = false := decide_eq_false (Nat.not_le.mpr h)
    rw [if_pos h, hfull]
    rfl
  · have hfull : m.core.stack.isFull = true := decide_eq_true (Nat.not_lt.mp h)
    rw [if_neg h, hfull]
    rfl

/-! ### Arithmetic -/

lemma and_and_valueMask (x y : Word) :
    x &&& y &&& valueMask = UInt16.ofNat ((x.toNat &&& y.toNat) % modulus) := by
  rw [Word.and_valueMask, Word.wrap, UInt16.toNat_and]

lemma or_and_valueMask (x y : Word) :
    (x ||| y) &&& valueMask = UInt16.ofNat ((x.toNat ||| y.toNat) % modulus) := by
  rw [Word.and_valueMask, Word.wrap, UInt16.toNat_or]

lemma complement_eq (w : Word) :
    w.complement = UInt16.ofNat (modulus - 1 - w.toNat % modulus) := by
  have hnot : (~~~w).toNat = 65535 - w.toNat := by
    rw [UInt16.toNat_not]
    rfl
  have := w.toNat_lt
  rw [Word.complement, Word.and_valueMask, Word.wrap, hnot]
  simp only [modulus]
  congr 1
  omega

/-! ### Characters -/

/-- A row that ends with a character for the console. -/
lemma exec_emit_proceed (m : Machine) (c : Char) (n : Nat) :
    Run.exec (do emit c; proceed (m.core.pc.toNat + n)) m =
      outcome m (.ok (m.core.pc + UInt16.ofNat n, .print c)) := by
  obtain ⟨core, ⟨output, pending, source, sink⟩, cycles, halted⟩ := m
  rw [← ofNat_toNat_add]
  cases sink with
  | none => rfl
  | some sink =>
    rcases hs : sink.send (String.utf8EncodeChar c) with ⟨_ | ⟨⟩, sink'⟩
    · simp only [emit, send, exec_bind, exec_get, hs, exec_modify, exec_throw, outcome,
        Machine.perform, Machine.print, Console.put]
    · simp only [emit, send, exec_bind, exec_get, hs, exec_modify, exec_pure, exec_proceed, outcome,
        Machine.perform, Machine.print, Console.put]

lemma exec_peek (m : Machine) :
    Run.exec peek m =
      (m.console.peek.result, ⟨m.core, m.console.peek.console, m.cycles, m.halted⟩) := by
  obtain ⟨core, ⟨output, pending, source, sink⟩, cycles, halted⟩ := m
  cases pending with
  | cons c cs => rfl
  | nil =>
    cases hs : source.next? with
    | none =>
      simp only [peek, refill, front, exec_bind, exec_get, exec_pure, exec_throw, Console.peek,
        hs, ↓reduceIte]
    | some p =>
      obtain ⟨segment, rest⟩ := p
      cases ht : segment.text with
      | error message =>
        simp only [peek, refill, front, exec_bind, exec_get, exec_modify, exec_throw, Console.peek,
          hs, ht, ↓reduceIte]
      | ok line =>
        cases line <;>
          simp only [peek, refill, front, exec_bind, exec_get, exec_modify, exec_pure, Console.peek,
            hs, ht, ↓reduceIte, List.nil_append, List.cons_append, List.headD_nil, List.headD_cons]

end WordMachine.Raw
