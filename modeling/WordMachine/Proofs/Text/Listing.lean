import Mathlib.Data.List.TakeWhile
import Mathlib.Logic.Function.Basic
import WordMachine.Instruction.Text
import WordMachine.Proofs.Encoding

/-!
# What a listing tells

The line of an instruction determines it. The name ends at the first blank, or with the line, and
after it there are as many operands as this kind of instruction has. No operand contains the comma
that separates it from the next one. A number has one text in decimal, a register starts with a
percent sign, and a memory cell with a bracket. So two rows of words have one line only if they
agree in all words that are looked at. In the same way the line of the registers determines what
they hold.
-/

namespace WordMachine

/-! ### Separators -/

/-- Where a mark comes first, a list can be cut in one way only. -/
lemma eq_of_append_cons_eq {α : Type} {c : α} {x x' y y' : List α} (hx : c ∉ x) (hx' : c ∉ x')
    (h : x ++ c :: y = x' ++ c :: y') : x = x' ∧ y = y' := by
  obtain ⟨t, rfl, ht⟩ | ⟨t, rfl, ht⟩ := List.append_eq_append_iff.mp h
  · cases t with
    | nil => exact ⟨(List.append_nil x).symm, (List.cons.inj ht).2⟩
    | cons d t =>
      obtain ⟨rfl, -⟩ := List.cons.inj ht
      exact absurd (List.mem_append_right _ List.mem_cons_self) hx'
  · cases t with
    | nil => exact ⟨List.append_nil x', (List.cons.inj ht).2.symm⟩
    | cons d t =>
      obtain ⟨rfl, -⟩ := List.cons.inj ht
      exact absurd (List.mem_append_right _ List.mem_cons_self) hx

/-- Parts without the mark in their separator can be told apart again. -/
lemma eq_of_intercalate_eq {sep : String} {front back : List Char} {mark : Char}
    (hsep : sep.toList = front ++ mark :: back) (hfront : mark ∉ front) {xs ys : List String}
    (hlength : xs.length = ys.length) (hxs : ∀ x ∈ xs, mark ∉ x.toList)
    (hys : ∀ y ∈ ys, mark ∉ y.toList) (h : sep.intercalate xs = sep.intercalate ys) : xs = ys := by
  induction xs generalizing ys with
  | nil => exact (List.length_eq_zero_iff.mp hlength.symm).symm
  | cons x xs ih =>
    cases ys with
    | nil => cases hlength
    | cons y ys =>
      have hrest : xs.length = ys.length := Nat.succ.inj hlength
      obtain ⟨hx, hxs⟩ := List.forall_mem_cons.mp hxs
      obtain ⟨hy, hys⟩ := List.forall_mem_cons.mp hys
      cases xs with
      | nil =>
        obtain rfl := List.length_eq_zero_iff.mp hrest.symm
        rw [String.intercalate_singleton, String.intercalate_singleton] at h
        rw [h]
      | cons x' xs =>
        cases ys with
        | nil => cases hrest
        | cons y' ys =>
          -- the first mark stands in the first separator
          have hcut := congrArg String.toList h
          simp only [String.intercalate_cons_cons, String.toList_append, hsep, List.append_assoc,
            List.cons_append] at hcut
          simp only [← List.append_assoc] at hcut
          obtain ⟨hfirst, hothers⟩ := eq_of_append_cons_eq
            (by simp [hx, hfront]) (by simp [hy, hfront]) hcut
          rw [String.toList_inj.mp (List.append_cancel_right hfirst),
            ih hrest hxs hys (String.toList_inj.mp (List.append_cancel_left hothers))]

/-! ### Numbers and registers -/

/-- A number has one text. -/
lemma toString_nat_inj {m n : Nat} : toString m = toString n ↔ m = n := by
  constructor
  · intro h
    have hdigits := congrArg String.toList h
    simp only [Nat.toString_eq_ofList_toDigits, String.toList_ofList] at hdigits
    rw [← Nat.ofDigitChars_ten_toDigits (n := m), hdigits, Nat.ofDigitChars_ten_toDigits]
  · rintro rfl
    rfl

lemma isDigit_of_mem_toString {n : Nat} {c : Char} (h : c ∈ (toString n).toList) :
    c.isDigit = true := by
  rw [Nat.toString_eq_ofList_toDigits, String.toList_ofList] at h
  exact Nat.isDigit_of_mem_toDigits (by decide) (Nat.le_refl 10) h

lemma Word.text_inj {w w' : Word} : w.text = w'.text ↔ w = w' := by
  rw [text, text, toString_nat_inj, UInt16.toNat_inj]

lemma Word.not_mem_text {c : Char} (hc : c.isDigit = false) (w : Word) : c ∉ w.text.toList := by
  intro h
  rw [isDigit_of_mem_toString h] at hc
  cases hc

namespace Reg

lemma text_inj {r r' : Reg} : r.text = r'.text ↔ r = r' := by
  rw [text, text, String.append_right_inj, toString_nat_inj, ← Fin.ext_iff, Reg.mk.injEq]

lemma toList_text (r : Reg) : r.text.toList = '%' :: 'r' :: (toString r.index.val).toList := by
  rw [text, String.toList_append]
  rfl

lemma not_mem_text {c : Char} (hc : c.isDigit = false) (hsign : c ∉ ['%', 'r']) (r : Reg) :
    c ∉ r.text.toList := by
  rw [toList_text]
  intro h
  obtain hsign' | hdigit := List.mem_append.mp (show c ∈ ['%', 'r'] ++ _ from h)
  · exact hsign hsign'
  · rw [isDigit_of_mem_toString hdigit] at hc
    cases hc

end Reg

/-! ### Operands -/

namespace Value

/-- A number has no percent sign, and a register has one. -/
lemma text_imm_ne_text_reg (w : Word) (r : Reg) : (imm w).text ≠ (reg r).text := by
  intro h
  have hmem : '%' ∈ r.text.toList := by
    rw [r.toList_text]
    exact List.mem_cons_self
  have heq : w.text = r.text := h
  rw [← heq] at hmem
  exact w.not_mem_text rfl hmem

lemma text_inj {v v' : Value} : v.text = v'.text ↔ v = v' := by
  cases v with
  | imm w =>
    cases v' with
    | imm w' => rw [text, text, Word.text_inj, imm.injEq]
    | reg r' => exact iff_of_false (text_imm_ne_text_reg w r') (by nofun)
  | reg r =>
    cases v' with
    | imm w' => exact iff_of_false (text_imm_ne_text_reg w' r).symm (by nofun)
    | reg r' => rw [text, text, Reg.text_inj, reg.injEq]

lemma comma_not_mem_text (v : Value) : ',' ∉ v.text.toList := by
  cases v with
  | imm w => exact w.not_mem_text rfl
  | reg r => exact r.not_mem_text rfl (by decide)

end Value

namespace Target

lemma toList_text_memory (w : Word) : (memory w).text.toList = '[' :: (w.text.toList ++ [']']) := by
  rw [text, String.toList_append, String.toList_append]
  rfl

/-- A memory cell has a bracket, and a register has none. -/
lemma text_memory_ne_text_reg (w : Word) (r : Reg) : (memory w).text ≠ (reg r).text := by
  intro h
  have hmem : '[' ∈ (memory w).text.toList := by
    rw [toList_text_memory]
    exact List.mem_cons_self
  rw [h] at hmem
  exact r.not_mem_text rfl (by decide) hmem

lemma text_inj {t t' : Target} : t.text = t'.text ↔ t = t' := by
  cases t with
  | memory w =>
    cases t' with
    | memory w' =>
      rw [text, text, String.append_left_inj, String.append_right_inj, Word.text_inj, memory.injEq]
    | reg r' => exact iff_of_false (text_memory_ne_text_reg w r') (by nofun)
  | reg r =>
    cases t' with
    | memory w' => exact iff_of_false (text_memory_ne_text_reg w' r).symm (by nofun)
    | reg r' => rw [text, text, Reg.text_inj, reg.injEq]

lemma comma_not_mem_text (t : Target) : ',' ∉ t.text.toList := by
  cases t with
  | memory w =>
    rw [toList_text_memory]
    simp [w.not_mem_text (c := ',') rfl]
  | reg r => exact r.not_mem_text rfl (by decide)

end Target

/-! ### Names -/

namespace Opcode

/-- The kind of instruction with a given name. -/
def ofName? (name : String) : Option Opcode :=
  ((List.range 22).filterMap fun n => ofTag? (UInt16.ofNat n)).find? fun op => op.name = name

lemma ofName?_name (op : Opcode) : ofName? op.name = some op := by
  cases op with
  | binary b => cases b <;> rfl
  | _        => rfl

lemma blank_not_mem_name (op : Opcode) : ' ' ∉ op.name.toList := by
  cases op with
  | binary b => cases b <;> decide
  | _        => decide

/-- A name, filled up with blanks, and one more blank. -/
def column (op : Opcode) : String :=
  op.name.pushn ' ' (Instruction.nameColumns - op.name.length) ++ " "

lemma toList_pushn (s : String) (c : Char) (n : Nat) :
    (s.pushn c n).toList = s.toList ++ List.replicate n c := by
  rw [String.pushn_eq_repeat_push]
  induction n with
  | zero => exact (List.append_nil _).symm
  | succ n ih => rw [Nat.repeat, String.toList_push, ih, List.append_assoc, List.replicate_succ']

lemma exists_column (op : Opcode) :
    ∃ blanks, op.column.toList = op.name.toList ++ ' ' :: blanks := by
  refine ⟨List.replicate (Instruction.nameColumns - op.name.length) ' ', ?_⟩
  rw [column, String.toList_append, toList_pushn, List.append_assoc, ← List.replicate_succ,
    List.replicate_succ']
  rfl

end Opcode

/-! ### Lines -/

namespace Instruction

variable {i i' : Instruction}

lemma length_operandTexts (i : Instruction) : i.operandTexts.length = i.opcode.arity := by
  cases i <;> rfl

lemma comma_not_mem_of_mem_operandTexts {s : String} (h : s ∈ i.operandTexts) :
    ',' ∉ s.toList := by
  revert s
  cases i <;>
    simp [operandTexts, Value.comma_not_mem_text, Target.comma_not_mem_text,
      Reg.not_mem_text (c := ',') rfl (by decide)]

lemma text_of_operandTexts_eq_nil (h : i.operandTexts = []) : i.text = i.opcode.name := by
  rw [text, h]

lemma text_of_operandTexts_ne_nil (h : i.operandTexts ≠ []) :
    i.text = i.opcode.column ++ ", ".intercalate i.operandTexts := by
  rw [text]
  split
  · next hnil => exact absurd hnil h
  · rfl

/-- The name goes as far as the first blank. -/
lemma takeWhile_text (i : Instruction) :
    i.text.toList.takeWhile (· ≠ ' ') = i.opcode.name.toList := by
  have hname : ∀ c ∈ i.opcode.name.toList, decide (c ≠ ' ') = true := by
    intro c hc
    apply decide_eq_true
    rintro rfl
    exact i.opcode.blank_not_mem_name hc
  by_cases h : i.operandTexts = []
  · rw [text_of_operandTexts_eq_nil h, List.takeWhile_eq_self_iff.mpr hname]
  · obtain ⟨blanks, hcolumn⟩ := i.opcode.exists_column
    rw [text_of_operandTexts_ne_nil h, String.toList_append, hcolumn, List.append_assoc,
      List.takeWhile_append_of_pos hname, List.cons_append, List.takeWhile_cons_of_neg (by simp),
      List.append_nil]

lemma opcode_eq_of_text_eq (h : i.text = i'.text) : i.opcode = i'.opcode := by
  have hname : i.opcode.name = i'.opcode.name := by
    apply String.toList_inj.mp
    rw [← takeWhile_text, h, takeWhile_text]
  apply Option.some.inj
  rw [← Opcode.ofName?_name, hname, Opcode.ofName?_name]

lemma operandTexts_eq_of_text_eq (h : i.text = i'.text) : i.operandTexts = i'.operandTexts := by
  have hop := opcode_eq_of_text_eq h
  have hlength : i.operandTexts.length = i'.operandTexts.length := by
    rw [length_operandTexts, length_operandTexts, hop]
  by_cases hnil : i.operandTexts = []
  · rw [hnil] at hlength ⊢
    exact (List.length_eq_zero_iff.mp hlength.symm).symm
  · have hnil' : i'.operandTexts ≠ [] := by
      intro hnil'
      rw [hnil'] at hlength
      exact hnil (List.length_eq_zero_iff.mp hlength)
    rw [text_of_operandTexts_ne_nil hnil, text_of_operandTexts_ne_nil hnil', hop,
      String.append_right_inj] at h
    have hsep : ", ".toList = [] ++ ',' :: [' '] := rfl
    exact eq_of_intercalate_eq hsep List.not_mem_nil hlength
      (fun _ => comma_not_mem_of_mem_operandTexts) (fun _ => comma_not_mem_of_mem_operandTexts) h

/-- Instructions of one kind with the same operands are the same. -/
lemma eq_of_operandTexts_eq (hop : i.opcode = i'.opcode) (h : i.operandTexts = i'.operandTexts) :
    i = i' := by
  cases i with
  | halt | ret | noop =>
    cases i' <;> cases hop
    rfl
  | set r v =>
    cases i' <;> cases hop
    simpa [operandTexts, Reg.text_inj, Value.text_inj] using h
  | push v | jmp v | call v | out v =>
    cases i' <;> cases hop
    simpa [operandTexts, Value.text_inj] using h
  | pop t | read t =>
    cases i' <;> cases hop
    simpa [operandTexts, Target.text_inj] using h
  | jt x y | jf x y | wmem x y =>
    cases i' <;> cases hop
    simpa [operandTexts, Value.text_inj] using h
  | not t x | rmem t x =>
    cases i' <;> cases hop
    simpa [operandTexts, Target.text_inj, Value.text_inj] using h
  | binary op t x y =>
    cases i' <;> cases hop
    simpa [operandTexts, Target.text_inj, Value.text_inj] using h

theorem text_injective : Function.Injective text := by
  intro i i' h
  exact eq_of_operandTexts_eq (opcode_eq_of_text_eq h) (operandTexts_eq_of_text_eq h)

end Instruction

/-! ### Registers -/

namespace Registers

variable {rs rs' : Registers}

lemma ext (h : ∀ r, rs.get r = rs'.get r) : rs = rs' := by
  cases rs
  cases rs'
  exact congrArg mk (Vector.ext fun k hk => h ⟨k, hk⟩)

/-- The part of the line that is about one register. -/
def entry (rs : Registers) (r : Reg) : String := r.text ++ " = " ++ (rs.get r).text

lemma bar_not_mem_entry (rs : Registers) (r : Reg) : '|' ∉ (rs.entry r).toList := by
  have hreg : '|' ∉ r.text.toList := r.not_mem_text rfl (by decide)
  have hword : '|' ∉ (rs.get r).text.toList := Word.not_mem_text rfl _
  simp [entry, hreg, hword]

theorem text_injective : Function.Injective text := by
  intro rs rs' h
  have hsep : " | ".toList = [' '] ++ '|' :: [' '] := rfl
  have hbar (rs : Registers) : ∀ s ∈ Reg.all.map rs.entry, '|' ∉ s.toList := by
    rintro _ hs
    obtain ⟨r, -, rfl⟩ := List.mem_map.mp hs
    exact rs.bar_not_mem_entry r
  have hentries : Reg.all.map rs.entry = Reg.all.map rs'.entry :=
    eq_of_intercalate_eq hsep (by decide) (by simp) (hbar rs) (hbar rs') h
  apply ext
  intro r
  have hentry : rs.entry r = rs'.entry r := List.map_inj_left.mp hentries r r.mem_all
  rw [entry, entry, String.append_right_inj] at hentry
  exact Word.text_inj.mp hentry

end Registers

/-- Different instructions have different lines, so an instruction can be read back from its line.
Rows of words that are instructions have one line exactly if they are of one kind and agree in the
words that are looked at. Different registers have different lines, too. -/
theorem listing_lossless :
    Function.Injective Instruction.text ∧
    (∃ read : String → Option Instruction, ∀ i, read i.text = some i) ∧
    (∀ op a b c i op' a' b' c' i', Instruction.decode op a b c = .ok i →
      Instruction.decode op' a' b' c' = .ok i' →
      (i.text = i'.text ↔ op = op' ∧ op.operands a b c = op'.operands a' b' c')) ∧
    Function.Injective Registers.text := by
  refine ⟨Instruction.text_injective, ?_, ?_, Registers.text_injective⟩
  · exact ⟨Function.partialInv Instruction.text,
      Function.partialInv_left Instruction.text_injective⟩
  · intro op a b c i op' a' b' c' i' h h'
    rw [Instruction.text_injective.eq_iff]
    exact Instruction.decode_inj h h'

/-- Two rows with one line, which differ in a word that `set` does not look at, and a row with the
line of another register. -/
theorem listing_lossless_set :
    (∃ i i', Instruction.decode .set 32769 7 0 = .ok i ∧
      Instruction.decode .set 32769 7 40000 = .ok i' ∧ i.text = i'.text) ∧
    (∃ i i', Instruction.decode .set 32769 7 0 = .ok i ∧
      Instruction.decode .set 32770 7 0 = .ok i' ∧ i.text ≠ i'.text) ∧
    Registers.zero.text ≠ (Registers.zero.set ⟨0⟩ 1).text := by
  obtain ⟨-, -, hrows, hregisters⟩ := listing_lossless
  have h : Instruction.decode .set 32769 7 0 = .ok (.set ⟨1⟩ (.imm 7)) := rfl
  have hother : Instruction.decode .set 32769 7 40000 = .ok (.set ⟨1⟩ (.imm 7)) := rfl
  have hnext : Instruction.decode .set 32770 7 0 = .ok (.set ⟨2⟩ (.imm 7)) := rfl
  refine ⟨⟨_, _, h, hother, (hrows .set 32769 7 0 _ .set 32769 7 40000 _ h hother).mpr ⟨rfl, rfl⟩⟩,
    ⟨_, _, h, hnext, ?_⟩, ?_⟩
  · intro hline
    have hwords := ((hrows .set 32769 7 0 _ .set 32770 7 0 _ h hnext).mp hline).2
    revert hwords
    decide
  · intro hline
    have hcells := hregisters hline
    revert hcells
    decide

end WordMachine
