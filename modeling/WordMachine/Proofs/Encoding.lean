import WordMachine.Proofs.Cycle

/-!
# Instructions and their words

The words after an opcode are read as operands if none of them is above the selectors, and if the
destination of `set` is a register. Otherwise the leftmost word in error is reported. Instructions
and their words determine each other, as long as the literals of an instruction are values.
-/

namespace WordMachine

/-! ### Errors of checks -/

section Refusal

variable {ε α β : Type}

/-- The error of a check that fails. -/
def refusal? : Except ε α → Option ε
  | .ok _    => none
  | .error e => some e

@[simp] lemma refusal?_ok (a : α) : refusal? (.ok a : Except ε α) = none := rfl

@[simp] lemma refusal?_error (e : ε) : refusal? (.error e : Except ε α) = some e := rfl

@[simp] lemma refusal?_pure (a : α) : refusal? (pure a : Except ε α) = none := rfl

lemma refusal?_eq_none_iff {x : Except ε α} : refusal? x = none ↔ ∃ a, x = .ok a := by
  cases x <;> simp

lemma refusal?_eq_some_iff {x : Except ε α} {e : ε} : refusal? x = some e ↔ x = .error e := by
  cases x <;> simp

/-- The first check that fails decides. Whether the second one fails is not up to the first. -/
lemma refusal?_bind {x : Except ε α} {f : α → Except ε β} {o : Option ε}
    (h : ∀ a, refusal? (f a) = o) : refusal? (x >>= f) = (refusal? x).or o := by
  cases x with
  | error e => rfl
  | ok a    => rw [ok_bind, h a, refusal?_ok, Option.none_or]

end Refusal

/-! ### Operands -/

/-- The words that stand for themselves in an operand that is read. -/
def Value.literals : Value → List Word
  | .imm w => [w]
  | .reg _ => []

/-- The words that stand for memory cells in an operand that is written. -/
def Target.literals : Target → List Word
  | .memory w => [w]
  | .reg _    => []

/-- The target that stands for a place. -/
def Location.target : Location → Target
  | .cell a => .memory (Word.ofAddress a)
  | .reg r  => .reg r

@[simp] lemma Location.locate_target (l : Location) : l.target.locate = .ok l := by
  cases l with
  | cell a =>
    rw [target, Target.locate, Word.address_ofAddress]
    rfl
  | reg r => rfl

lemma Target.exists_eq_target {t : Target} (h : ∀ w ∈ t.literals, w.toNat < registerBase) :
    ∃ l : Location, t = l.target := by
  cases t with
  | memory w =>
    have hw : w.toNat < memorySize := h w (List.mem_singleton_self w)
    refine ⟨.cell ⟨w.toNat, hw⟩, congrArg Target.memory ?_⟩
    exact UInt16.toNat_inj.mp (Word.toNat_ofAddress ⟨w.toNat, hw⟩).symm
  | reg r => exact ⟨.reg r, rfl⟩

/-- An operand is a literal or names a register, whatever is made of the two. -/
def readOperand {α : Type} (literal : Word → α) (register : Reg → α) (w : Word) :
    Except OperandError α :=
  if w.toNat < registerBase then .ok (literal w)
  else
    match Reg.ofSelector? w with
    | some r => .ok (register r)
    | none   => .error (.invalidOperand w)

lemma readOperand_eq_ok_iff {α : Type} {literal : Word → α} {register : Reg → α} {w : Word}
    {x : α} :
    OperandError.raise (readOperand literal register w) = .ok x ↔
      w.toNat < registerBase ∧ literal w = x ∨ ∃ r : Reg, r.selector = w ∧ register r = x := by
  rw [readOperand]
  constructor
  · intro h
    split at h
    · next hlit =>
      cases h
      exact .inl ⟨hlit, rfl⟩
    · split at h
      · next r hsel =>
        cases h
        exact .inr ⟨r, Reg.selector_of_ofSelector? hsel, rfl⟩
      · cases h
  · rintro (⟨hlit, rfl⟩ | ⟨r, rfl, rfl⟩)
    · rw [if_pos hlit]
      rfl
    · rw [Reg.ofSelector?_selector, if_neg (by simp)]
      rfl

namespace Instruction

variable {w : Word}

lemma valueOperand_eq : valueOperand w = OperandError.raise (readOperand .imm .reg w) := rfl

lemma targetOperand_eq : targetOperand w = OperandError.raise (readOperand .memory .reg w) := rfl

lemma lt_and_eq_iff {x : Word} :
    w.toNat < registerBase ∧ w = x ↔ x = w ∧ x.toNat < registerBase := by
  constructor
  · rintro ⟨hlit, rfl⟩
    exact ⟨rfl, hlit⟩
  · rintro ⟨rfl, hlit⟩
    exact ⟨hlit, rfl⟩

lemma valueOperand_eq_ok_iff {v : Value} :
    valueOperand w = .ok v ↔ v.encode = w ∧ ∀ x ∈ v.literals, x.toNat < registerBase := by
  rw [valueOperand_eq, readOperand_eq_ok_iff]
  cases v with
  | imm x =>
    simp only [Value.imm.injEq, reduceCtorEq, and_false, exists_false, or_false, Value.encode,
      Value.literals, List.forall_mem_singleton]
    exact lt_and_eq_iff
  | reg r => simp [Value.encode, Value.literals]

lemma targetOperand_eq_ok_iff {t : Target} :
    targetOperand w = .ok t ↔ t.encode = w ∧ ∀ x ∈ t.literals, x.toNat < registerBase := by
  rw [targetOperand_eq, readOperand_eq_ok_iff]
  cases t with
  | memory x =>
    simp only [Target.memory.injEq, reduceCtorEq, and_false, exists_false, or_false, Target.encode,
      Target.literals, List.forall_mem_singleton]
    exact lt_and_eq_iff
  | reg r => simp [Target.encode, Target.literals]

lemma regOperand_eq_ok_iff {r : Reg} : regOperand w = .ok r ↔ r.selector = w := by
  constructor
  · intro h
    exact (targetOperand_eq_ok_iff.mp (targetOperand_of_regOperand h)).1
  · rintro rfl
    rw [regOperand, Reg.decode, Target.decode_of_selector (Reg.ofSelector?_selector r)]
    rfl

end Instruction

/-- What is to be said against a word as an operand, by its position among the operands: no operand
is above the selectors, and the destination of `set` is a register. -/
def Opcode.objection? (op : Opcode) (position : Nat) (w : Word) : Option OperandError :=
  if registerBase + registerCount ≤ w.toNat then some (.invalidOperand w)
  else if op = .set ∧ position = 0 ∧ w.toNat < registerBase then some (.expectedRegister w)
  else none

/-- The first objection to a list of operands, counted from a position. -/
def Opcode.firstObjection? (op : Opcode) (position : Nat) : List Word → Option OperandError
  | []      => none
  | w :: ws => (op.objection? position w).or (op.firstObjection? (position + 1) ws)

namespace Opcode

variable {op : Opcode} {k : Nat} {ws : List Word}

lemma objection?_eq_none_iff {w : Word} :
    op.objection? k w = none ↔
      w.toNat < registerBase + registerCount ∧ (op = .set → k = 0 → registerBase ≤ w.toNat) := by
  rw [objection?]
  by_cases hle : registerBase + registerCount ≤ w.toNat
  · simp [hle, Nat.not_lt.mpr hle]
  · simp [hle, Nat.lt_of_not_le hle]

lemma firstObjection?_eq_none_iff :
    op.firstObjection? k ws = none ↔ ∀ i w, ws[i]? = some w → op.objection? (k + i) w = none := by
  induction ws generalizing k with
  | nil => simp [firstObjection?]
  | cons x xs ih =>
    have hshift (i : Nat) : k + (i + 1) = k + 1 + i := by omega
    rw [firstObjection?, Option.or_eq_none_iff, ih]
    constructor
    · rintro ⟨hx, hxs⟩ i w hw
      cases i with
      | zero =>
        cases hw
        exact hx
      | succ i =>
        rw [hshift]
        exact hxs i w hw
    · intro h
      refine ⟨h 0 x rfl, fun i w hw => ?_⟩
      rw [← hshift]
      exact h (i + 1) w hw

lemma firstObjection?_eq_some_iff {e : OperandError} :
    op.firstObjection? k ws = some e ↔
      ∃ i w, ws[i]? = some w ∧ op.objection? (k + i) w = some e ∧
        ∀ j < i, ∀ x, ws[j]? = some x → op.objection? (k + j) x = none := by
  induction ws generalizing k with
  | nil => simp [firstObjection?]
  | cons x xs ih =>
    have hshift (i : Nat) : k + (i + 1) = k + 1 + i := by omega
    rw [firstObjection?, Option.or_eq_some_iff, ih]
    constructor
    · rintro (hx | ⟨hx, i, w, hw, he, hearlier⟩)
      · exact ⟨0, x, rfl, hx, fun j hj => absurd hj (Nat.not_lt_zero j)⟩
      · refine ⟨i + 1, w, hw, ?_, ?_⟩
        · rw [hshift]
          exact he
        · intro j hj y hy
          cases j with
          | zero =>
            cases hy
            exact hx
          | succ j =>
            rw [hshift]
            exact hearlier j (Nat.lt_of_succ_lt_succ hj) y hy
    · rintro ⟨i, w, hw, he, hearlier⟩
      cases i with
      | zero =>
        cases hw
        exact .inl he
      | succ i =>
        refine .inr ⟨hearlier 0 i.succ_pos x rfl, i, w, hw, ?_, ?_⟩
        · rw [← hshift]
          exact he
        · intro j hj y hy
          rw [← hshift]
          exact hearlier (j + 1) (Nat.succ_lt_succ hj) y hy

end Opcode

/-! ### Reading -/

namespace Opcode

/-- The words that a kind of instruction looks at, of those that follow it. -/
def operands (op : Opcode) (a b c : Word) : List Word := [a, b, c].take op.arity

end Opcode

namespace Instruction

/-- The words of an instruction that stand for themselves or for a memory cell. -/
def literals : Instruction → List Word
  | halt | ret | noop        => []
  | set _ v                  => v.literals
  | push v | out v           => v.literals
  | pop dst | read dst       => dst.literals
  | binary _ dst a b         => dst.literals ++ a.literals ++ b.literals
  | jmp a | call a           => a.literals
  | jt x y | jf x y | wmem x y => x.literals ++ y.literals
  | not dst a | rmem dst a   => dst.literals ++ a.literals

/-- Nothing but values and addresses stands in an instruction for itself. -/
def Proper (i : Instruction) : Prop := ∀ w ∈ i.literals, w.toNat < registerBase

section Refusal

variable {w : Word}

lemma refusal?_readOperand {α : Type} (literal : Word → α) (register : Reg → α) :
    refusal? (OperandError.raise (readOperand literal register w)) =
      if registerBase + registerCount ≤ w.toNat then some (.invalidArgument (.invalidOperand w))
      else none := by
  rw [readOperand]
  obtain hlit | ⟨hreg, hle, hsel⟩ | hle := operand_cases w
  · rw [if_pos hlit, if_neg (by omega)]
    rfl
  · rw [if_neg (Nat.not_lt.mpr hle), hsel, if_neg (by omega)]
    rfl
  · rw [if_neg (by omega), Reg.ofSelector?_of_le hle, if_pos hle]
    rfl

lemma refusal?_valueOperand :
    refusal? (valueOperand w) =
      if registerBase + registerCount ≤ w.toNat then some (.invalidArgument (.invalidOperand w))
      else none := by
  rw [valueOperand_eq, refusal?_readOperand]

lemma refusal?_targetOperand :
    refusal? (targetOperand w) =
      if registerBase + registerCount ≤ w.toNat then some (.invalidArgument (.invalidOperand w))
      else none := by
  rw [targetOperand_eq, refusal?_readOperand]

lemma refusal?_regOperand :
    refusal? (regOperand w) =
      if registerBase + registerCount ≤ w.toNat then some (.invalidArgument (.invalidOperand w))
      else if w.toNat < registerBase then some (.invalidArgument (.expectedRegister w))
      else none := by
  rw [regOperand, Reg.decode]
  obtain hlit | ⟨hreg, hle, hsel⟩ | hle := operand_cases w
  · rw [Target.decode_of_lt hlit, if_neg (by omega), if_pos hlit]
    rfl
  · rw [Target.decode_of_selector hsel, if_neg (by omega), if_neg (by omega)]
    rfl
  · rw [Target.decode_of_le hle, if_pos hle]
    rfl

end Refusal

variable {op : Opcode} {a b c : Word} {i : Instruction}

/-- Reading fails with the first objection to an operand. -/
lemma refusal?_decode :
    refusal? (decode op a b c) =
      (op.firstObjection? 0 (op.operands a b c)).map .invalidArgument := by
  cases op with
  | halt | ret | noop => rfl
  | push | jmp | call | out =>
    rw [decode, refusal?_bind fun _ => refusal?_pure _, refusal?_valueOperand]
    simp [Opcode.operands, Opcode.arity, Opcode.firstObjection?, Opcode.objection?]
  | pop | read =>
    rw [decode, refusal?_bind fun _ => refusal?_pure _, refusal?_targetOperand]
    simp [Opcode.operands, Opcode.arity, Opcode.firstObjection?, Opcode.objection?]
  | set =>
    rw [decode, refusal?_bind fun _ => refusal?_bind fun _ => refusal?_pure _,
      refusal?_regOperand, refusal?_valueOperand]
    simp [Opcode.operands, Opcode.arity, Opcode.firstObjection?, Opcode.objection?, Option.map_or,
      apply_ite (Option.map Exception.invalidArgument)]
  | jt | jf | wmem =>
    rw [decode, refusal?_bind fun _ => refusal?_bind fun _ => refusal?_pure _,
      refusal?_valueOperand, refusal?_valueOperand]
    simp [Opcode.operands, Opcode.arity, Opcode.firstObjection?, Opcode.objection?, Option.map_or]
  | not | rmem =>
    rw [decode, refusal?_bind fun _ => refusal?_bind fun _ => refusal?_pure _,
      refusal?_targetOperand, refusal?_valueOperand]
    simp [Opcode.operands, Opcode.arity, Opcode.firstObjection?, Opcode.objection?, Option.map_or]
  | binary =>
    rw [decode,
      refusal?_bind fun _ => refusal?_bind fun _ => refusal?_bind fun _ => refusal?_pure _,
      refusal?_targetOperand, refusal?_valueOperand, refusal?_valueOperand]
    simp [Opcode.operands, Opcode.arity, Opcode.firstObjection?, Opcode.objection?, Option.map_or]

/-- The operands of an instruction that was read are the words it was read from. -/
lemma operandWords_of_decode (h : decode op a b c = .ok i) :
    i.Proper ∧ i.operandWords = op.operands a b c := by
  rw [Proper]
  cases op with
  | halt | ret | noop =>
    cases h
    exact ⟨List.forall_mem_nil _, rfl⟩
  | push | jmp | call | out =>
    obtain ⟨v, h₁, h⟩ := bind_eq_ok_iff.mp h
    cases h
    obtain ⟨rfl, hv⟩ := valueOperand_eq_ok_iff.mp h₁
    exact ⟨hv, rfl⟩
  | pop | read =>
    obtain ⟨t, h₁, h⟩ := bind_eq_ok_iff.mp h
    cases h
    obtain ⟨rfl, ht⟩ := targetOperand_eq_ok_iff.mp h₁
    exact ⟨ht, rfl⟩
  | set =>
    obtain ⟨r, h₁, h⟩ := bind_eq_ok_iff.mp h
    obtain ⟨v, h₂, h⟩ := bind_eq_ok_iff.mp h
    cases h
    obtain rfl := regOperand_eq_ok_iff.mp h₁
    obtain ⟨rfl, hv⟩ := valueOperand_eq_ok_iff.mp h₂
    exact ⟨hv, rfl⟩
  | jt | jf | wmem =>
    obtain ⟨v, h₁, h⟩ := bind_eq_ok_iff.mp h
    obtain ⟨x, h₂, h⟩ := bind_eq_ok_iff.mp h
    cases h
    obtain ⟨rfl, hv⟩ := valueOperand_eq_ok_iff.mp h₁
    obtain ⟨rfl, hx⟩ := valueOperand_eq_ok_iff.mp h₂
    exact ⟨List.forall_mem_append.mpr ⟨hv, hx⟩, rfl⟩
  | not | rmem =>
    obtain ⟨t, h₁, h⟩ := bind_eq_ok_iff.mp h
    obtain ⟨v, h₂, h⟩ := bind_eq_ok_iff.mp h
    cases h
    obtain ⟨rfl, ht⟩ := targetOperand_eq_ok_iff.mp h₁
    obtain ⟨rfl, hv⟩ := valueOperand_eq_ok_iff.mp h₂
    exact ⟨List.forall_mem_append.mpr ⟨ht, hv⟩, rfl⟩
  | binary =>
    obtain ⟨t, h₁, h⟩ := bind_eq_ok_iff.mp h
    obtain ⟨v, h₂, h⟩ := bind_eq_ok_iff.mp h
    obtain ⟨x, h₃, h⟩ := bind_eq_ok_iff.mp h
    cases h
    obtain ⟨rfl, ht⟩ := targetOperand_eq_ok_iff.mp h₁
    obtain ⟨rfl, hv⟩ := valueOperand_eq_ok_iff.mp h₂
    obtain ⟨rfl, hx⟩ := valueOperand_eq_ok_iff.mp h₃
    exact ⟨List.forall_mem_append.mpr ⟨List.forall_mem_append.mpr ⟨ht, hv⟩, hx⟩, rfl⟩

/-- An instruction with proper literals is read from the words of its operands. -/
lemma decode_of_operandWords (hproper : i.Proper)
    (hwords : i.operandWords = i.opcode.operands a b c) : decode i.opcode a b c = .ok i := by
  rw [Proper] at hproper
  cases i with
  | halt | ret | noop => rfl
  | push v | jmp v | call v | out v =>
    cases hwords
    rw [opcode, decode, valueOperand_eq_ok_iff.mpr ⟨rfl, hproper⟩]
    rfl
  | pop t | read t =>
    cases hwords
    rw [opcode, decode, targetOperand_eq_ok_iff.mpr ⟨rfl, hproper⟩]
    rfl
  | set r v =>
    cases hwords
    rw [opcode, decode, regOperand_eq_ok_iff.mpr rfl, ok_bind,
      valueOperand_eq_ok_iff.mpr ⟨rfl, hproper⟩]
    rfl
  | jt v x | jf v x | wmem v x =>
    cases hwords
    obtain ⟨hv, hx⟩ := List.forall_mem_append.mp hproper
    rw [opcode, decode, valueOperand_eq_ok_iff.mpr ⟨rfl, hv⟩, ok_bind,
      valueOperand_eq_ok_iff.mpr ⟨rfl, hx⟩]
    rfl
  | not t v | rmem t v =>
    cases hwords
    obtain ⟨ht, hv⟩ := List.forall_mem_append.mp hproper
    rw [opcode, decode, targetOperand_eq_ok_iff.mpr ⟨rfl, ht⟩, ok_bind,
      valueOperand_eq_ok_iff.mpr ⟨rfl, hv⟩]
    rfl
  | binary f t v x =>
    cases hwords
    obtain ⟨htv, hx⟩ := List.forall_mem_append.mp hproper
    obtain ⟨ht, hv⟩ := List.forall_mem_append.mp htv
    rw [opcode, decode, targetOperand_eq_ok_iff.mpr ⟨rfl, ht⟩, ok_bind,
      valueOperand_eq_ok_iff.mpr ⟨rfl, hv⟩, ok_bind, valueOperand_eq_ok_iff.mpr ⟨rfl, hx⟩]
    rfl

theorem decode_eq_ok_iff :
    decode op a b c = .ok i ↔ i.opcode = op ∧ i.Proper ∧ i.operandWords = op.operands a b c := by
  constructor
  · intro h
    exact ⟨opcode_of_decode h, operandWords_of_decode h⟩
  · rintro ⟨rfl, hproper, hwords⟩
    exact decode_of_operandWords hproper hwords

theorem decode_eq_error_iff {e : Exception} :
    decode op a b c = .error e ↔
      ∃ k w o, (op.operands a b c)[k]? = some w ∧ op.objection? k w = some o ∧
        e = .invalidArgument o ∧
        ∀ j < k, ∀ x, (op.operands a b c)[j]? = some x → op.objection? j x = none := by
  rw [← refusal?_eq_some_iff, refusal?_decode, Option.map_eq_some_iff]
  simp only [Opcode.firstObjection?_eq_some_iff, Nat.zero_add]
  constructor
  · rintro ⟨o, ⟨k, w, hw, ho, hearlier⟩, rfl⟩
    exact ⟨k, w, o, hw, ho, rfl, hearlier⟩
  · rintro ⟨k, w, o, hw, ho, rfl, hearlier⟩
    exact ⟨o, ⟨k, w, hw, ho, hearlier⟩, rfl⟩

theorem exists_decode_iff :
    (∃ i, decode op a b c = .ok i) ↔
      (∀ w ∈ op.operands a b c, w.toNat < registerBase + registerCount) ∧
        (op = .set → registerBase ≤ a.toNat) := by
  rw [← refusal?_eq_none_iff, refusal?_decode, Option.map_eq_none_iff,
    Opcode.firstObjection?_eq_none_iff]
  simp only [Opcode.objection?_eq_none_iff, Nat.zero_add]
  constructor
  · intro h
    constructor
    · intro w hw
      obtain ⟨k, hk⟩ := List.mem_iff_getElem?.mp hw
      exact (h k w hk).1
    · rintro rfl
      exact (h 0 a rfl).2 rfl rfl
  · rintro ⟨hsmall, hset⟩ k w hw
    refine ⟨hsmall w (List.mem_of_getElem? hw), ?_⟩
    rintro rfl rfl
    cases hw
    exact hset rfl

/-- Words that begin with those of an instruction are read as it. -/
theorem decode_encode {t : Word} (hproper : i.Proper) (hwords : i.encode <+: [t, a, b, c]) :
    (Opcode.decode t >>= fun op => decode op a b c) = .ok i := by
  obtain ⟨rfl, hoperands⟩ := List.cons_prefix_cons.mp hwords
  rw [Opcode.decode_tag, ok_bind]
  apply decode_of_operandWords hproper
  rw [Opcode.operands, ← length_operandWords]
  exact List.prefix_iff_eq_take.mp hoperands

theorem encode_of_decode (h : decode op a b c = .ok i) :
    i.encode = op.tag :: op.operands a b c := by
  obtain ⟨hop, -, hwords⟩ := decode_eq_ok_iff.mp h
  rw [encode, hop, hwords]

/-- Words that are not looked at make no difference, and all others do. -/
theorem decode_inj {op' : Opcode} {a' b' c' : Word} {i' : Instruction} (h : decode op a b c = .ok i)
    (h' : decode op' a' b' c' = .ok i') :
    i = i' ↔ op = op' ∧ op.operands a b c = op'.operands a' b' c' := by
  obtain ⟨hop, hproper, hwords⟩ := decode_eq_ok_iff.mp h
  obtain ⟨hop', hproper', hwords'⟩ := decode_eq_ok_iff.mp h'
  constructor
  · rintro rfl
    exact ⟨hop.symm.trans hop', hwords.symm.trans hwords'⟩
  · rintro ⟨rfl, heq⟩
    have hsame : decode op a b c = .ok i' :=
      decode_eq_ok_iff.mpr ⟨hop', hproper', hwords'.trans heq.symm⟩
    rw [h] at hsame
    exact Except.ok.inj hsame

/-- Reading succeeds if no operand is above the selectors and the destination of `set` is a
register, and otherwise reports the leftmost word in error. What is read is written back as the same
words, and what is written is read back, whatever follows it. So two rows of words are the same
instruction if they agree in the words that are looked at. -/
theorem decode_encode_inverse (op : Opcode) (a b c : Word) :
    ((∃ i, decode op a b c = .ok i) ↔
      (∀ w ∈ op.operands a b c, w.toNat < registerBase + registerCount) ∧
        (op = .set → registerBase ≤ a.toNat)) ∧
    (∀ e, decode op a b c = .error e ↔
      ∃ k w o, (op.operands a b c)[k]? = some w ∧ op.objection? k w = some o ∧
        e = .invalidArgument o ∧
        ∀ j < k, ∀ x, (op.operands a b c)[j]? = some x → op.objection? j x = none) ∧
    (∀ i, decode op a b c = .ok i →
      i.encode = op.tag :: op.operands a b c ∧ i.opcode = op ∧ Opcode.decode op.tag = .ok op) ∧
    (∀ i t, i.Proper → i.encode <+: [t, a, b, c] →
      (Opcode.decode t >>= fun op => decode op a b c) = .ok i) ∧
    ∀ i op' a' b' c' i', decode op a b c = .ok i → decode op' a' b' c' = .ok i' →
      (i = i' ↔ op = op' ∧ op.operands a b c = op'.operands a' b' c') := by
  refine ⟨exists_decode_iff, ?_, ?_, ?_, ?_⟩
  · exact fun e => decode_eq_error_iff
  · exact fun i h => ⟨encode_of_decode h, opcode_of_decode h, op.decode_tag⟩
  · exact fun i t hproper hwords => decode_encode hproper hwords
  · exact fun i op' a' b' c' i' h h' => decode_inj h h'

/-- A row for `set` that is read, one with a literal for a destination, and one in which the word
that makes the difference is not looked at. -/
theorem decode_encode_inverse_set :
    decode .set 32769 7 40000 = .ok (.set ⟨1⟩ (.imm 7)) ∧
      decode .set 7 40000 0 = .error (.invalidArgument (.expectedRegister 7)) ∧
      decode .set 32769 7 0 = decode .set 32769 7 40000 := by
  obtain ⟨-, -, -, hread, hsame⟩ := decode_encode_inverse .set 32769 7 40000
  have h : decode .set 32769 7 40000 = .ok (.set ⟨1⟩ (.imm 7)) :=
    hread (.set ⟨1⟩ (.imm 7)) 1 (List.forall_mem_singleton.mpr (by decide)) ⟨[40000], rfl⟩
  obtain ⟨hsuccess, -, -, -, -⟩ := decode_encode_inverse .set 32769 7 0
  have hsmall : ∀ w ∈ Opcode.set.operands 32769 7 0, w.toNat < registerBase + registerCount := by
    intro w hw
    rw [Opcode.operands, Opcode.arity, List.take_succ_cons, List.take_succ_cons, List.take_zero,
      List.mem_cons, List.mem_singleton] at hw
    rcases hw with rfl | rfl <;> decide
  obtain ⟨i, hi⟩ := hsuccess.mpr ⟨hsmall, fun _ => by decide⟩
  refine ⟨h, ?_, ?_⟩
  · obtain ⟨-, herror, -, -, -⟩ := decode_encode_inverse .set 7 40000 0
    exact (herror _).mpr
      ⟨0, 7, .expectedRegister 7, rfl, rfl, rfl, fun j hj => absurd hj j.not_lt_zero⟩
  · rw [hi, h, (hsame _ _ _ _ _ _ h hi).mpr ⟨rfl, rfl⟩]

end Instruction

/-- An instruction in memory has proper literals. -/
lemma Core.proper_of_fetch {c : Core} {i : Instruction} (hf : c.fetch = .ok i) : i.Proper := by
  obtain ⟨op, x, y, z, h⟩ := exists_decode_of_fetch hf
  exact (Instruction.operandWords_of_decode h).1

end WordMachine
