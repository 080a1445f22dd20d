import WordMachine.Register

/-!
# Operands

An operand word has one of two readings, according to its place in the instruction. Where the
instruction reads, it is a value: a literal or the contents of a register. Where the instruction
writes, it is a target: a memory cell or a register. No word above the selectors is an operand.
-/

namespace WordMachine

/-- Why a word is not the operand wanted. -/
inductive OperandError
  /-- The word is neither a literal nor a selector. -/
  | invalidOperand (word : Word)
  /-- The word is a literal where only a register will do. -/
  | expectedRegister (word : Word)
deriving DecidableEq, Repr

def OperandError.text : OperandError → String
  | .invalidOperand w   => "invalid operand " ++ w.text ++ ": neither a literal nor a register"
  | .expectedRegister w => "invalid operand " ++ w.text ++ ": expected a register"

/-- An operand that is read. -/
inductive Value
  | imm (word : Word)
  | reg (r : Reg)
deriving DecidableEq, Repr

/-- An operand that is written. -/
inductive Target
  | memory (address : Word)
  | reg (r : Reg)
deriving DecidableEq, Repr

/-! ### Kinds of words -/

/-- A word is a literal, or it names a register, or it is no operand. -/
theorem operand_cases (w : Word) :
    w.toNat < registerBase ∨
      (∃ h : w.toNat - registerBase < registerCount, registerBase ≤ w.toNat ∧
        Reg.ofSelector? w = some ⟨w.toNat - registerBase, h⟩) ∨
      registerBase + registerCount ≤ w.toNat := by
  by_cases hlit : w.toNat < registerBase
  · exact .inl hlit
  · by_cases hlt : w.toNat < registerBase + registerCount
    · have hle := Nat.not_lt.mp hlit
      exact .inr (.inl ⟨by omega, hle, Reg.ofSelector?_of_lt hle hlt⟩)
    · exact .inr (.inr (Nat.not_lt.mp hlt))

/-! ### Values -/

namespace Value

/-- Read a word as a value. -/
def decode (w : Word) : Except OperandError Value :=
  if w.toNat < registerBase then .ok (.imm w)
  else
    match Reg.ofSelector? w with
    | some r => .ok (.reg r)
    | none   => .error (.invalidOperand w)

def encode : Value → Word
  | .imm w => w
  | .reg r => r.selector

/-- The word that a value amounts to. -/
def resolve (rs : Registers) : Value → Word
  | .imm w => w
  | .reg r => rs.get r

def text : Value → String
  | .imm w => w.text
  | .reg r => r.text

def inspect : Value → String
  | .imm w => "Imm(" ++ w.text ++ ")"
  | .reg r => "Reg(" ++ r.inspect ++ ")"

theorem decode_of_lt {w : Word} (h : w.toNat < registerBase) : decode w = .ok (.imm w) := by
  simp only [decode, if_pos h]

theorem decode_of_selector {w : Word} {r : Reg} (h : Reg.ofSelector? w = some r) :
    decode w = .ok (.reg r) := by
  simp only [decode, if_neg (Nat.not_lt.mpr (Reg.le_of_ofSelector? h)), h]

theorem decode_of_le {w : Word} (h : registerBase + registerCount ≤ w.toNat) :
    decode w = .error (.invalidOperand w) := by
  simp only [decode, if_neg (Nat.not_lt.mpr (Nat.le_of_add_right_le h)),
    Reg.ofSelector?_of_le h]

@[simp] theorem resolve_imm (rs : Registers) (w : Word) : (imm w).resolve rs = w := rfl

@[simp] theorem resolve_reg (rs : Registers) (r : Reg) : (reg r).resolve rs = rs.get r := rfl

end Value

/-! ### Targets -/

namespace Target

/-- Read a word as a target. -/
def decode (w : Word) : Except OperandError Target :=
  if w.toNat < registerBase then .ok (.memory w)
  else
    match Reg.ofSelector? w with
    | some r => .ok (.reg r)
    | none   => .error (.invalidOperand w)

def encode : Target → Word
  | .memory w => w
  | .reg r    => r.selector

def text : Target → String
  | .memory w => "[" ++ w.text ++ "]"
  | .reg r    => r.text

def inspect : Target → String
  | .memory w => "Memory(" ++ w.text ++ ")"
  | .reg r    => "Reg(" ++ r.inspect ++ ")"

theorem decode_of_lt {w : Word} (h : w.toNat < registerBase) : decode w = .ok (.memory w) := by
  simp only [decode, if_pos h]

theorem decode_of_selector {w : Word} {r : Reg} (h : Reg.ofSelector? w = some r) :
    decode w = .ok (.reg r) := by
  simp only [decode, if_neg (Nat.not_lt.mpr (Reg.le_of_ofSelector? h)), h]

theorem decode_of_le {w : Word} (h : registerBase + registerCount ≤ w.toNat) :
    decode w = .error (.invalidOperand w) := by
  simp only [decode, if_neg (Nat.not_lt.mpr (Nat.le_of_add_right_le h)),
    Reg.ofSelector?_of_le h]

end Target

/-! ### Registers alone -/

/-- Read a word as a target that has to be a register. -/
def Reg.decode (w : Word) : Except OperandError Reg := do
  match ← Target.decode w with
  | .reg r    => .ok r
  | .memory _ => .error (.expectedRegister w)

end WordMachine
