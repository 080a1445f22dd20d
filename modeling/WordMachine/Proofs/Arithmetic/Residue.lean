import Mathlib.Data.ZMod.Basic
import WordMachine.Proofs.Encoding

/-!
# Arithmetic on words

The operations are exact: their results are those on integers, and thirty-two bits are enough until
the reduction. Reduced words are the integers modulo `modulus`, with `add` and `mult` for sum and
product, and they are the rows of fifteen bits, with `and`, `or` and `not` bit by bit. All of these
see no more of a word than its residue, whereas `mod` and the comparisons see the whole word.
-/

namespace WordMachine

/-! ### Residues and bits -/

namespace Word

/-- A word reduced to the fifteen bits of a value. -/
def residue (w : Word) : Word := wrap w.toNat

def bit (w : Word) (k : Nat) : Bool := w.toNat.testBit k

/-- A word as an integer modulo `modulus`. -/
def toZMod (w : Word) : ZMod modulus := w.toNat

lemma wrap_eq_wrap_iff {m n : Nat} : wrap m = wrap n ↔ m % modulus = n % modulus := by
  rw [← UInt16.toNat_inj, toNat_wrap, toNat_wrap]

@[simp] lemma toNat_residue (w : Word) : w.residue.toNat = w.toNat % modulus := toNat_wrap _

lemma residue_of_lt {w : Word} (h : w.toNat < modulus) : w.residue = w := by
  apply UInt16.toNat_inj.mp
  rw [toNat_residue, Nat.mod_eq_of_lt h]

section Bits

variable (a b w : Word) (k : Nat)

lemma ext_bit {a b : Word} (h : ∀ k, a.bit k = b.bit k) : a = b :=
  UInt16.toNat_inj.mp (Nat.eq_of_testBit_eq h)

@[simp] lemma bit_wrap (n : Nat) : (wrap n).bit k = (decide (k < 15) && n.testBit k) := by
  rw [bit, toNat_wrap]
  exact Nat.testBit_mod_two_pow n 15 k

@[simp] lemma bit_residue : w.residue.bit k = (decide (k < 15) && w.bit k) := bit_wrap k _

@[simp] lemma bit_and : (a &&& b).bit k = (a.bit k && b.bit k) := by
  rw [bit, UInt16.toNat_and, Nat.testBit_and, bit, bit]

@[simp] lemma bit_or : (a ||| b).bit k = (a.bit k || b.bit k) := by
  rw [bit, UInt16.toNat_or, Nat.testBit_or, bit, bit]

@[simp] lemma bit_not : (~~~w).bit k = (decide (k < 16) && !w.bit k) := by
  rw [bit, UInt16.toNat_not, UInt16.size, Nat.sub_sub, Nat.add_comm]
  exact Nat.testBit_two_pow_sub_succ w.toNat_lt k

@[simp] lemma bit_valueMask : valueMask.bit k = decide (k < 15) :=
  Nat.testBit_two_pow_sub_one 15 k

@[simp] lemma bit_complement : w.complement.bit k = (decide (k < 15) && !w.bit k) := by
  rw [complement, bit_and, bit_not, bit_valueMask]
  by_cases hk : k < 15
  · have hk' : k < 16 := Nat.lt_succ_of_lt hk
    simp [hk, hk']
  · simp [hk]

end Bits

/-! ### Inversion -/

/-- To invert a word twice is to reduce it. -/
theorem complement_complement (w : Word) : w.complement.complement = w.residue := by
  apply ext_bit
  intro k
  by_cases hk : k < 15 <;> simp [hk]

theorem complement_residue (w : Word) : w.residue.complement = w.complement := by
  apply ext_bit
  intro k
  by_cases hk : k < 15 <;> simp [hk]

/-! ### Integers modulo the modulus -/

@[simp] lemma toZMod_wrap (n : Nat) : (wrap n).toZMod = n := by
  rw [toZMod, toNat_wrap, ZMod.natCast_mod]

lemma val_toZMod {w : Word} (h : w.toNat < modulus) : w.toZMod.val = w.toNat :=
  ZMod.val_natCast_of_lt h

/-- Each integer modulo `modulus` is one reduced word. -/
theorem bijOn_toZMod : Set.BijOn toZMod { w | w.toNat < modulus } Set.univ := by
  refine ⟨Set.mapsTo_univ _ _, ?_, ?_⟩
  · intro v hv w hw h
    apply UInt16.toNat_inj.mp
    rw [← val_toZMod hv, ← val_toZMod hw, h]
  · intro z _
    refine ⟨wrap z.val, toNat_wrap_lt _, ?_⟩
    rw [toZMod_wrap, ZMod.natCast_zmod_val]

end Word

/-! ### Operations -/

namespace BinaryOp

/-- The result of an operation on integers, before it is reduced. -/
def unreduced? (op : BinaryOp) (a b : Nat) : Option Nat :=
  match op with
  | eq   => some (if a = b then 1 else 0)
  | gt   => some (if b < a then 1 else 0)
  | add  => some (a + b)
  | mult => some (a * b)
  | mod  => if b = 0 then none else some (a % b)
  | and  => some (a &&& b)
  | or   => some (a ||| b)

/-- The same in thirty-two bits, where sums and products could overflow. -/
def wide? (op : BinaryOp) (a b : Word) : Option UInt32 :=
  match op with
  | eq   => some (if a = b then 1 else 0)
  | gt   => some (if b < a then 1 else 0)
  | add  => some (a.toUInt32 + b.toUInt32)
  | mult => some (a.toUInt32 * b.toUInt32)
  | mod  => if b = 0 then none else some (a % b).toUInt32
  | and  => some (a &&& b).toUInt32
  | or   => some (a ||| b).toUInt32

variable (op : BinaryOp) (a b : Word)

/-- A result is the one on integers, reduced. -/
theorem eval?_eq_map_unreduced? :
    op.eval? a b = (op.unreduced? a.toNat b.toNat).map Word.wrap := by
  have hone : Word.wrap 1 = 1 := rfl
  have hzero : Word.wrap 0 = 0 := rfl
  cases op with
  | eq => simp [eval?, unreduced?, UInt16.toNat_inj, apply_ite Word.wrap, hone, hzero]
  | gt => simp [eval?, unreduced?, UInt16.lt_iff_toNat_lt, apply_ite Word.wrap, hone, hzero]
  | add | mult => rfl
  | mod => simp [eval?, unreduced?, ← UInt16.toNat_inj, apply_ite (Option.map Word.wrap)]
  | and => rw [eval?, Word.and_valueMask, UInt16.toNat_and, unreduced?, Option.map_some]
  | or  => rw [eval?, Word.and_valueMask, UInt16.toNat_or, unreduced?, Option.map_some]

/-- Sums and products of words do not overflow thirty-two bits. -/
theorem map_toNat_wide? :
    (op.wide? a b).map UInt32.toNat = op.unreduced? a.toNat b.toNat := by
  have ha := a.toNat_lt
  have hb := b.toNat_lt
  cases op with
  | eq => simp [wide?, unreduced?, UInt16.toNat_inj, apply_ite UInt32.toNat]
  | gt => simp [wide?, unreduced?, UInt16.lt_iff_toNat_lt, apply_ite UInt32.toNat]
  | add =>
    simp only [wide?, unreduced?, Option.map_some, UInt32.toNat_add, UInt16.toNat_toUInt32,
      Option.some.injEq]
    omega
  | mult =>
    have hlt : a.toNat * b.toNat < 2 ^ 16 * 2 ^ 16 := Nat.mul_lt_mul'' ha hb
    simp only [wide?, unreduced?, Option.map_some, UInt32.toNat_mul, UInt16.toNat_toUInt32,
      Option.some.injEq]
    exact Nat.mod_eq_of_lt hlt
  | mod => simp [wide?, unreduced?, ← UInt16.toNat_inj, apply_ite (Option.map UInt32.toNat)]
  | and | or => simp [wide?, unreduced?]

/-- A result is the one in thirty-two bits, reduced there and cut to a word. -/
theorem eval?_eq_map_wide? :
    op.eval? a b = (op.wide? a b).map fun n => (n % modulus.toUInt32).toUInt16 := by
  rw [eval?_eq_map_unreduced?, ← map_toNat_wide?, Option.map_map]
  rfl

/-! ### Laws -/

theorem bit_of_and {w : Word} (h : and.eval? a b = some w) (k : Nat) :
    w.bit k = (decide (k < 15) && (a.bit k && b.bit k)) := by
  cases h
  rw [Word.bit_and, Word.bit_and, Word.bit_valueMask, Bool.and_comm]

theorem bit_of_or {w : Word} (h : or.eval? a b = some w) (k : Nat) :
    w.bit k = (decide (k < 15) && (a.bit k || b.bit k)) := by
  cases h
  rw [Word.bit_and, Word.bit_or, Word.bit_valueMask, Bool.and_comm]

/-- Sums, products and bits depend on no more of an operand than its residue. -/
theorem eval?_residue {op : BinaryOp} (hop : op ∈ [add, mult, and, or]) :
    op.eval? a.residue b = op.eval? a b ∧ op.eval? a b.residue = op.eval? a b := by
  simp only [List.mem_cons, List.not_mem_nil, or_false] at hop
  rcases hop with rfl | rfl | rfl | rfl
  · simp only [eval?, Option.some.injEq, Word.wrap_eq_wrap_iff, Word.toNat_residue]
    exact ⟨Nat.mod_add_mod _ _ _, Nat.add_mod_mod _ _ _⟩
  · simp only [eval?, Option.some.injEq, Word.wrap_eq_wrap_iff, Word.toNat_residue]
    exact ⟨Nat.mod_mul_mod _ _ _, Nat.mul_mod_mod _ _ _⟩
  -- a bit of the result is zero or depends on the same bits of both operands
  · constructor
    · refine congrArg some (Word.ext_bit fun k => ?_)
      by_cases hk : k < 15 <;> simp [hk]
    · refine congrArg some (Word.ext_bit fun k => ?_)
      by_cases hk : k < 15 <;> simp [hk]
  · constructor
    · refine congrArg some (Word.ext_bit fun k => ?_)
      by_cases hk : k < 15 <;> simp [hk]
    · refine congrArg some (Word.ext_bit fun k => ?_)
      by_cases hk : k < 15 <;> simp [hk]

theorem map_toZMod_add : (add.eval? a b).map Word.toZMod = some (a.toZMod + b.toZMod) := by
  rw [eval?, Option.map_some, Word.toZMod_wrap, Nat.cast_add]
  rfl

theorem map_toZMod_mult : (mult.eval? a b).map Word.toZMod = some (a.toZMod * b.toZMod) := by
  rw [eval?, Option.map_some, Word.toZMod_wrap, Nat.cast_mul]
  rfl

/-- To add the largest value is to subtract one. -/
theorem toNat_of_add_valueMask {w : Word} (h : add.eval? a valueMask = some w) :
    w.toNat = if a.toNat % modulus = 0 then modulus - 1 else a.toNat % modulus - 1 := by
  rw [eval?, Option.some.injEq] at h
  have hmask : valueMask.toNat = modulus - 1 := rfl
  rw [← h, Word.toNat_wrap, hmask]
  simp only [modulus]
  split
  · next hzero => omega
  · next hpos => omega

/-- Inversion exchanges `and` and `or`. -/
theorem map_complement_and :
    (and.eval? a b).map Word.complement = or.eval? a.complement b.complement := by
  refine congrArg some (Word.ext_bit fun k => ?_)
  by_cases hk : k < 15 <;> simp [hk]

theorem map_complement_or :
    (or.eval? a b).map Word.complement = and.eval? a.complement b.complement := by
  refine congrArg some (Word.ext_bit fun k => ?_)
  by_cases hk : k < 15 <;> simp [hk]

end BinaryOp

end WordMachine
