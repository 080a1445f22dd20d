/-!
# Words

The machine computes on sixteen-bit words, and a value has fifteen bits. A word below `2 ^ 15` can
stand for itself, for a memory cell, or for a character; the eight words from `2 ^ 15` on select a
register. Arithmetic is carried out on natural numbers and reduced at the end, so nothing is lost
in between.
-/

namespace WordMachine

abbrev Word := UInt16

abbrev memorySize : Nat := 32768

abbrev registerCount : Nat := 8

/-- The first word that selects a register. -/
abbrev registerBase : Nat := 32768

/-- Arithmetic results are reduced modulo this number. -/
abbrev modulus : Nat := 32768

/-- The bits of a value. -/
abbrev valueMask : Word := 32767

/-- Largest number of entries that instructions put on the stack. -/
abbrev stackLimit : Nat := 1048576

/-- Number of cycles a program gets if nothing else is asked for. -/
abbrev defaultBudget : Nat := 1000000000

abbrev Address := Fin memorySize

namespace Word

/-- Reduce a result to the fifteen bits of a value. -/
def wrap (n : Nat) : Word := UInt16.ofNat (n % modulus)

@[simp] theorem toNat_wrap (n : Nat) : (wrap n).toNat = n % modulus := by
  simp only [wrap, modulus, UInt16.toNat_ofNat']
  omega

theorem toNat_wrap_lt (n : Nat) : (wrap n).toNat < modulus := by
  simp only [toNat_wrap, modulus]
  omega

/-- The bits of a value are what remains of a word. -/
theorem and_valueMask (w : Word) : w &&& valueMask = wrap w.toNat := by
  apply UInt16.toNat_inj.mp
  have hmask : valueMask.toNat = 2 ^ 15 - 1 := rfl
  rw [UInt16.toNat_and, hmask, Nat.and_two_pow_sub_one_eq_mod, toNat_wrap]

def text (w : Word) : String := toString w.toNat

def ofAddress (a : Address) : Word := UInt16.ofNat a.val

@[simp] theorem toNat_ofAddress (a : Address) : (ofAddress a).toNat = a.val := by
  have := a.isLt
  simp only [ofAddress, memorySize, UInt16.toNat_ofNat'] at *
  omega

/-! ### Characters -/

/-- The surrogates and the end of the code space lie above every value. -/
theorem isValidChar_of_lt {n : Nat} (h : n < memorySize) : n.isValidChar :=
  Or.inl (Nat.lt_trans h (by decide))

/-- The character with a given code: every value is the code of one. -/
def char? (w : Word) : Option Char :=
  if h : w.toNat < memorySize then some (Char.ofNatAux w.toNat (isValidChar_of_lt h)) else none

/-- The word for a character, if its code is a value. -/
def ofChar? (c : Char) : Option Word :=
  if c.toNat < memorySize then some (UInt16.ofNat c.toNat) else none

theorem char?_eq_none_iff (w : Word) : w.char? = none ↔ memorySize ≤ w.toNat := by
  constructor
  · intro h
    apply Nat.le_of_not_lt
    intro hlt
    rw [char?, dif_pos hlt] at h
    cases h
  · intro h
    rw [char?, dif_neg (Nat.not_lt.mpr h)]

theorem char?_of_ofChar? {c : Char} {w : Word} (h : ofChar? c = some w) : w.char? = some c := by
  simp only [ofChar?] at h
  split at h
  · next hc =>
    cases h
    have hw : (UInt16.ofNat c.toNat).toNat = c.toNat := by
      rw [UInt16.toNat_ofNat', Nat.mod_eq_of_lt (Nat.lt_trans hc (by decide))]
    rw [char?, dif_pos (hw.symm ▸ hc), Option.some.injEq]
    exact Char.ext (UInt32.toNat_inj.mp hw)
  · contradiction

theorem ofChar?_eq_none_iff (c : Char) : ofChar? c = none ↔ memorySize ≤ c.toNat := by
  simp [ofChar?]

end Word

end WordMachine
