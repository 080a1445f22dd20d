import WordMachine.Word

/-!
# Registers

Eight registers, each holding a word. In an instruction a register is named by its selector, one
of the eight words from `registerBase` on.
-/

namespace WordMachine

structure Reg where
  index : Fin registerCount
deriving DecidableEq, Repr

namespace Reg

/-- The word that names a register in an instruction. -/
def selector (r : Reg) : Word := UInt16.ofNat (registerBase + r.index.val)

/-- The register a word names, if it names one. -/
def ofSelector? (w : Word) : Option Reg :=
  if h : registerBase ≤ w.toNat ∧ w.toNat < registerBase + registerCount then
    some ⟨w.toNat - registerBase, Nat.sub_lt_left_of_lt_add h.1 h.2⟩
  else none

@[simp] theorem toNat_selector (r : Reg) : r.selector.toNat = registerBase + r.index.val := by
  have := r.index.isLt
  simp only [selector, registerBase, registerCount, UInt16.toNat_ofNat'] at *
  omega

@[simp] theorem ofSelector?_selector (r : Reg) : ofSelector? r.selector = some r := by
  have := r.index.isLt
  simp [ofSelector?]

theorem ofSelector?_of_lt {w : Word} (h : registerBase ≤ w.toNat)
    (hlt : w.toNat < registerBase + registerCount) :
    ofSelector? w = some ⟨w.toNat - registerBase, Nat.sub_lt_left_of_lt_add h hlt⟩ := by
  rw [ofSelector?, dif_pos ⟨h, hlt⟩]

theorem ofSelector?_of_le {w : Word} (h : registerBase + registerCount ≤ w.toNat) :
    ofSelector? w = none := by
  rw [ofSelector?, dif_neg]
  exact fun hw => Nat.not_lt.mpr h hw.2

theorem selector_of_ofSelector? {w : Word} {r : Reg} (h : ofSelector? w = some r) :
    r.selector = w := by
  simp only [ofSelector?] at h
  split at h
  · next hw =>
    rw [← Option.some.inj h]
    apply UInt16.toNat_inj.mp
    rw [toNat_selector]
    exact Nat.add_sub_of_le hw.1
  · contradiction

theorem le_of_ofSelector? {w : Word} {r : Reg} (h : ofSelector? w = some r) :
    registerBase ≤ w.toNat := by
  rw [← selector_of_ofSelector? h, toNat_selector]
  exact Nat.le_add_right _ _

def text (r : Reg) : String := "%r" ++ toString r.index.val

def inspect (r : Reg) : String := "R" ++ toString r.index.val

def all : List Reg := (List.finRange registerCount).map Reg.mk

@[simp] theorem mem_all (r : Reg) : r ∈ all := by
  simp [all]

end Reg

structure Registers where
  cells : Vector Word registerCount
deriving DecidableEq, Repr

namespace Registers

def zero : Registers := ⟨Vector.replicate registerCount 0⟩

def get (rs : Registers) (r : Reg) : Word := rs.cells[r.index.val]

def set (rs : Registers) (r : Reg) (w : Word) : Registers := ⟨rs.cells.set r.index.val w⟩

@[simp] theorem get_zero (r : Reg) : zero.get r = 0 := by
  simp [zero, get]

@[simp] theorem get_set_self (rs : Registers) (r : Reg) (w : Word) : (rs.set r w).get r = w := by
  simp [get, set]

theorem get_set_of_ne (rs : Registers) {r s : Reg} (w : Word) (h : r ≠ s) :
    (rs.set r w).get s = rs.get s := by
  have : r.index.val ≠ s.index.val := fun e => h (by cases r; cases s; simp_all [Fin.ext_iff])
  simp [get, set, this]

/-- Put words into the first registers, in order; words past the last register are dropped. -/
def setAll (rs : Registers) (ws : List Word) : Registers :=
  (Reg.all.zip ws).foldl (fun rs (r, w) => rs.set r w) rs

/-- Registers whose first ones hold the given words and the others zero. -/
def ofList (ws : List Word) : Registers := zero.setAll ws

def toList (rs : Registers) : List Word := rs.cells.toList

/-- The registers in one line. -/
def text (rs : Registers) : String :=
  " | ".intercalate (Reg.all.map fun r => r.text ++ " = " ++ (rs.get r).text)

/-- The registers written as the record they are. -/
def inspect (rs : Registers) : String :=
  "Registers \x7b inner: [" ++ ", ".intercalate (rs.toList.map Word.text) ++ "] \x7d"

end Registers

end WordMachine
