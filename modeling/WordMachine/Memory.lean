import WordMachine.Word

/-!
# Memory

The memory is `memorySize` cells of one word each, all zero at first. A program is put at its
start. A word that is no address is refused by every access.
-/

namespace WordMachine

/-- Why an access to the memory is refused. -/
inductive MemoryError
  /-- The word addresses no cell. -/
  | invalidAddress (word : Word)
  /-- The program has more words than there are cells. -/
  | programTooLarge (words : Nat)
deriving DecidableEq, Repr

def MemoryError.text : MemoryError → String
  | .invalidAddress w   => "invalid address " ++ w.text
  | .programTooLarge n  => "program of " ++ toString n ++ " words does not fit in memory"

/-- The cell a word addresses. -/
def Word.address (w : Word) : Except MemoryError Address :=
  if h : w.toNat < memorySize then .ok ⟨w.toNat, h⟩ else .error (.invalidAddress w)

@[simp] theorem Word.address_ofAddress (a : Address) : (Word.ofAddress a).address = .ok a := by
  simp [Word.address]

theorem Word.address_of_lt {w : Word} (h : w.toNat < memorySize) :
    w.address = .ok ⟨w.toNat, h⟩ := by
  simp [Word.address, h]

theorem Word.address_of_le {w : Word} (h : memorySize ≤ w.toNat) :
    w.address = .error (.invalidAddress w) := by
  simp [Word.address, Nat.not_lt.mpr h]

structure Memory where
  cells : Vector Word memorySize
deriving DecidableEq

namespace Memory

def zero : Memory := ⟨Vector.replicate memorySize 0⟩

def cell (m : Memory) (a : Address) : Word := m.cells[a.val]

def set (m : Memory) (a : Address) (w : Word) : Memory := ⟨m.cells.set a.val w⟩

@[simp] theorem cell_zero (a : Address) : zero.cell a = 0 := by
  simp [zero, cell]

@[simp] theorem cell_set_self (m : Memory) (a : Address) (w : Word) : (m.set a w).cell a = w := by
  simp [cell, set]

theorem cell_set_of_ne (m : Memory) {a b : Address} (w : Word) (h : a ≠ b) :
    (m.set a w).cell b = m.cell b := by
  have : a.val ≠ b.val := fun e => h (Fin.ext e)
  simp [cell, set, this]

@[ext] theorem ext {m m' : Memory} (h : ∀ a, m.cell a = m'.cell a) : m = m' := by
  cases m
  cases m'
  exact congrArg mk (Vector.ext fun i hi => h ⟨i, hi⟩)

/-- The word in the cell that a word addresses. -/
def get (m : Memory) (w : Word) : Except MemoryError Word :=
  w.address.map m.cell

theorem get_of_lt (m : Memory) {w : Word} (h : w.toNat < memorySize) :
    m.get w = .ok (m.cell ⟨w.toNat, h⟩) := by
  simp [get, Word.address_of_lt h, Except.map]

theorem get_of_le (m : Memory) {w : Word} (h : memorySize ≤ w.toNat) :
    m.get w = .error (.invalidAddress w) := by
  simp [get, Word.address_of_le h, Except.map]

/-! ### Programs -/

/-- The memory whose first cells hold the words, and the others zero; words that find no cell are
dropped. -/
def ofList (program : List Word) : Memory :=
  let words := program.toArray
  ⟨Vector.ofFn fun i => words.getD i.val 0⟩

@[simp] theorem cell_ofList (program : List Word) (a : Address) :
    (ofList program).cell a = program.getD a.val 0 := by
  simp [ofList, cell]

theorem ofList_nil : ofList [] = zero := by
  ext a
  simp

/-- One more word of a program goes into one more cell. -/
theorem ofList_concat (program : List Word) (w : Word) (h : program.length < memorySize) :
    ofList (program ++ [w]) = (ofList program).set ⟨program.length, h⟩ w := by
  ext a
  by_cases ha : a = ⟨program.length, h⟩
  · rw [ha, cell_set_self, cell_ofList]
    simp
  · have hne : a.val ≠ program.length := fun e => ha (Fin.ext e)
    rw [cell_set_of_ne _ w (Ne.symm ha), cell_ofList, cell_ofList]
    by_cases hlt : a.val < program.length
    · simp [List.getElem?_append_left hlt]
    · have hle : program.length ≤ a.val := Nat.le_of_not_lt hlt
      have hpos : a.val - program.length ≠ 0 := by omega
      simp [List.getElem?_append_right hle, hle, hpos]

def load (program : List Word) : Except MemoryError Memory :=
  if program.length ≤ memorySize then .ok (ofList program)
  else .error (.programTooLarge program.length)

/-! ### Looking from outside -/

/-- Write words to consecutive addresses. The first address that is none ends the writing; what
was written before it stays. -/
def setFrom (m : Memory) (start : Word) : List Word → Option MemoryError × Memory
  | []      => (none, m)
  | w :: ws =>
    match start.address with
    | .ok a    => (m.set a w).setFrom (start + 1) ws
    | .error e => (some e, m)

/-- To write words after those of a program is to have a longer program in memory. -/
theorem setFrom_ofList (program : List Word) {ws : List Word}
    (h : program.length + ws.length ≤ memorySize) :
    (ofList program).setFrom (UInt16.ofNat program.length) ws = (none, ofList (program ++ ws)) := by
  induction ws generalizing program with
  | nil => simp [setFrom]
  | cons w ws ih =>
    rw [List.length_cons] at h
    have hlt : program.length < memorySize := by omega
    have haddress : Word.address (UInt16.ofNat program.length) = .ok ⟨program.length, hlt⟩ := by
      have hmod : program.length % 65536 = program.length :=
        Nat.mod_eq_of_lt (Nat.lt_of_lt_of_le hlt (by decide))
      simp [Word.address, hmod, hlt]
    have hnext := ih (program ++ [w]) (by simp; omega)
    rw [List.length_append, List.length_singleton, UInt16.ofNat_add, List.append_assoc] at hnext
    simp only [setFrom, haddress, ← ofList_concat program w hlt]
    exact hnext

/-- The cells in which two memories differ, in order, with the word each has in the second. -/
def changes (before after : Memory) : List (Address × Word) :=
  Fin.foldr memorySize (fun a rest =>
    if before.cell a = after.cell a then rest else (a, after.cell a) :: rest) []

/-- The memory written as the record it is, its cells left out. -/
def inspect : String := "Memory \x7b [" ++ toString memorySize ++ " words] \x7d"

end Memory

end WordMachine
