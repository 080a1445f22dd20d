import WordMachine.Word

/-!
# Stack

A stack of words, kept bottom first. Instructions never push onto a full stack, but a stack that
was put together from outside can be longer than the limit.
-/

namespace WordMachine

/-- A stack of words, bottom first. -/
structure Stack where
  words : Array Word
deriving DecidableEq, Repr

namespace Stack

def empty : Stack := ⟨#[]⟩

/-- The stack with the given entries, bottom first. -/
def ofList (ws : List Word) : Stack := ⟨ws.toArray⟩

/-- The entries, bottom first. -/
def toList (s : Stack) : List Word := s.words.toList

def depth (s : Stack) : Nat := s.words.size

/-- Whether an instruction may push no more. -/
def isFull (s : Stack) : Bool := stackLimit ≤ s.depth

def push (s : Stack) (w : Word) : Stack := ⟨s.words.push w⟩

def top? (s : Stack) : Option Word := s.words.back?

def pop (s : Stack) : Stack := ⟨s.words.pop⟩

@[simp] theorem toList_empty : empty.toList = [] := rfl

@[simp] theorem toList_ofList (ws : List Word) : (ofList ws).toList = ws := rfl

@[simp] theorem length_toList (s : Stack) : s.toList.length = s.depth := by
  simp [toList, depth]

@[simp] theorem toList_push (s : Stack) (w : Word) : (s.push w).toList = s.toList ++ [w] := by
  simp [toList, push]

@[simp] theorem toList_pop (s : Stack) : s.pop.toList = s.toList.dropLast := by
  simp [toList, pop]

theorem top?_eq (s : Stack) : s.top? = s.toList.getLast? := by
  simp [top?, toList]

@[simp] theorem top?_push (s : Stack) (w : Word) : (s.push w).top? = some w := by
  simp [top?, push]

@[simp] theorem pop_push (s : Stack) (w : Word) : (s.push w).pop = s := by
  simp [pop, push]

@[ext] theorem ext {s t : Stack} (h : s.toList = t.toList) : s = t := by
  cases s
  cases t
  simpa [toList] using h

/-! ### Looking from outside -/

/-- Add words on top, one after the other, whatever the limit. -/
def append (s : Stack) (ws : List Word) : Stack := ⟨s.words ++ ws.toArray⟩

/-- Bring the stack to a depth: cut it, or fill it up with copies of a word. -/
def resize (s : Stack) (depth : Nat) (w : Word) : Stack :=
  ⟨s.words.take depth ++ Array.replicate (depth - s.depth) w⟩

/-- The uppermost entries, topmost first, at most a given number of them. -/
def uppermost (s : Stack) (count : Nat) : List Word :=
  (s.words.extract (s.depth - count) s.depth).toList.reverse

/-- The entries in brackets, bottom first. -/
def text (s : Stack) : String := "[" ++ ", ".intercalate (s.toList.map Word.text) ++ "]"

end Stack

end WordMachine
