import WordMachine.Word

/-!
# Program images

A program image is a sequence of words, each written as two bytes, the low one first. An image
with an odd number of bytes, or with more words than there are memory cells, is none.
-/

namespace WordMachine

/-- Why bytes are no image. -/
inductive ImageError
  | oddLength (bytes : Nat)
  | tooLarge (words : Nat)
deriving DecidableEq, Repr

def ImageError.text : ImageError → String
  | .oddLength n => "image has an odd length of " ++ toString n ++ " bytes"
  | .tooLarge n  =>
    "image has " ++ toString n ++ " words, more than the " ++ toString memorySize ++
      " words of memory"

namespace Image

/-- The word that two bytes make. -/
def wordOf (low high : UInt8) : Word := UInt16.ofNat (low.toNat + 256 * high.toNat)

/-- The bytes of a word, low one first. -/
def bytesOf (w : Word) : List UInt8 := [UInt8.ofNat (w.toNat % 256), UInt8.ofNat (w.toNat / 256)]

def wordsOf : List UInt8 → List Word
  | low :: high :: rest => wordOf low high :: wordsOf rest
  | _                   => []

def decode (bytes : List UInt8) : Except ImageError (List Word) :=
  if bytes.length % 2 ≠ 0 then .error (.oddLength bytes.length)
  else if memorySize < bytes.length / 2 then .error (.tooLarge (bytes.length / 2))
  else .ok (wordsOf bytes)

def encode (ws : List Word) : List UInt8 := ws.flatMap bytesOf

theorem wordOf_bytesOf (w : Word) :
    wordOf (UInt8.ofNat (w.toNat % 256)) (UInt8.ofNat (w.toNat / 256)) = w := by
  apply UInt16.toNat_inj.mp
  have := w.toNat_lt
  simp only [wordOf, UInt8.toNat_ofNat', UInt16.toNat_ofNat']
  omega

@[simp] theorem wordsOf_encode (ws : List Word) : wordsOf (encode ws) = ws := by
  induction ws with
  | nil => rfl
  | cons w ws ih =>
    simp only [encode, List.flatMap_cons, bytesOf, List.cons_append, List.nil_append, wordsOf,
      wordOf_bytesOf]
    exact congrArg _ ih

theorem bytesOf_wordOf (low high : UInt8) : bytesOf (wordOf low high) = [low, high] := by
  have := low.toNat_lt
  have := high.toNat_lt
  simp only [bytesOf, wordOf, List.cons.injEq, and_true, ← UInt8.toNat_inj, UInt8.toNat_ofNat',
    UInt16.toNat_ofNat']
  omega

/-- A whole number of words is written back as the bytes it was read from. -/
theorem encode_wordsOf : ∀ {bytes : List UInt8}, bytes.length % 2 = 0 →
    encode (wordsOf bytes) = bytes
  | [], _                  => rfl
  | [_], h                 => by simp at h
  | low :: high :: rest, h => by
    have ih : encode (wordsOf rest) = rest :=
      encode_wordsOf (by simp only [List.length_cons] at h; omega)
    simp only [encode] at ih
    simp [wordsOf, encode, bytesOf_wordOf, ih]

theorem length_wordsOf : ∀ bytes : List UInt8, (wordsOf bytes).length = bytes.length / 2
  | []               => rfl
  | [_]              => by simp [wordsOf]
  | _ :: _ :: rest   => by
    simp only [wordsOf, List.length_cons, length_wordsOf rest]
    omega

end Image

end WordMachine
