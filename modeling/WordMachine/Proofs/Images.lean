import Mathlib.Data.List.GetD
import Mathlib.Tactic.SplitIfs
import WordMachine.Image
import WordMachine.Proofs.Operations

/-!
# Images and the programs in them

Bytes are an image exactly if they are the words of a program, one after the other, and the program
fits into memory. Images and programs have the same bound, so that each image can be loaded. The cells
behind a program are zero, and so zeros at its end make no difference.
-/

namespace WordMachine

/-! ### Reading images -/

namespace Image

lemma length_encode (program : List Word) : (encode program).length = 2 * program.length := by
  induction program with
  | nil => rfl
  | cons w ws ih =>
    rw [encode, List.flatMap_cons, List.length_append, ← encode, ih, List.length_cons]
    simp only [bytesOf, List.length_cons, List.length_nil]
    omega

lemma decode_encode {program : List Word} (h : program.length ≤ memorySize) :
    decode (encode program) = .ok program := by
  have hlength := length_encode program
  rw [decode, if_neg (by omega), if_neg (by omega), wordsOf_encode]

lemma encode_replicate_zero (k : Nat) :
    encode (List.replicate k 0) = List.replicate (2 * k) 0 := by
  induction k with
  | zero => rfl
  | succ k ih =>
    have hzero : bytesOf 0 = List.replicate 2 0 := rfl
    rw [List.replicate_succ, encode, List.flatMap_cons, ← encode, ih, hzero,
      List.replicate_append_replicate, Nat.mul_succ, Nat.add_comm]

lemma encode_append_zeros (program : List Word) (k : Nat) :
    encode (program ++ List.replicate k 0) = encode program ++ List.replicate (2 * k) 0 := by
  rw [← encode_replicate_zero, encode, List.flatMap_append]
  rfl

variable {bytes : List UInt8} {program : List Word}

/-- An image is read as the program that was written as this image, and there is no other one. -/
theorem decode_eq_ok_iff :
    decode bytes = .ok program ↔ program.length ≤ memorySize ∧ encode program = bytes := by
  constructor
  · intro h
    rw [decode] at h
    split_ifs at h with hodd hlarge
    cases h
    rw [length_wordsOf, encode_wordsOf (Decidable.not_not.mp hodd)]
    exact ⟨Nat.le_of_not_lt hlarge, rfl⟩
  · rintro ⟨hsize, rfl⟩
    exact decode_encode hsize

/-- Whether the bytes make words is looked at before their number. -/
theorem decode_eq_error_iff {e : ImageError} :
    decode bytes = .error e ↔
      bytes.length % 2 = 1 ∧ e = .oddLength bytes.length ∨
        bytes.length % 2 = 0 ∧ 2 * memorySize < bytes.length ∧ e = .tooLarge (bytes.length / 2) := by
  rw [decode]
  by_cases hodd : bytes.length % 2 = 1
  · simp [hodd, eq_comm]
  · have heven : bytes.length % 2 = 0 := by omega
    have hlarge : memorySize < bytes.length / 2 ↔ 2 * memorySize < bytes.length := by omega
    by_cases h : 2 * memorySize < bytes.length
    · simp [heven, hlarge, h, eq_comm]
    · simp [heven, hlarge, h]

theorem exists_decode_iff :
    (∃ program, decode bytes = .ok program) ↔
      bytes.length % 2 = 0 ∧ bytes.length ≤ 2 * memorySize := by
  constructor
  · rintro ⟨program, h⟩
    obtain ⟨hsize, rfl⟩ := decode_eq_ok_iff.mp h
    rw [length_encode]
    exact ⟨Nat.mul_mod_right 2 _, Nat.mul_le_mul_left 2 hsize⟩
  · rintro ⟨heven, hsize⟩
    refine ⟨wordsOf bytes, decode_eq_ok_iff.mpr ⟨?_, encode_wordsOf heven⟩⟩
    rw [length_wordsOf]
    omega

end Image

/-! ### Loading programs -/

/-- Behind a program there are zeros, as far as there are cells. -/
theorem Memory.get_ofList (program : List Word) (w : Word) :
    (ofList program).get w =
      if w.toNat < memorySize then .ok (program.getD w.toNat 0) else .error (.invalidAddress w) := by
  by_cases h : w.toNat < memorySize
  · rw [get_of_lt _ h, cell_ofList, if_pos h]
  · rw [get_of_le _ (Nat.le_of_not_lt h), if_neg h]

lemma Memory.ofList_append_zeros (program : List Word) (k : Nat) :
    ofList (program ++ List.replicate k 0) = ofList program := by
  apply Memory.ext
  intro a
  rw [cell_ofList, cell_ofList]
  by_cases h : a.val < program.length
  · rw [List.getD_append _ _ _ _ h]
  · have hle := Nat.le_of_not_lt h
    rw [List.getD_append_right _ _ _ _ hle, List.getD_eq_default _ _ hle]
    by_cases hk : a.val - program.length < k
    · exact List.getD_replicate 0 hk
    · exact List.getD_eq_default _ _ (by simpa using hk)

namespace Machine

variable {program : List Word}

theorem load_eq_error_iff {e : MemoryError} :
    load program = .error e ↔ memorySize < program.length ∧ e = .programTooLarge program.length := by
  rw [load, Memory.load]
  by_cases h : program.length ≤ memorySize
  · simp [h, Nat.not_lt.mpr h, Except.map]
  · simp [h, Nat.lt_of_not_le h, Except.map, eq_comm]

/-- The word at each address: that of the program, if there is one, or else zero. -/
theorem get_of_load {m : Machine} (h : load program = .ok m) (w : Word) :
    m.core.memory.get w =
      if hw : w.toNat < program.length then .ok program[w.toNat]
      else if w.toNat < memorySize then .ok 0
      else .error (.invalidAddress w) := by
  obtain ⟨hsize, rfl⟩ := load_eq_ok_iff.mp h
  show (Memory.ofList program).get w = _
  rw [Memory.get_ofList]
  by_cases hw : w.toNat < program.length
  · have hcell : w.toNat < memorySize := Nat.lt_of_lt_of_le hw hsize
    simp [hw, hcell]
  · simp [hw]

lemma load_append_zeros {k : Nat} (h : program.length + k ≤ memorySize) :
    load (program ++ List.replicate k 0) = load program := by
  have hlong : (program ++ List.replicate k 0).length ≤ memorySize := by simpa using h
  have hshort : program.length ≤ memorySize := Nat.le_of_add_right_le h
  rw [load, load, Memory.load, Memory.load, if_pos hlong, if_pos hshort,
    Memory.ofList_append_zeros]

end Machine

open Machine (load)

/-- Bytes are an image if there is an even number of them, and not more than fit into memory. Reading
an image and writing a program are inverse to each other. Each image can be loaded, and then its words
are found at the first addresses and zeros behind them, so that zeros at its end change nothing. -/
theorem Image.round_trip_and_load :
    (∀ bytes, (∃ program, decode bytes = .ok program) ↔
      bytes.length % 2 = 0 ∧ bytes.length ≤ 2 * memorySize) ∧
    (∀ bytes e, decode bytes = .error e ↔
      bytes.length % 2 = 1 ∧ e = .oddLength bytes.length ∨
        bytes.length % 2 = 0 ∧ 2 * memorySize < bytes.length ∧ e = .tooLarge (bytes.length / 2)) ∧
    (∀ program, program.length ≤ memorySize → decode (encode program) = .ok program) ∧
    (∀ bytes program, decode bytes = .ok program →
      encode program = bytes ∧ ∃ m, load program = .ok m) ∧
    (∀ program e, load program = .error e ↔
      memorySize < program.length ∧ e = .programTooLarge program.length) ∧
    (∀ program m, load program = .ok m → ∀ w : Word,
      m.core.memory.get w =
        if hw : w.toNat < program.length then .ok program[w.toNat]
        else if w.toNat < memorySize then .ok 0
        else .error (.invalidAddress w)) ∧
    ∀ bytes program k, decode bytes = .ok program → program.length + k ≤ memorySize →
      decode (bytes ++ List.replicate (2 * k) 0) = .ok (program ++ List.replicate k 0) ∧
        load (program ++ List.replicate k 0) = load program := by
  refine ⟨?_, ?_, ?_, ?_, ?_, ?_, ?_⟩
  · exact fun bytes => exists_decode_iff
  · exact fun bytes e => decode_eq_error_iff
  · exact fun program h => decode_encode h
  · intro bytes program h
    obtain ⟨hsize, hbytes⟩ := decode_eq_ok_iff.mp h
    exact ⟨hbytes, _, Machine.load_eq_ok_iff.mpr ⟨hsize, rfl⟩⟩
  · exact fun program e => Machine.load_eq_error_iff
  · exact fun program m h => Machine.get_of_load h
  · intro bytes program k h hsize
    obtain ⟨-, rfl⟩ := decode_eq_ok_iff.mp h
    refine ⟨decode_eq_ok_iff.mpr ⟨?_, encode_append_zeros program k⟩, Machine.load_append_zeros hsize⟩
    simpa using hsize

/-- An image of two words, and what is found around their end. -/
theorem Image.round_trip_and_load_printer :
    decode [19, 0, 65, 0] = .ok [19, 65] ∧ encode [19, 65] = [19, 0, 65, 0] ∧
      Machine.printer.core.memory.get 1 = .ok 65 ∧ Machine.printer.core.memory.get 2 = .ok 0 ∧
      Machine.printer.core.memory.get 32768 = .error (.invalidAddress 32768) ∧
      decode [19, 0, 65, 0, 0, 0] = .ok [19, 65, 0] ∧ load [19, 65, 0] = .ok Machine.printer := by
  obtain ⟨-, -, hdecode, hencode, -, hget, hzeros⟩ := round_trip_and_load
  have himage : decode [19, 0, 65, 0] = .ok [19, 65] := hdecode [19, 65] (by decide)
  have hprinter := hget [19, 65] _ Machine.load_printer
  obtain ⟨hlonger, hload⟩ := hzeros _ _ 1 himage (by decide)
  exact ⟨himage, (hencode _ _ himage).1, hprinter 1, hprinter 2, hprinter 32768, hlonger,
    hload.trans Machine.load_printer⟩

end WordMachine
