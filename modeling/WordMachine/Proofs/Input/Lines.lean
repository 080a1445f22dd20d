import WordMachine.Console.Source
import Mathlib.Tactic.Lemma

/-!
# Lines of text

How a text reaches the queue of characters is a matter of its lines: one carriage return before a
newline is left out, and a line that no newline ends is given one. `normalise` says so of a whole
text. In bytes, lines are cut where characters are, since no character but the newline is encoded
with a newline in it.
-/

namespace WordMachine.Input

/-! ### Normalised text -/

/-- Cut a text into its lines, each with whether a newline ended it. -/
def lines : List Char → List (List Char × Bool)
  | []      => []
  | c :: cs =>
    if c = '\n' then ([], true) :: lines cs
    else
      match lines cs with
      | []                      => [([c], false)]
      | (line, ended) :: others => (c :: line, ended) :: others

/-- A line as the machine reads it. A carriage return goes with the newline it precedes. -/
def lineRead : List Char × Bool → List Char
  | (line, true)  => (if line.getLast? = some '\r' then line.dropLast else line) ++ ['\n']
  | (line, false) => line ++ ['\n']

/-- A text as the machine reads it. -/
def normalise (text : List Char) : List Char := (lines text).flatMap lineRead

example : normalise ['a', '\r', '\r', '\n', '\n', '\r', 'b'] =
    ['a', '\r', '\n', '\n', '\r', 'b', '\n'] := by decide

@[simp] lemma normalise_nil : normalise [] = [] := rfl

lemma lines_append_newline {line : List Char} (h : '\n' ∉ line) (text : List Char) :
    lines (line ++ '\n' :: text) = (line, true) :: lines text := by
  induction line with
  | nil => simp [lines]
  | cons c line ih =>
    have hc := List.ne_of_not_mem_cons h
    have hline := List.not_mem_of_not_mem_cons h
    simp only [List.cons_append, lines, if_neg (Ne.symm hc), ih hline]

lemma lines_of_not_mem {line : List Char} (h : '\n' ∉ line) (hne : line ≠ []) :
    lines line = [(line, false)] := by
  induction line with
  | nil => contradiction
  | cons c line ih =>
    have hc := List.ne_of_not_mem_cons h
    have hline := List.not_mem_of_not_mem_cons h
    cases line with
    | nil => simp only [lines, if_neg (Ne.symm hc)]
    | cons d line =>
      rw [lines, if_neg (Ne.symm hc), ih hline (List.cons_ne_nil d line)]

/-- The first line of a text is read before the rest of it. -/
lemma normalise_append_newline {line : List Char} (h : '\n' ∉ line) (text : List Char) :
    normalise (line ++ '\n' :: text) = Source.dropReturn line ++ '\n' :: normalise text := by
  rw [normalise, lines_append_newline h, List.flatMap_cons, lineRead, List.append_assoc]
  rfl

/-- A last line that no newline ends is given one. -/
lemma normalise_of_not_mem {line : List Char} (h : '\n' ∉ line) (hne : line ≠ []) :
    normalise line = line ++ ['\n'] := by
  rw [normalise, lines_of_not_mem h hne, List.flatMap_singleton, lineRead]

/-! ### Bytes of a text -/

/-- The bytes of a text. -/
def utf8 (text : List Char) : List UInt8 := text.flatMap String.utf8EncodeChar

@[simp] lemma utf8_nil : utf8 [] = [] := rfl

@[simp] lemma utf8_cons (c : Char) (text : List Char) :
    utf8 (c :: text) = String.utf8EncodeChar c ++ utf8 text := rfl

@[simp] lemma utf8_append (s t : List Char) : utf8 (s ++ t) = utf8 s ++ utf8 t :=
  List.flatMap_append

lemma toByteArray_utf8 (text : String) : (utf8 text.toList).toByteArray = text.toByteArray :=
  String.utf8Encode_toList

/-- Bytes are a text exactly if they are its encoding. -/
lemma fromUTF8?_eq_some_iff {bytes : List UInt8} {text : String} :
    String.fromUTF8? bytes.toByteArray = some text ↔ bytes = utf8 text.toList := by
  constructor
  · intro h
    have hbytes : text.toByteArray = bytes.toByteArray := by
      rw [String.fromUTF8?] at h
      split at h
      · cases h
        rfl
      · cases h
    rw [← toByteArray_utf8] at hbytes
    have := congrArg (fun b => b.data.toList) hbytes
    simpa only [List.toList_data_toByteArray] using this.symm
  · rintro rfl
    rw [toByteArray_utf8, String.fromUTF8?, dif_pos text.isValidUTF8]
    rfl

lemma fromUTF8?_utf8 (text : List Char) :
    String.fromUTF8? (utf8 text).toByteArray = some (.ofList text) := by
  rw [fromUTF8?_eq_some_iff, String.toList_ofList]

lemma newline_eq_ofNat {n : Nat} (h : Source.newline = UInt8.ofNat n) : n % 256 = 10 := by
  have hn := congrArg UInt8.toNat h
  rw [UInt8.toNat_ofNat'] at hn
  exact hn.symm

/-- Only a newline has the byte of one in its encoding. -/
lemma newline_mem_utf8EncodeChar {c : Char} :
    Source.newline ∈ String.utf8EncodeChar c ↔ c = '\n' := by
  constructor
  · intro h
    simp only [String.utf8EncodeChar] at h
    split at h
    · rw [List.mem_singleton] at h
      have hmod := newline_eq_ofNat h
      have hc : c.val.toNat = 10 := by omega
      exact Char.ext (UInt32.toNat_inj.mp hc)
    · -- the bytes of a longer encoding all have the highest bit set
      split at h
      · simp only [List.mem_cons, List.not_mem_nil, or_false] at h
        rcases h with h | h <;> have := newline_eq_ofNat h <;> omega
      · split at h
        · simp only [List.mem_cons, List.not_mem_nil, or_false] at h
          rcases h with h | h | h <;> have := newline_eq_ofNat h <;> omega
        · simp only [List.mem_cons, List.not_mem_nil, or_false] at h
          rcases h with h | h | h | h <;> have := newline_eq_ofNat h <;> omega
  · rintro rfl
    decide

lemma newline_mem_utf8 {text : List Char} : Source.newline ∈ utf8 text ↔ '\n' ∈ text := by
  simp only [utf8, List.mem_flatMap, newline_mem_utf8EncodeChar]
  constructor
  · rintro ⟨c, hc, rfl⟩
    exact hc
  · intro h
    exact ⟨'\n', h, rfl⟩

lemma utf8_eq_nil_iff {text : List Char} : utf8 text = [] ↔ text = [] := by
  cases text with
  | nil       => simp
  | cons c cs => simp [String.utf8EncodeChar_ne_nil]

/-- A text is cut at a newline where its bytes are. -/
lemma exists_of_utf8_eq_append {text : List Char} {bytes rest : List UInt8}
    (hbytes : Source.newline ∉ bytes) (h : utf8 text = bytes ++ Source.newline :: rest) :
    ∃ line text', text = line ++ '\n' :: text' ∧ bytes = utf8 line ∧ rest = utf8 text' := by
  induction text generalizing bytes with
  | nil => simp at h
  | cons c text ih =>
    rw [utf8_cons] at h
    by_cases hc : c = '\n'
    · subst hc
      have henc : String.utf8EncodeChar '\n' = [Source.newline] := rfl
      rw [henc] at h
      cases bytes with
      | nil =>
        obtain ⟨-, hrest⟩ := List.cons.inj h
        exact ⟨[], text, rfl, rfl, hrest.symm⟩
      | cons b bytes =>
        obtain ⟨hb, -⟩ := List.cons.inj h
        exact absurd (hb ▸ List.mem_cons_self) hbytes
    · have henc : Source.newline ∉ String.utf8EncodeChar c := mt newline_mem_utf8EncodeChar.mp hc
      -- the encoding of `c` lies within `bytes`, which goes as far as the first newline
      obtain ⟨bytes', rfl, htext⟩ | ⟨tail, htail, htext⟩ := List.append_eq_append_iff.mp h
      · have hbytes' : Source.newline ∉ bytes' := mt (List.mem_append_right _) hbytes
        obtain ⟨line, text', rfl, rfl, rfl⟩ := ih hbytes' htext
        exact ⟨c :: line, text', rfl, rfl, rfl⟩
      · cases tail with
        | nil =>
          rw [List.append_nil] at htail
          obtain ⟨line, text', rfl, hline, rfl⟩ := ih List.not_mem_nil htext.symm
          rw [utf8_eq_nil_iff.mp hline.symm]
          exact ⟨[c], text', rfl, by simp [htail], rfl⟩
        | cons b tail =>
          obtain ⟨rfl, -⟩ := List.cons.inj htext
          rw [htail] at henc
          exact absurd (List.mem_append_right _ List.mem_cons_self) henc

/-- A newline is neither needed nor in the way when a line is decoded. -/
lemma fromUTF8?_append_newline {bytes : List UInt8} (h : Source.newline ∉ bytes) :
    String.fromUTF8? (bytes ++ [Source.newline]).toByteArray =
      (String.fromUTF8? bytes.toByteArray).map (·.push '\n') := by
  cases hline : String.fromUTF8? bytes.toByteArray with
  | some line =>
    rw [Option.map_some, fromUTF8?_eq_some_iff, fromUTF8?_eq_some_iff.mp hline, String.toList_push,
      utf8_append]
    rfl
  | none =>
    rw [Option.map_none, Option.eq_none_iff_forall_ne_some]
    intro text htext
    have hbytes := (fromUTF8?_eq_some_iff.mp htext).symm
    obtain ⟨line, text', -, rfl, -⟩ := exists_of_utf8_eq_append h hbytes
    rw [fromUTF8?_utf8] at hline
    cases hline

end WordMachine.Input
