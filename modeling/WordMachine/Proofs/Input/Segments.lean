import WordMachine.Console.Basic
import WordMachine.Proofs.Input.Lines

/-!
# Segments of a source

A source falls into segments, one for each read. `segments` cuts a source into all of them, and
`Cut` describes the first one. A segment whose read succeeds delivers its text, normalised; one
whose read fails delivers nothing but a message. What is still to come from a source is therefore a
text, `Source.unread`, and a list of messages, `Source.failures`.

`PeekRule` lists what can come of looking at the next character.
-/

namespace WordMachine

/-! ### Segments -/

namespace Source

/-- Put a byte in front of the first segment. If the read of that segment fails, the byte is lost. -/
def consByte (b : UInt8) : List Segment → List Segment
  | []                             => [.line [b] false]
  | .line bytes ended :: segments  => .line (b :: bytes) ended :: segments
  | .failure message :: segments   => .failure message :: segments

/-- Cut a stream into segments, each up to a newline, up to a failure, or up to the end. -/
def cutItems : List Item → List Segment
  | []                        => []
  | .failure message :: items => .failure message :: cutItems items
  | .byte b :: items          =>
    if b = newline then .line [] true :: cutItems items else consByte b (cutItems items)

/-- The segments of a source, in the order in which they are read. -/
def segments (s : Source) : List Segment := cutItems s.items

namespace Segment

/-- What a read of a segment returns: its text, with the newline, or the message of its failure. -/
def read : Segment → Except String (List Char)
  | .failure message  => .error message
  | .line bytes ended =>
    match String.fromUTF8? (if ended then bytes ++ [newline] else bytes).toByteArray with
    | none      => .error invalidText
    | some text => .ok text.toList

/-- The characters that the queue gets from a segment. -/
def delivered (segment : Segment) : List Char :=
  match segment.read with
  | .ok text => Input.normalise text
  | .error _ => []

/-- The message of a segment whose read fails. -/
def failure? (segment : Segment) : Option String :=
  match segment.read with
  | .ok _          => none
  | .error message => some message

section Read

variable {segment : Segment} {text : List Char} {message : String}

lemma delivered_of_ok (h : segment.read = .ok text) :
    segment.delivered = Input.normalise text := by
  rw [delivered, h]

lemma delivered_of_error (h : segment.read = .error message) : segment.delivered = [] := by
  rw [delivered, h]

lemma failure?_of_ok (h : segment.read = .ok text) : segment.failure? = none := by
  rw [failure?, h]

lemma failure?_of_error (h : segment.read = .error message) :
    segment.failure? = some message := by
  rw [failure?, h]

end Read

end Segment

/-- The text that is still to come from a source. -/
def unread (s : Source) : List Char := s.segments.flatMap Segment.delivered

/-- The messages of the failures that are still to come from a source. -/
def failures (s : Source) : List String := s.segments.filterMap Segment.failure?

/-! ### The first segment -/

/-- A stream starts with a segment. -/
inductive Cut : List Item → Segment → List Item → Prop
  | last {bytes : List UInt8} (h : newline ∉ bytes) (hne : bytes ≠ []) :
      Cut (bytes.map .byte) (.line bytes false) []
  | ended {bytes : List UInt8} (h : newline ∉ bytes) (rest : List Item) :
      Cut (bytes.map .byte ++ .byte newline :: rest) (.line bytes true) rest
  | failed {bytes : List UInt8} (h : newline ∉ bytes) (message : String) (rest : List Item) :
      Cut (bytes.map .byte ++ .failure message :: rest) (.failure message) rest

lemma takeWhile_isInline (items : List Item) :
    ∃ bytes : List UInt8, newline ∉ bytes ∧ items.takeWhile Item.isInline = bytes.map .byte := by
  induction items with
  | nil => exact ⟨[], List.not_mem_nil, rfl⟩
  | cons item items ih =>
    cases item with
    | failure message => exact ⟨[], List.not_mem_nil, rfl⟩
    | byte b =>
      by_cases hb : b = newline
      · refine ⟨[], List.not_mem_nil, ?_⟩
        simp [Item.isInline, hb]
      · obtain ⟨bytes, hbytes, htake⟩ := ih
        refine ⟨b :: bytes, ?_, ?_⟩
        · exact List.not_mem_cons_of_ne_of_not_mem (Ne.symm hb) hbytes
        · simp [Item.isInline, hb, htake]

lemma dropWhile_isInline {items rest : List Item} {item : Item}
    (h : items.dropWhile Item.isInline = item :: rest) :
    item = .byte newline ∨ ∃ message, item = .failure message := by
  have hitem := List.head?_dropWhile_not Item.isInline items
  rw [h] at hitem
  cases item with
  | byte b          => simpa [Item.isInline] using hitem
  | failure message => exact .inr ⟨message, rfl⟩

@[simp] lemma filterMap_byte? (bytes : List UInt8) :
    (bytes.map Item.byte).filterMap Item.byte? = bytes := by
  induction bytes with
  | nil => rfl
  | cons b bytes ih => simp [Item.byte?, ih]

theorem next?_eq_none_iff {s : Source} : s.next? = none ↔ s.items = [] := by
  obtain ⟨items⟩ := s
  cases items with
  | nil => simp
  | cons item items =>
    simp only [next?]
    split <;> simp

/-- A read takes the first segment. -/
theorem cut_of_next? {s rest : Source} {segment : Segment} (h : s.next? = some (segment, rest)) :
    Cut s.items segment rest.items := by
  obtain ⟨items⟩ := s
  obtain ⟨bytes, hbytes, htake⟩ := takeWhile_isInline items
  have hitems := List.takeWhile_append_dropWhile (p := Item.isInline) (l := items)
  cases items with
  | nil => cases h
  | cons item items =>
    simp only [next?, htake, filterMap_byte?] at h
    rw [htake] at hitems
    cases hdrop : (item :: items).dropWhile Item.isInline with
    | nil =>
      rw [hdrop] at h hitems
      cases h
      rw [List.append_nil] at hitems
      have hne : bytes ≠ [] := by
        rintro rfl
        cases hitems
      rw [← hitems]
      exact .last hbytes hne
    | cons item' items' =>
      rw [hdrop] at h hitems
      rw [← hitems]
      obtain rfl | ⟨message, rfl⟩ := dropWhile_isInline hdrop
      · cases h
        exact .ended hbytes items'
      · cases h
        exact .failed hbytes message items'

lemma cutItems_map_append {bytes : List UInt8} (h : newline ∉ bytes) (items : List Item) :
    cutItems (bytes.map .byte ++ items) = bytes.foldr consByte (cutItems items) := by
  induction bytes with
  | nil => rfl
  | cons b bytes ih =>
    have hb := List.ne_of_not_mem_cons h
    have hbytes := List.not_mem_of_not_mem_cons h
    rw [List.map_cons, List.cons_append, cutItems, if_neg (Ne.symm hb), ih hbytes, List.foldr_cons]

lemma foldr_consByte_nil {bytes : List UInt8} (hne : bytes ≠ []) :
    bytes.foldr consByte [] = [.line bytes false] := by
  induction bytes with
  | nil => contradiction
  | cons b bytes ih =>
    cases bytes with
    | nil           => rfl
    | cons b' bytes => rw [List.foldr_cons, ih (List.cons_ne_nil b' bytes), consByte]

lemma foldr_consByte_line (bytes bytes' : List UInt8) (ended : Bool) (segments : List Segment) :
    bytes.foldr consByte (.line bytes' ended :: segments) =
      .line (bytes ++ bytes') ended :: segments := by
  induction bytes with
  | nil => rfl
  | cons b bytes ih => rw [List.foldr_cons, ih, consByte, List.cons_append]

lemma foldr_consByte_failure (bytes : List UInt8) (message : String) (segments : List Segment) :
    bytes.foldr consByte (.failure message :: segments) = .failure message :: segments := by
  induction bytes with
  | nil => rfl
  | cons b bytes ih => rw [List.foldr_cons, ih, consByte]

/-- The segments of a source are its first one and those of the rest. -/
theorem cutItems_of_cut {items rest : List Item} {segment : Segment}
    (h : Cut items segment rest) : cutItems items = segment :: cutItems rest := by
  cases h with
  | @last bytes h hne =>
    have hcut := cutItems_map_append h []
    rw [List.append_nil] at hcut
    rw [hcut, cutItems, foldr_consByte_nil hne]
  | @ended bytes h =>
    rw [cutItems_map_append h, cutItems, if_pos rfl, foldr_consByte_line, List.append_nil]
  | failed h message =>
    rw [cutItems_map_append h, cutItems, foldr_consByte_failure]

lemma segments_of_next? {s rest : Source} {segment : Segment}
    (h : s.next? = some (segment, rest)) : s.segments = segment :: rest.segments :=
  cutItems_of_cut (cut_of_next? h)

lemma unread_of_next? {s rest : Source} {segment : Segment}
    (h : s.next? = some (segment, rest)) : s.unread = segment.delivered ++ rest.unread := by
  rw [unread, segments_of_next? h, List.flatMap_cons, ← unread]

lemma failures_of_next? {s rest : Source} {segment : Segment}
    (h : s.next? = some (segment, rest)) :
    s.failures = segment.failure?.toList ++ rest.failures := by
  rw [failures, segments_of_next? h, List.filterMap_cons, failures]
  cases segment.failure? <;> rfl

/-! ### Texts of segments -/

lemma mem_of_mem_dropReturn {c : Char} {line : List Char} (h : c ∈ dropReturn line) :
    c ∈ line := by
  rw [dropReturn] at h
  split at h
  · exact (List.dropLast_sublist line).subset h
  · exact h

lemma Segment.read_line {line : List Char} (h : '\n' ∉ line) :
    (Segment.line (Input.utf8 line) true).read = .ok (line ++ ['\n']) := by
  rw [read, if_pos rfl, Input.fromUTF8?_append_newline (mt Input.newline_mem_utf8.mp h),
    Input.fromUTF8?_utf8, Option.map_some]
  simp only [String.toList_push, String.toList_ofList]

open Input in
/-- A segment is read as a text, which is one line of input, or it is not read at all. -/
theorem Segment.read_of_cut {items rest : List Item} {segment : Segment}
    (h : Cut items segment rest) :
    (∃ message, segment.text = .error message ∧ segment.read = .error message) ∨
      ∃ line text, segment.text = .ok line ∧ segment.read = .ok text ∧ '\n' ∉ line ∧
        normalise text = line ++ ['\n'] := by
  cases h with
  | failed h message => exact .inl ⟨message, rfl, rfl⟩
  | @last bytes h hne =>
    simp only [text, read, Bool.false_eq_true, if_false]
    cases hu : String.fromUTF8? bytes.toByteArray with
    | none => exact .inl ⟨invalidText, rfl, rfl⟩
    | some t =>
      rw [fromUTF8?_eq_some_iff] at hu
      rw [hu, newline_mem_utf8] at h
      rw [hu, Ne, utf8_eq_nil_iff] at hne
      exact .inr ⟨t.toList, t.toList, rfl, rfl, h, normalise_of_not_mem h hne⟩
  | @ended bytes h =>
    simp only [text, read, if_true, fromUTF8?_append_newline h]
    cases hu : String.fromUTF8? bytes.toByteArray with
    | none => exact .inl ⟨invalidText, rfl, rfl⟩
    | some t =>
      rw [fromUTF8?_eq_some_iff] at hu
      rw [hu, newline_mem_utf8] at h
      refine .inr ⟨dropReturn t.toList, (t.push '\n').toList, rfl, rfl, ?_, ?_⟩
      · exact mt mem_of_mem_dropReturn h
      · rw [String.toList_push, normalise_append_newline h, normalise_nil]

end Source

/-! ### Looking at a character -/

/-- What can come of looking at the next character: the result and the console after it. -/
inductive PeekRule (con : Console) : Except Fault Char → Console → Prop
  | waiting {c : Char} {cs : List Char} (h : con.pending = c :: cs) : PeekRule con (.ok c) con
  | exhausted (h : con.pending = []) (hs : con.source.items = []) :
      PeekRule con (.error .endOfInput) con
  | refilled {segment : Source.Segment} {rest : Source} {text : List Char} {c : Char}
      {cs : List Char} (h : con.pending = []) (hs : con.source.next? = some (segment, rest))
      (ht : segment.read = .ok text) (hn : Input.normalise text = c :: cs) :
      PeekRule con (.ok c) { con with pending := c :: cs, source := rest }
  | failed {segment : Source.Segment} {rest : Source} {message : String} (h : con.pending = [])
      (hs : con.source.next? = some (segment, rest)) (ht : segment.read = .error message) :
      PeekRule con (.error (.io message)) { con with source := rest }

/-- The rules cover every look. -/
theorem Console.peekRule (con : Console) : PeekRule con con.peek.result con.peek.console := by
  cases h : con.pending with
  | cons c cs =>
    rw [peek_cons h]
    exact .waiting h
  | nil =>
    cases hs : con.source.next? with
    | none =>
      simp only [peek, h, hs]
      exact .exhausted h (Source.next?_eq_none_iff.mp hs)
    | some p =>
      obtain ⟨segment, rest⟩ := p
      obtain ⟨message, ht, hr⟩ | ⟨line, text, ht, hr, -, hn⟩ :=
        Source.Segment.read_of_cut (Source.cut_of_next? hs)
      · simp only [peek, h, hs, ht]
        rw [← h]
        exact .failed h hs hr
      · simp only [peek, h, hs, ht]
        cases line with
        | nil => exact .refilled h hs hr hn
        | cons c cs => exact .refilled h hs hr hn

lemma Console.peekRule_of_result {con : Console} {r : Except Fault Char}
    (h : con.peek.result = r) : PeekRule con r con.peek.console := h ▸ con.peekRule

end WordMachine
