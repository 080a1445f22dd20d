/-!
# Sources of input

A source is a stream of bytes that is read line by line, and in which a read may fail. One read
takes one segment: the bytes up to a newline, which it swallows, up to the end, or up to a
failure, which it uses up together with the bytes before it. Lines are text in UTF-8; a line that
is not is used up as well.
-/

namespace WordMachine

/-- One element of a source. -/
inductive Source.Item
  | byte (b : UInt8)
  /-- Reading on fails once, with a message. -/
  | failure (message : String)
deriving DecidableEq

/-- What is left to read. -/
structure Source where
  items : List Source.Item
deriving DecidableEq

namespace Source

def empty : Source := ⟨[]⟩

def ofBytes (bytes : List UInt8) : Source := ⟨bytes.map .byte⟩

def append (s t : Source) : Source := ⟨s.items ++ t.items⟩

instance : Append Source := ⟨append⟩

def newline : UInt8 := 10

/-- The message of a read that met bytes which are no text. -/
def invalidText : String := "stream did not contain valid UTF-8"

/-! ### Segments -/

/-- What one read takes. -/
inductive Segment
  /-- The bytes of a line, and whether a newline ended it. -/
  | line (bytes : List UInt8) (ended : Bool)
  | failure (message : String)
deriving DecidableEq

/-- Whether an element belongs to the line that is being read. -/
def Item.isInline : Item → Bool
  | .byte b    => b ≠ newline
  | .failure _ => false

def Item.byte? : Item → Option UInt8
  | .byte b    => some b
  | .failure _ => none

/-- The next segment and what is left after it; there is none at the end. -/
def next? (s : Source) : Option (Segment × Source) :=
  match s.items with
  | [] => none
  | items =>
    let bytes := (items.takeWhile Item.isInline).filterMap Item.byte?
    match items.dropWhile Item.isInline with
    | []                    => some (.line bytes false, ⟨[]⟩)
    | .byte _ :: rest       => some (.line bytes true, ⟨rest⟩)
    | .failure message :: rest => some (.failure message, ⟨rest⟩)

@[simp] theorem next?_empty : empty.next? = none := rfl

@[simp] theorem next?_nil : next? ⟨[]⟩ = none := rfl

/-- Reading takes something away, so that a source comes to its end. -/
theorem length_items_next? {s rest : Source} {segment : Segment}
    (h : s.next? = some (segment, rest)) : rest.items.length < s.items.length := by
  obtain ⟨items⟩ := s
  cases items with
  | nil => simp at h
  | cons item items =>
    have hdrop := (List.dropWhile_sublist Item.isInline (l := item :: items)).length_le
    simp only [next?] at h
    split at h
    all_goals
      next heq =>
        simp only [Option.some.injEq, Prod.mk.injEq] at h
        obtain ⟨-, rfl⟩ := h
        simp only [heq, List.length_cons, List.length_nil] at *
        omega

/-- Leave out a carriage return at the end of a line. -/
def dropReturn (line : List Char) : List Char :=
  if line.getLast? = some '\r' then line.dropLast else line

/-- The text of a segment without what ends its line, or the message of its failure. -/
def Segment.text : Segment → Except String (List Char)
  | .failure message  => .error message
  | .line bytes ended =>
    match String.fromUTF8? bytes.toByteArray with
    | none      => .error invalidText
    | some text => .ok (if ended then dropReturn text.toList else text.toList)

end Source

end WordMachine
