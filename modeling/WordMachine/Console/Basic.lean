import WordMachine.Console.Source
import WordMachine.Console.Sink
import WordMachine.Fault
import WordMachine.Log.Note

/-!
# The console

The machine writes characters to its output and to a sink, and it reads characters from a queue.
When the queue is empty, one line is fetched from the source and put into it, ended by a newline
whatever ended it in the source.

A character is looked at before it is taken, so that an instruction can still fail without losing
it. A character counts as written only if the sink took it.
-/

namespace WordMachine

/-- What the machine exchanges characters with. -/
structure Console where
  output : String := ""
  /-- The characters that wait to be read. -/
  pending : List Char := []
  source : Source := .empty
  /-- Gets a copy of the output, if there is one. -/
  sink : Option Sink := none

namespace Console

/-! ### Writing -/

/-- Write a character. On failure nothing is added to the output, but the sink has been called. -/
def put (con : Console) (c : Char) : Except String Unit × Console :=
  match con.sink with
  | none      => (.ok (), { con with output := con.output.push c })
  | some sink =>
    match sink.send (String.utf8EncodeChar c) with
    | (.ok (), sink)         => (.ok (), { con with output := con.output.push c, sink := some sink })
    | (.error message, sink) => (.error message, { con with sink := some sink })

theorem output_of_put_ok {con con' : Console} {c : Char} (h : con.put c = (.ok (), con')) :
    con'.output = con.output.push c := by
  simp only [put] at h
  split at h
  · rw [← (Prod.mk.inj h).2]
  · split at h
    · rw [← (Prod.mk.inj h).2]
    · simp at h

theorem output_of_put_error {con con' : Console} {c : Char} {message : String}
    (h : con.put c = (.error message, con')) : con'.output = con.output := by
  simp only [put] at h
  split at h
  · simp at h
  · split at h
    · simp at h
    · rw [← (Prod.mk.inj h).2]

@[simp] theorem pending_put (con : Console) (c : Char) : (con.put c).2.pending = con.pending := by
  obtain ⟨output, pending, source, sink⟩ := con
  cases sink with
  | none => rfl
  | some sink =>
    simp only [put]
    rcases sink.send (String.utf8EncodeChar c) with ⟨_ | _, _⟩ <;> rfl

@[simp] theorem source_put (con : Console) (c : Char) : (con.put c).2.source = con.source := by
  obtain ⟨output, pending, source, sink⟩ := con
  cases sink with
  | none => rfl
  | some sink =>
    simp only [put]
    rcases sink.send (String.utf8EncodeChar c) with ⟨_ | _, _⟩ <;> rfl

theorem pending_of_put {con con' : Console} {c : Char} {x : Except String Unit}
    (h : con.put c = (x, con')) : con'.pending = con.pending := by
  rw [← pending_put con c, h]

theorem source_of_put {con con' : Console} {c : Char} {x : Except String Unit}
    (h : con.put c = (x, con')) : con'.source = con.source := by
  rw [← source_put con c, h]

/-! ### Reading -/

/-- What comes of looking at the next character. -/
structure Peek where
  result : Except Fault Char
  console : Console
  notes : List Note

/-- Look at the next character. An empty queue is refilled from the source first. -/
def peek (con : Console) : Peek :=
  match con.pending with
  | c :: _ => ⟨.ok c, con, []⟩
  | []     =>
    match con.source.next? with
    | none                 => ⟨.error .endOfInput, con, [.exhausted]⟩
    | some (segment, rest) =>
      match segment.text with
      | .error message => ⟨.error (.io message), { con with source := rest }, []⟩
      | .ok line       =>
        ⟨.ok (line.headD '\n'), { con with pending := line ++ ['\n'], source := rest },
          [.refilled line]⟩

theorem peek_cons {con : Console} {c : Char} {cs : List Char} (h : con.pending = c :: cs) :
    con.peek = ⟨.ok c, con, []⟩ := by
  simp [peek, h]

@[simp] theorem output_peek (con : Console) : con.peek.console.output = con.output := by
  simp only [peek]
  split
  · rfl
  · split
    · rfl
    · split <;> rfl

@[simp] theorem sink_peek (con : Console) : con.peek.console.sink = con.sink := by
  simp only [peek]
  split
  · rfl
  · split
    · rfl
    · split <;> rfl

def advance (con : Console) : Console := { con with pending := con.pending.tail }

def queue (con : Console) (cs : List Char) : Console := { con with pending := con.pending ++ cs }

/-- The console written as the record it is, source and sink left out. -/
def inspect (con : Console) : String :=
  "Io \x7b output: " ++ Text.quoted con.output ++ ", input: " ++ Text.quotedChars con.pending ++
    ", .. \x7d"

end Console

end WordMachine
