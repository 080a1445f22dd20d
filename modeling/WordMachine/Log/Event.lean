import WordMachine.Instruction.Text
import WordMachine.Log.Note

/-!
# Events

The log of a machine: which instructions were carried out and with what results, and why the
machine stopped. An event is data; its message and its fields are made from it on demand.
-/

namespace WordMachine

/-- Something that happened while the machine was running. -/
inductive Event
  /-- There was no instruction at `pc`. -/
  | undecodable (fault : Fault)
  | executing (pc : Word) (i : Instruction)
  /-- A note made while an instruction was carried out. -/
  | during (i : Instruction) (note : Note)
  | halted (pc : Word) (cycles : Nat)
  /-- The machine was stopped because its budget was spent. -/
  | budgetSpent (steps : Nat) (pc : Word)
deriving DecidableEq

/-- The value of a field: a text that was given as one, or anything else in its usual form. -/
inductive FieldValue
  | str (s : String)
  | shown (s : String)
deriving DecidableEq

/-- The bare text of a field. -/
def FieldValue.text : FieldValue → String
  | .str s | .shown s => s

namespace Event

def level : Event → Level
  | undecodable _   => .error
  | executing _ _   => .debug
  | during _ note   => note.level
  | halted _ _      => .info
  | budgetSpent _ _ => .info

def message : Event → String
  | undecodable _   => ""
  | executing _ i   => "Executing instruction \"" ++ i.text ++ "\""
  | during _ note   => note.text
  | halted _ _      => "Computer halted"
  | budgetSpent _ _ => "Step budget exhausted"

def fields : Event → List (String × FieldValue)
  | undecodable fault    => [("error", .shown fault.text)]
  | executing pc i       => [("pc", .shown pc.text), ("opcode", .shown i.opcode.name)]
  | during _ (.refilled line) => [("line", .str (String.ofList line))]
  | during _ _           => []
  | halted pc cycles     => [("pc", .shown pc.text), ("cycles", .shown (toString cycles))]
  | budgetSpent steps pc => [("steps", .shown (toString steps)), ("pc", .shown pc.text)]

end Event

/-- The events that a threshold lets through; without a threshold there are none. -/
def Event.visible (threshold : Option Level) (events : List Event) : List Event :=
  match threshold with
  | none   => []
  | some l => events.filter fun e => l.admits e.level

namespace Event

theorem visible_append (t : Option Level) (es es' : List Event) :
    visible t (es ++ es') = visible t es ++ visible t es' := by
  cases t with
  | none   => rfl
  | some l => exact List.filter_append ..

/-- The last level lets everything through. -/
theorem visible_trace (es : List Event) : visible (some .trace) es = es :=
  List.filter_eq_self.mpr fun e _ => e.level.trace_admits

end Event

end WordMachine
