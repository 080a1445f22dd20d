import WordMachine.Log.Event

/-!
# Records

A record is an event as the log shows it: level, message and fields, inside the spans of work in
which it happened. Each span has a level of its own and shows only where a threshold lets it
through.
-/

namespace WordMachine

/-- A stretch of work. -/
inductive Span
  /-- A run with a budget. -/
  | run (budget : Nat)
  | step
  | decode
  | execute (i : Instruction)
deriving DecidableEq

namespace Span

def level : Span → Level
  | run _              => .info
  | step               => .debug
  | decode | execute _ => .trace

def name : Span → String
  | run _     => "run"
  | step      => "step"
  | decode    => "decode_instruction"
  | execute _ => "execute"

def fields : Span → List (String × FieldValue)
  | run budget    => [("max_steps", .shown (toString budget))]
  | execute i     => [("self", .shown i.inspect)]
  | step | decode => []

end Span

/-- An event as the log shows it. -/
structure Record where
  level : Level
  /-- The work in which it happened, outermost first. -/
  spans : List Span := []
  message : String := ""
  fields : List (String × FieldValue) := []
deriving DecidableEq

/-- The work in which an event of a run happened, outermost first. -/
def Event.spans (budget : Nat) (e : Event) : List Span :=
  .run budget ::
    match e with
    | undecodable _   => [.step, .decode]
    | executing _ _   => [.step]
    | during i _      => [.step, .execute i]
    | halted _ _      => [.step]
    | budgetSpent _ _ => []

/-- An event of a run as a record, inside the spans that the threshold lets through. -/
def Event.record (threshold : Level) (budget : Nat) (e : Event) : Record where
  level := e.level
  spans := (e.spans budget).filter fun span => threshold.admits span.level
  message := e.message
  fields := e.fields

end WordMachine
