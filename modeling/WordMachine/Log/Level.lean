/-!
# Levels

How important an event is. A threshold lets through the events that are at least as important.
-/

namespace WordMachine

/-- The importance of an event, most important first. -/
inductive Level
  | error
  | warn
  | info
  | debug
  | trace
deriving DecidableEq, Repr

namespace Level

/-- The place of a level in the order of importance. -/
def rank : Level → Nat
  | error => 0
  | warn  => 1
  | info  => 2
  | debug => 3
  | trace => 4

/-- Whether a threshold lets a level through. -/
def admits (threshold l : Level) : Bool := l.rank ≤ threshold.rank

def name : Level → String
  | error => "ERROR"
  | warn  => "WARN"
  | info  => "INFO"
  | debug => "DEBUG"
  | trace => "TRACE"

@[simp] theorem trace_admits (l : Level) : trace.admits l = true := by
  cases l <;> rfl

end Level

end WordMachine
