/-!
# Sinks

A sink gets a copy of what the machine writes. How it answers its calls is its policy: a write
takes some of the bytes it is offered or fails, and a flush succeeds or fails, according to the
number of the call. Sending bytes means to write the rest of them again and again until all are
taken, and then to flush once.
-/

namespace WordMachine

/-- How a sink answers. Calls are numbered from zero. -/
structure Sink.Policy where
  /-- How many bytes a write takes, for the number of the call, the count of bytes accepted before,
  and the count of bytes offered. -/
  write (call accepted offered : Nat) : Except String Nat
  /-- Whether a flush succeeds, for the number of the call. -/
  flush (call : Nat) : Except String Unit

/-- A sink with what it has accepted and how often it was called. -/
structure Sink where
  policy : Sink.Policy
  received : Array UInt8 := #[]
  writes : Nat := 0
  flushes : Nat := 0

namespace Sink

/-- The message of a sending that a write ended by taking nothing. -/
def wroteNothing : String := "failed to write whole buffer"

/-! ### Policies -/

def Policy.unlimited : Policy where
  write _ _ offered := .ok offered
  flush _ := .ok ()

/-- A sink of limited means, for which some calls fail. -/
structure Limits where
  /-- Most bytes that one write takes. -/
  chunk : Option Nat := none
  /-- Most bytes that are taken in all. -/
  capacity : Option Nat := none
  /-- Whether a write may take nothing without failing. -/
  mayTakeNothing : Bool := false
  failingWrites : List Nat := []
  failingFlushes : List Nat := []
  writeMessage : String
  /-- The message of a write that takes nothing though it may not. -/
  fullMessage : String
  flushMessage : String

/-- The smaller of a number and a bound, if there is a bound. -/
def atMost (n : Nat) : Option Nat → Nat
  | none   => n
  | some k => min n k

/-- The policy of a sink of limited means. -/
def Limits.policy (l : Limits) : Policy where
  write call accepted offered :=
    if call ∈ l.failingWrites then .error l.writeMessage
    else
      let taken := atMost (atMost offered l.chunk) (l.capacity.map (· - accepted))
      if taken = 0 ∧ l.mayTakeNothing = false then .error l.fullMessage else .ok taken
  flush call :=
    if call ∈ l.failingFlushes then .error l.flushMessage else .ok ()

/-! ### Sending -/

def accepted (s : Sink) : Nat := s.received.size

/-- Count a write, with the bytes it took. -/
def took (s : Sink) (bytes : List UInt8) : Sink :=
  { s with received := s.received ++ bytes, writes := s.writes + 1 }

@[simp] theorem policy_took (s : Sink) (bytes : List UInt8) : (s.took bytes).policy = s.policy := rfl

@[simp] theorem writes_took (s : Sink) (bytes : List UInt8) :
    (s.took bytes).writes = s.writes + 1 := rfl

@[simp] theorem flushes_took (s : Sink) (bytes : List UInt8) :
    (s.took bytes).flushes = s.flushes := rfl

@[simp] theorem received_took (s : Sink) (bytes : List UInt8) :
    (s.took bytes).received.toList = s.received.toList ++ bytes := by
  simp [took]

/-- Write bytes until all are taken, a write fails, or a write takes nothing. -/
def writeAll (s : Sink) : List UInt8 → Except String Unit × Sink
  | []      => (.ok (), s)
  | b :: bs =>
    match s.policy.write s.writes s.accepted (bs.length + 1) with
    | .error message => (.error message, s.took [])
    | .ok 0          => (.error wroteNothing, s.took [])
    | .ok (k + 1)    => (s.took (b :: bs.take k)).writeAll (bs.drop k)
termination_by bytes => bytes.length
decreasing_by
  simp only [List.length_drop, List.length_cons]
  omega

def flushOnce (s : Sink) : Except String Unit × Sink :=
  (s.policy.flush s.flushes, { s with flushes := s.flushes + 1 })

/-- Write bytes and, if all were taken, flush. -/
def send (s : Sink) (bytes : List UInt8) : Except String Unit × Sink :=
  match s.writeAll bytes with
  | (.ok (), s)         => s.flushOnce
  | (.error message, s) => (.error message, s)

end Sink

end WordMachine
