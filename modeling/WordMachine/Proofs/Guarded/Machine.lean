import WordMachine.Machine.Host
import WordMachine.Machine.Run
import WordMachine.Proofs.Arithmetic.Residue

/-!
# A machine with all guards

The cycle once more, carried out one change after the other, and with every guard in its place that
the checks before it have made needless. Sums of addresses are looked at before they are cut to a
word, results before they are cut to thirty-two bits, and an address that was checked is checked
again where it is used. A guard of this kind does not raise an exception. That it stops the machine
is an incident, which no program should be able to bring about.
-/

namespace WordMachine

/-- What a needless guard could object to. -/
inductive Incident
  /-- The address of an operand word is no word. -/
  | operandAddress
  /-- The address of the instruction that follows is no word. -/
  | nextAddress
  /-- A target that was understood is no place. -/
  | target
  /-- A checked address cannot be read from. -/
  | load
  /-- A checked address cannot be gone to. -/
  | jump
  /-- A result has more than thirty-two bits before it is reduced. -/
  | overflow
  /-- A value is the code of no character. -/
  | character
  /-- The count of cycles is at its largest. -/
  | count
  /-- The count of cycles is less than it was. -/
  | elapsed
deriving DecidableEq, Repr

/-- Why a guarded machine stops. -/
inductive Stop
  | fault (f : Fault)
  | incident (i : Incident)
deriving DecidableEq, Repr

/-- A guarded computation. What was changed before it stops stays changed. -/
abbrev Guarded := EStateM Stop Machine

namespace Guarded

def exec {α : Type} (x : Guarded α) (m : Machine) : EStateM.Result Stop Machine α := EStateM.run x m

/-! ### Guards -/

section Guards

variable {ε α : Type}

def raise (e : Exception) : Guarded α := throw (.fault (.exception e))

/-- A check that can fail. -/
def check (x : Except Exception α) : Guarded α :=
  match x with
  | .ok a    => pure a
  | .error e => raise e

/-- A check of what was checked before. -/
def recheck (i : Incident) (x : Except ε α) : Guarded α :=
  match x with
  | .ok a    => pure a
  | .error _ => throw (.incident i)

/-- An address and an offset, added as numbers. -/
def add (i : Incident) (w : Word) (n : Nat) : Guarded Word :=
  if w.toNat + n < UInt16.size then pure (UInt16.ofNat (w.toNat + n)) else throw (.incident i)

end Guards

/-! ### Cells and registers -/

def change (f : Core → Core) : Guarded Unit := modify fun m => m.modifyCore f

def value (v : Value) : Guarded Word := do
  return (← get).core.value v

/-- A word, if it is the address of a cell. -/
def address (w : Word) : Guarded Word := do
  let _ ← check (Core.addressOf w)
  return w

def load (w : Word) : Guarded Word := do
  recheck .load ((← get).core.memory.get w)

def write (dst : Target) (w : Word) : Guarded Unit := do
  let l ← recheck .target dst.locate
  change fun c => c.write l w

def jump (w : Word) : Guarded Unit := do
  let a ← check (Core.addressOf w)
  change fun c => c.goto (Word.ofAddress a)

/-- Jump to an address that was checked. -/
def rejump (w : Word) : Guarded Unit := do
  let a ← recheck .jump (Core.addressOf w)
  change fun c => c.goto (Word.ofAddress a)

/-! ### Stack -/

def top : Guarded Word := do
  check (← get).core.top

def push (w : Word) : Guarded Unit := do
  if (← get).core.stack.isFull then raise .stackOverflow else change fun c => c.push w

/-! ### Arithmetic -/

/-- The result of an operation, with thirty-two bits until it is reduced. -/
def combine (op : BinaryOp) (a b : Word) : Guarded Word :=
  match op.unreduced? a.toNat b.toNat with
  | some n => if n < UInt32.size then return Word.wrap n else throw (.incident .overflow)
  | none   => raise .divisionByZero

/-! ### Characters -/

/-- The character with a given code, of all characters there are. -/
def character? (n : Nat) : Option Char :=
  if h : n.isValidChar then some (Char.ofNatAux n h) else none

/-- The character for a word that is a value. -/
def character (w : Word) : Guarded Char := do
  if w.toNat < registerBase then
    match character? w.toNat with
    | some c => return c
    | none   => throw (.incident .character)
  else raise (.invalidCharacter w.toNat)

def emit (c : Char) : Guarded Unit := do
  let m ← get
  let (result, console) := m.console.put c
  set { m with console := console }
  match result with
  | .ok ()         => return ()
  | .error message => throw (.fault (.io message))

def peek : Guarded Char := do
  let m ← get
  let ⟨result, console, _⟩ := m.console.peek
  set { m with console := console }
  match result with
  | .ok c        => return c
  | .error fault => throw (.fault fault)

/-- The word for a character that was looked at. -/
def received (c : Char) : Guarded Word :=
  match Word.ofChar? c with
  | some w => return w
  | none   => raise (.invalidCharacter c.toNat)

def advance : Guarded Unit := modify fun m => { m with console := m.console.advance }

/-! ### Instructions -/

/-- The word after the opcode with the given number, if the opcode has so many operands. -/
def operand (op : Opcode) (k : Nat) : Guarded Word := do
  if k ≤ op.arity then
    let c := (← get).core
    check (c.fetchWord (← add .operandAddress c.pc k))
  else return 0

def fetch : Guarded Instruction := do
  let c := (← get).core
  let op ← check (Opcode.decode (← check (c.fetchWord c.pc)))
  let x ← operand op 1
  let y ← operand op 2
  let z ← operand op 3
  check (Instruction.decode op x y z)

/-- Go on with the instruction that follows. -/
def proceed (next : Word) : Guarded Step := do
  change fun c => c.goto next
  return .continued

/-- Carry out an instruction that the given address follows. -/
def row (next : Word) : Instruction → Guarded Step
  | .halt => return .halted
  | .set dst v => do
    let w ← value v
    change fun c => c.write (.reg dst) w
    proceed next
  | .push v => do
    push (← value v)
    proceed next
  | .pop dst => do
    write dst (← top)
    change Core.pop
    proceed next
  | .binary op dst a b => do
    write dst (← combine op (← value a) (← value b))
    proceed next
  | .jmp v => do
    jump (← value v)
    return .continued
  | .jt x v => do
    if (← value x) ≠ 0 then
      jump (← value v)
      return .continued
    else proceed next
  | .jf x v => do
    if (← value x) = 0 then
      jump (← value v)
      return .continued
    else proceed next
  | .not dst a => do
    write dst (← value a).complement
    proceed next
  | .rmem dst v => do
    let a ← address (← value v)
    write dst (← load a)
    proceed next
  | .wmem v x => do
    let a ← address (← value v)
    write (.memory a) (← value x)
    proceed next
  | .call v => do
    let a ← address (← value v)
    push next
    rejump a
    return .continued
  | .ret => do
    let a ← address (← top)
    change Core.pop
    rejump a
    return .continued
  | .out v => do
    emit (← character (← value v))
    proceed next
  | .read dst => do
    write dst (← received (← peek))
    advance
    proceed next
  | .noop => proceed next

def execute (i : Instruction) : Guarded Step := do
  let next ← add .nextAddress (← get).core.pc i.width
  row next i

/-! ### Cycles and runs -/

variable (limit : Nat)

/-- Count a cycle, up to a largest count. -/
def count : Guarded Unit := do
  if (← get).cycles < limit then modify fun m => { m with cycles := m.cycles + 1 }
  else throw (.incident .count)

/-- Count the cycle of an instruction that was carried out, and stop the machine if it says so. -/
def conclude (s : Step) : Guarded Step := do
  count limit
  if s = .halted then modify fun m => { m with halted := true }
  return s

def step : Guarded Step := do
  if (← get).halted then return .halted
  else
    let i ← fetch
    let s ← execute i
    conclude limit s

/-- The number of cycles since the count was at the given number. -/
def elapsed (start : Nat) : Guarded Nat := do
  let m ← get
  if start ≤ m.cycles then return m.cycles - start else throw (.incident .elapsed)

def runFrom (start : Nat) : Nat → Guarded Outcome
  | 0     => do
    if (← get).halted then return .halted (← elapsed start)
    else return .budgetSpent (← elapsed start)
  | n + 1 => do
    match ← step limit with
    | .halted    => return .halted (← elapsed start)
    | .continued => runFrom start n

def run (budget : Nat) : Guarded Outcome := do
  runFrom limit (← get).cycles budget

end Guarded

end WordMachine
