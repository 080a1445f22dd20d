import WordMachine.Machine.Basic

/-!
# An interpreter over raw words

The table of instructions once more, as one function that works on words and numbers only: no
opcodes, no instructions, no typed operands. A row of the table reads its operand words, checks
them from left to right, and then does what it does, step after step.

A word below `registerBase` reads as itself and writes a cell, the `registerCount` words from there
on read and write a register, and no other word is an operand.
-/

namespace WordMachine.Raw

/-- A computation on a machine that can fail. What was changed before a failure stays changed. -/
abbrev Run := ExceptT Fault (StateM Machine)

def Run.exec {α : Type} (x : Run α) (m : Machine) : Except Fault α × Machine := StateT.run x.run m

def fail {α : Type} (e : Exception) : Run α := throw (.exception e)

/-! ### Cells and registers -/

/-- The number of a cell, if a number is one. -/
def address (a : Nat) : Run Address := do
  if h : a < memorySize then return ⟨a, h⟩
  else fail (.invalidMemoryAccess (.invalidAddress (UInt16.ofNat a)))

def cell (a : Nat) : Run Word := do
  let a ← address a
  return (← get).core.memory.cells.get a

def setCell (a : Address) (x : Word) : Run Unit :=
  modify fun m => { m with core.memory := ⟨m.core.memory.cells.set a.val x a.isLt⟩ }

def setRegister (r : Fin registerCount) (x : Word) : Run Unit :=
  modify fun m => { m with core.registers := ⟨m.core.registers.cells.set r.val x⟩ }

/-! ### Operands -/

/-- The word that an operand reads as. -/
def value (w : Word) : Run Word := do
  if w.toNat < registerBase then return w
  else if h : w.toNat - registerBase < registerCount then
    return (← get).core.registers.cells[w.toNat - registerBase]
  else fail (.invalidArgument (.invalidOperand w))

/-- Check that an operand can be written. -/
def target (w : Word) : Run Unit :=
  if w.toNat < registerBase + registerCount then return ()
  else fail (.invalidArgument (.invalidOperand w))

/-- Check that an operand is a register. -/
def register (w : Word) : Run Unit := do
  target w
  if w.toNat < registerBase then fail (.invalidArgument (.expectedRegister w))

/-- Write the place that an operand stands for. -/
def store (w x : Word) : Run Unit := do
  if h : w.toNat < memorySize then setCell ⟨w.toNat, h⟩ x
  else if h : w.toNat - registerBase < registerCount then setRegister ⟨w.toNat - registerBase, h⟩ x
  else fail (.invalidArgument (.invalidOperand w))

/-! ### Stack -/

def top : Run Word := do
  match (← get).core.stack.words.back? with
  | some x => return x
  | none   => fail .stackUnderflow

def drop : Run Unit :=
  modify fun m => { m with core.stack := ⟨m.core.stack.words.pop⟩ }

def push (x : Word) : Run Unit := do
  if (← get).core.stack.words.size < stackLimit then
    modify fun m => { m with core.stack := ⟨m.core.stack.words.push x⟩ }
  else fail .stackOverflow

/-! ### Characters -/

/-- Send a character to the sink, if there is one. -/
def send (c : Char) : Run Unit := do
  match (← get).console.sink with
  | none      => return ()
  | some sink => do
    let (result, sink) := sink.send (String.utf8EncodeChar c)
    modify fun m => { m with console.sink := some sink }
    match result with
    | .ok ()         => return ()
    | .error message => throw (.io message)

/-- Send a character to the sink, and add it to the output. -/
def emit (c : Char) : Run Unit := do
  send c
  modify fun m => { m with console.output := m.console.output.push c }

/-- Read a line from the source into the queue. -/
def refill : Run Unit := do
  match (← get).console.source.next? with
  | none                 => return ()
  | some (segment, rest) => do
    modify fun m => { m with console.source := rest }
    match segment.text with
    | .ok line       => modify fun m => { m with console.pending := line ++ ['\n'] }
    | .error message => throw (.io message)

/-- The first character of the queue. -/
def front : Run Char := do
  match (← get).console.pending with
  | c :: _ => return c
  | []     => throw .endOfInput

/-- Look at the next character, after reading a line if there is none. -/
def peek : Run Char := do
  if (← get).console.pending = [] then do
    refill
    front
  else front

def advance : Run Unit :=
  modify fun m => { m with console.pending := m.console.pending.tail }

/-! ### The table -/

/-- Count the cycle, and go on at an address. -/
def proceed (pc : Nat) : Run Step := do
  modify fun m => { m with core.pc := UInt16.ofNat pc, cycles := m.cycles + 1 }
  return .continued

/-- Count the cycle, and stop. -/
def stop : Run Step := do
  modify fun m => { m with cycles := m.cycles + 1, halted := true }
  return .halted

/-- The table: what the instruction that starts with a word does at an address. -/
def row (pc : Nat) (op : Word) : Run Step :=
  match op.toNat with
  | 0 => stop
  | 1 => do -- set
    let a ← cell (pc + 1)
    let b ← cell (pc + 2)
    register a
    let x ← value b
    store a x
    proceed (pc + 3)
  | 2 => do -- push
    let a ← cell (pc + 1)
    let x ← value a
    push x
    proceed (pc + 2)
  | 3 => do -- pop
    let a ← cell (pc + 1)
    target a
    let x ← top
    drop
    store a x
    proceed (pc + 2)
  | 4 => do -- eq
    let a ← cell (pc + 1)
    let b ← cell (pc + 2)
    let c ← cell (pc + 3)
    target a
    let x ← value b
    let y ← value c
    store a (if x = y then 1 else 0)
    proceed (pc + 4)
  | 5 => do -- gt
    let a ← cell (pc + 1)
    let b ← cell (pc + 2)
    let c ← cell (pc + 3)
    target a
    let x ← value b
    let y ← value c
    store a (if y.toNat < x.toNat then 1 else 0)
    proceed (pc + 4)
  | 6 => do -- jmp
    let a ← cell (pc + 1)
    let x ← value a
    let goal ← address x.toNat
    proceed goal.val
  | 7 => do -- jt
    let a ← cell (pc + 1)
    let b ← cell (pc + 2)
    let x ← value a
    let y ← value b
    if x = 0 then proceed (pc + 3)
    else do
      let goal ← address y.toNat
      proceed goal.val
  | 8 => do -- jf
    let a ← cell (pc + 1)
    let b ← cell (pc + 2)
    let x ← value a
    let y ← value b
    if x = 0 then do
      let goal ← address y.toNat
      proceed goal.val
    else proceed (pc + 3)
  | 9 => do -- add
    let a ← cell (pc + 1)
    let b ← cell (pc + 2)
    let c ← cell (pc + 3)
    target a
    let x ← value b
    let y ← value c
    store a (UInt16.ofNat ((x.toNat + y.toNat) % modulus))
    proceed (pc + 4)
  | 10 => do -- mult
    let a ← cell (pc + 1)
    let b ← cell (pc + 2)
    let c ← cell (pc + 3)
    target a
    let x ← value b
    let y ← value c
    store a (UInt16.ofNat (x.toNat * y.toNat % modulus))
    proceed (pc + 4)
  | 11 => do -- mod
    let a ← cell (pc + 1)
    let b ← cell (pc + 2)
    let c ← cell (pc + 3)
    target a
    let x ← value b
    let y ← value c
    if y = 0 then fail .divisionByZero
    else do
      store a (UInt16.ofNat (x.toNat % y.toNat % modulus))
      proceed (pc + 4)
  | 12 => do -- and
    let a ← cell (pc + 1)
    let b ← cell (pc + 2)
    let c ← cell (pc + 3)
    target a
    let x ← value b
    let y ← value c
    store a (UInt16.ofNat ((x.toNat &&& y.toNat) % modulus))
    proceed (pc + 4)
  | 13 => do -- or
    let a ← cell (pc + 1)
    let b ← cell (pc + 2)
    let c ← cell (pc + 3)
    target a
    let x ← value b
    let y ← value c
    store a (UInt16.ofNat ((x.toNat ||| y.toNat) % modulus))
    proceed (pc + 4)
  | 14 => do -- not
    let a ← cell (pc + 1)
    let b ← cell (pc + 2)
    target a
    let x ← value b
    store a (UInt16.ofNat (modulus - 1 - x.toNat % modulus))
    proceed (pc + 3)
  | 15 => do -- rmem
    let a ← cell (pc + 1)
    let b ← cell (pc + 2)
    target a
    let x ← value b
    let y ← cell x.toNat
    store a y
    proceed (pc + 3)
  | 16 => do -- wmem
    let a ← cell (pc + 1)
    let b ← cell (pc + 2)
    let x ← value a
    let y ← value b
    let goal ← address x.toNat
    setCell goal y
    proceed (pc + 3)
  | 17 => do -- call
    let a ← cell (pc + 1)
    let x ← value a
    let goal ← address x.toNat
    push (UInt16.ofNat (pc + 2))
    proceed goal.val
  | 18 => do -- ret
    let x ← top
    let goal ← address x.toNat
    drop
    proceed goal.val
  | 19 => do -- out
    let a ← cell (pc + 1)
    let x ← value a
    if x.toNat < memorySize then do
      emit (Char.ofNat x.toNat)
      proceed (pc + 2)
    else fail (.invalidCharacter x.toNat)
  | 20 => do -- in
    let a ← cell (pc + 1)
    target a
    let c ← peek
    if c.toNat < memorySize then do
      store a (UInt16.ofNat c.toNat)
      advance
      proceed (pc + 2)
    else fail (.invalidCharacter c.toNat)
  | 21 => proceed (pc + 1)
  | _ => fail (.invalidInstruction op)

/-- One cycle of a machine that has not halted. -/
def cycle : Run Step := do
  let pc := (← get).core.pc.toNat
  let op ← cell pc
  row pc op

end WordMachine.Raw
