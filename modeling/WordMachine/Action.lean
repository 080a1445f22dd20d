import WordMachine.Core
import WordMachine.Log.Note

/-!
# What an instruction does

Carrying out an instruction has two halves. The first looks at the core, checks all that the core
can object to, and settles what is to be done, which is an action; the second does it. Since the
first half changes nothing, an instruction that is refused leaves no trace, and since the second
half works on checked addresses, a change of the core can no longer fail.

Only the console can still object afterwards, and only to an action that writes or reads a
character.
-/

namespace WordMachine

/-- What is to be done for an instruction. -/
inductive Action
  | halt
  | update (u : Update)
  | print (c : Char)
  | read (l : Location)
deriving DecidableEq

/-- What an instruction amounts to, with the notes made so far. -/
structure Resolution where
  notes : List Note
  result : Except Exception Action

namespace Resolution

def refuse (e : Exception) : Resolution := ⟨[], .error e⟩

def update (notes : List Note) (u : Update) : Resolution := ⟨notes, .ok (.update u)⟩

/-- Go on with what a check gives, or refuse. -/
def check {α : Type} (x : Except Exception α) (k : α → Resolution) : Resolution :=
  match x with
  | .ok a    => k a
  | .error e => refuse e

@[simp] theorem check_ok {α : Type} (a : α) (k : α → Resolution) : check (.ok a) k = k a := rfl

@[simp] theorem check_error {α : Type} (e : Exception) (k : α → Resolution) :
    check (.error e) k = refuse e := rfl

end Resolution

namespace Core

variable (c : Core)

def value (v : Value) : Word := v.resolve c.registers

/-- The cell that a word addresses, or an exception. -/
def addressOf (w : Word) : Except Exception Address := MemoryError.raise w.address

def top : Except Exception Word :=
  match c.stack.top? with
  | some w => .ok w
  | none   => .error .stackUnderflow

/-- Note a result and put it into a target. -/
def storing (note : Note) (dst : Target) (w : Word) : Resolution :=
  .check dst.locate fun l => .update [note] (.store l w)

/-- Jump to the address that a word gives. -/
def jumping (w : Word) : Resolution :=
  .check (addressOf w) fun a => .update [.jumping a] (.jump a)

end Core

/-- Settle what an instruction does to a core. -/
def Instruction.resolve (c : Core) : Instruction → Resolution
  | .halt => ⟨[], .ok .halt⟩
  | .set dst v =>
    let w := c.value v
    .update [.assigned dst w] (.store (.reg dst) w)
  | .push v =>
    let w := c.value v
    if c.stack.isFull then ⟨[.pushed w], .error .stackOverflow⟩
    else .update [.pushed w] (.push w)
  | .pop dst =>
    .check c.top fun w => .check dst.locate fun l => .update [.popped w] (.pop l w)
  | .binary op dst a b =>
    let a := c.value a
    let b := c.value b
    match op.eval? a b with
    | some w => Core.storing (.computed op a b w) dst w
    | none   => .refuse .divisionByZero
  | .jmp address => Core.jumping (c.value address)
  | .jt condition address =>
    if c.value condition ≠ 0 then Core.jumping (c.value address) else .update [] .pass
  | .jf condition address =>
    if c.value condition = 0 then Core.jumping (c.value address) else .update [] .pass
  | .not dst a =>
    let a := c.value a
    Core.storing (.inverted a a.complement) dst a.complement
  | .rmem dst address =>
    .check (Core.addressOf (c.value address)) fun a =>
      let w := c.memory.cell a
      Core.storing (.loaded a w) dst w
  | .wmem address v =>
    .check (Core.addressOf (c.value address)) fun a =>
      let w := c.value v
      .update [.stored a w] (.store (.cell a) w)
  | .call address =>
    .check (Core.addressOf (c.value address)) fun a =>
      if c.stack.isFull then .refuse .stackOverflow else .update [.jumping a] (.call a)
  | .ret =>
    .check c.top fun w => .check (Core.addressOf w) fun a =>
      .update [.returning a, .jumping a] (.ret a)
  | .out v =>
    let w := c.value v
    match w.char? with
    | some ch => ⟨[], .ok (.print ch)⟩
    | none    => .refuse (.invalidCharacter w.toNat)
  | .read dst => .check dst.locate fun l => ⟨[], .ok (.read l)⟩
  | .noop => .update [] .pass

end WordMachine
