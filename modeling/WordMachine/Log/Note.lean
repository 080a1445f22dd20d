import WordMachine.Opcode
import WordMachine.Log.Level
import WordMachine.Text.Quoted

/-!
# Notes

What the machine notes down while it carries out an instruction: the values it moves and computes,
the jumps it takes, and what it gets from the console.
-/

namespace WordMachine

/-- A remark made while an instruction is carried out. -/
inductive Note
  /-- A register is set. -/
  | assigned (r : Reg) (w : Word)
  | pushed (w : Word)
  | popped (w : Word)
  | computed (op : BinaryOp) (a b result : Word)
  /-- The bits of a value are inverted. -/
  | inverted (a result : Word)
  | loaded (a : Address) (w : Word)
  | stored (a : Address) (w : Word)
  /-- The machine goes on elsewhere. -/
  | jumping (a : Address)
  /-- The machine goes back to where a call came from. -/
  | returning (a : Address)
  | received (c : Char)
  /-- A line was taken from the source. -/
  | refilled (line : List Char)
  /-- The source is at its end. -/
  | exhausted
deriving DecidableEq

namespace Note

/-- Console traffic is noted at the last level, all else one above. -/
def level : Note → Level
  | refilled _ | exhausted => .trace
  | _                      => .debug

def text : Note → String
  | assigned r w         => r.text ++ " <- " ++ w.text
  | pushed w             => "push(" ++ w.text ++ ")"
  | popped w             => "pop => " ++ w.text
  | computed op a b r    =>
    a.text ++ " " ++ op.sign ++ " " ++ b.text ++ " " ++ op.resultSign ++ " " ++ r.text
  | inverted a r         => "!" ++ a.text ++ " = " ++ r.text
  | loaded a w           => "[" ++ toString a.val ++ "] => " ++ w.text
  | stored a w           => "[" ++ toString a.val ++ "] <- " ++ w.text
  | jumping a            => "Jumping to address " ++ toString a.val
  | returning a          => "Returning to " ++ toString a.val
  | received c           => "in => " ++ Text.quotedChar c
  | refilled _           => "Refilling input queue"
  | exhausted            => "Input source exhausted"

end Note

end WordMachine
