import WordMachine.CommandLine.Arguments

/-!
# Words about the program

How to use the program, and completions of its commands for a shell. The texts stand for longer
ones that name every option of every command. What counts is that there is a text, and where it
goes; its wording does not matter to anything else.
-/

namespace WordMachine.CommandLine

def commandNames : List String := ["run", "completion", "help"]

/-- How to use the program, in place of a longer text. -/
def usage : String :=
  "usage: run [--steps COUNT] [--script FILE]... IMAGE\n" ++
  "       completion [--bin-name NAME] SHELL\n" ++
  "       help [COMMAND]\n" ++
  "flags: -v (more log), -c (color), -C (no color), -j (log as JSON), -h, -V\n"

/-- A line that teaches a shell the names of the commands, in place of a script that knows the
options as well. -/
def completionLine (shell : Shell) (binName : String) : String :=
  let names := " ".intercalate commandNames
  match shell with
  | .bash       => "complete -W \"" ++ names ++ "\" " ++ binName ++ "\n"
  | .zsh        => "compctl -k '(" ++ names ++ ")' " ++ binName ++ "\n"
  | .fish       => "complete -c " ++ binName ++ " -f -a \"" ++ names ++ "\"\n"
  | .elvish     =>
    "set edit:completion:arg-completer[" ++ binName ++ "] = \x7b|@words| put " ++ names ++ " \x7d\n"
  | .powershell =>
    "Register-ArgumentCompleter -Native -CommandName " ++ binName ++ " -ScriptBlock \x7b " ++
      ", ".intercalate (commandNames.map fun n => "'" ++ n ++ "'") ++ " \x7d\n"

end WordMachine.CommandLine
