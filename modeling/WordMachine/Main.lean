import WordMachine.CommandLine.Interaction

/-!
# The program

Connects a command to the files and streams of the system. All that is done here is reading and
writing.
-/

namespace WordMachine.Main

open CommandLine

/-- The number of a system error, which is reported with either sign. -/
def errorNumber (code : UInt32) : Nat :=
  if code.toNat < UInt32.size / 2 then code.toNat else UInt32.size - code.toNat

/-- The text of a system error. -/
def systemError (e : IO.Error) : String :=
  match e with
  | .noFileOrDirectory _ code details | .permissionDenied _ code details
  | .inappropriateType _ code details | .invalidArgument _ code details
  | .resourceExhausted _ code details | .noSuchThing _ code details
  | .alreadyExists _ code details | .interrupted _ code details
  | .otherError code details | .resourceBusy code details | .resourceVanished code details
  | .unsupportedOperation code details | .hardwareFault code details
  | .unsatisfiedConstraints code details | .illegalOperation code details
  | .protocolError code details | .timeExpired code details =>
    let number := errorNumber code
    match FileError.ofNumber? number with
    | some e => e.text
    | none   => FileError.numbered details.capitalize number
  | .unexpectedEof => "unexpected end of file"
  | .userError message => message

/-- Read files, and look up what came of it. -/
def readFiles (paths : List String) : IO Reader := do
  let contents ← paths.mapM fun (path : String) => do
    let content ← (IO.FS.readBinFile path).toBaseIO
    let content : Except String (List UInt8) :=
      match content with
      | .ok bytes => .ok bytes.toList
      | .error e  => .error (systemError e)
    return (path, content)
  return fun path => (contents.lookup path).getD (.error (FileError.notFound.text))

/-- Read bytes up to a newline or to the end. -/
partial def readLine (input : IO.FS.Stream) (line : Array UInt8) : IO (Array UInt8) := do
  let bytes ← input.read 1
  match bytes.toList with
  | []     => return line
  | b :: _ =>
    if b = Source.newline then return line.push b
    else readLine input (line.push b)

/-- The files and streams of the system. What is written appears at once. -/
def system : IO (Surroundings IO) := do
  let input ← IO.getStdin
  let output ← IO.getStdout
  let errors ← IO.getStderr
  return {
    files := readFiles
    line := return (← readLine input #[]).toList
    output := fun bytes => do
      output.write ⟨bytes.toArray⟩
      output.flush
    errors := errors.putStr }

end WordMachine.Main

/-- Do what the arguments ask for. -/
def main (arguments : List String) : IO UInt32 := do
  let around ← WordMachine.Main.system
  return UInt32.ofNat (← around.serve arguments)
