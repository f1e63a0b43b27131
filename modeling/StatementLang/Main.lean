import StatementLang.Command

/-!
The program: reads the file that the command asks for, and writes what the command answers.
-/

namespace StatementLang.Program

/-- What an error of the system means for the reading of the file `name`. -/
def readFailureOf (name : String) : IO.Error → ReadFailure
  | .noFileOrDirectory .. => .notFound name
  | .inappropriateType _ code _ => if code = 21 then .isDirectory name else .notDirectory name
  | .invalidArgument .. => .nameTooLong name
  | e => .system e.toString

def readBytes (name : String) : IO (Except ReadFailure ByteArray) := do
  try
    return .ok (← IO.FS.readBinFile name)
  catch e => return .error (readFailureOf name e)

/-- Reads the file that the arguments name, if they name one. -/
def readNamed (args : List String) : IO (Except ReadFailure ByteArray) := do
  match Options.ofArgs args with
  | .ok (some o) =>
    match Command.program o with
    | .file name => readBytes name
    | .given _ => return .ok .empty
  | _ => return .ok .empty

end StatementLang.Program

open StatementLang

def main (args : List String) : IO UInt32 := do
  let contents ← Program.readNamed args
  let response := Command.run (fun _ => contents) Record.defaultCommandName args
  IO.print response.output
  IO.eprint response.errors
  match response.ending with
  | .exit status => return status.toUInt32
  | .escape (.unreadable f) =>
    IO.eprintln (f.message?.getD "the file is not UTF-8")
    return 1
  | .escape (.broken f) =>
    IO.eprintln f.message
    return 1
