import StatementLang.Check
import StatementLang.Options

/-!
The command: from its arguments to what it writes and how it ends.

The log, if it is asked for, is read on the same channel as the errors, in the order in which the
check has written both.
-/

namespace StatementLang

inductive Ending where
  | exit (status : Nat)
  /-- The check has no verdict, and what stopped it goes on to the caller. -/
  | escape (e : Escape)
  deriving DecidableEq

structure Response where
  ending : Ending
  output : String
  errors : String
  deriving DecidableEq

namespace Command

def usage : String := "usage: descent [-h] [-s] [-t] [-v] source\n"

def help : String :=
  Printer.textOf
    ["usage: descent [-h] [-s] [-t] [-v] source",
     "",
     "LL(1) syntax checker for DESCENT programs",
     "",
     "positional arguments:",
     "  source         Filename or raw source (with -s)",
     "",
     "options:",
     "  -h, --help     show this help message and exit",
     "  -s, --string   Interpret source as literal string",
     "  -t, --trace    Print the derivation outline",
     "  -v, --verbose  Enable debug logging"]

def usageErrors (e : UsageError) : String :=
  usage ++ Printer.textOf ["descent: error: " ++ e.message]

/-- The program that the options ask to be checked. -/
def program (o : Options) : ProgramText :=
  if o.isString then .given o.source else .file o.source

/-- The status with which the command tells its verdict. -/
def status (accepted : Bool) : Nat := if accepted then 0 else 1

/-- Checks a program as the options say. -/
def respond (readFile : String → Except ReadFailure ByteArray) (logName : String) (o : Options) :
    Response :=
  let report := check readFile (program o) o.trace
  { ending := match report.verdict with
      | .ok accepted => .exit (status accepted)
      | .error e => .escape e
    output := report.output
    errors := report.read (if o.verbose then some logName else none) }

/-- Runs the command. Its own entries are logged under `logName`. -/
def run (readFile : String → Except ReadFailure ByteArray) (logName : String)
    (args : List String) : Response :=
  match Options.ofArgs args with
  | .error e => ⟨.exit 2, "", usageErrors e⟩
  | .ok none => ⟨.exit 0, help, ""⟩
  | .ok (some o) => respond readFile logName o

/-! ### Run as a module -/

/-- The word that keeps a module from running when an argument holds it. -/
def testRunner : String := "pytest"

/-- The name of the command's log when it is run as a module. -/
def moduleLogName : String := "__main__"

/-- Whether some argument names the test runner. -/
def isUnderTest (args : List String) : Bool :=
  args.any fun arg => (arg.splitOn testRunner).length > 1

/-- Runs the command as a module, unless it is loaded by the test runner. -/
def runAsModule (readFile : String → Except ReadFailure ByteArray) (args : List String) :
    Option Response :=
  if isUnderTest args then none else some (run readFile moduleLogName args)

end Command

end StatementLang
