import StatementLang.Text.Quoted
import StatementLang.Token

/-!
The log: what is recorded about the progress of a check, for whoever asks for it.
-/

namespace StatementLang

namespace Record

inductive Level where
  | debug | info
  deriving DecidableEq

def Level.name : Level → String
  | debug => "DEBUG"
  | info => "INFO"

/-- The parts of a check that write to the log. -/
inductive Origin where
  | command | derivation | report
  deriving DecidableEq

end Record

/-- An entry of the log. -/
inductive Record where
  | reading (label : String) (size : Nat)
  | entering (name : String) (line : Int)
  | accepted (t : Token)
  | leaving (name : String)
  | violation (message : String)
  | success (label : String)
  deriving DecidableEq

namespace Record

def level : Record → Level
  | reading .. => .info
  | _ => .debug

def origin : Record → Origin
  | reading .. => .command
  | entering .. | accepted .. | leaving .. => .derivation
  | violation .. | success .. => .report

def message : Record → String
  | reading label size => s!"parsing {label} ({size} characters)"
  | entering name line => s!"entering {name} at line {line}"
  | accepted t => s!"accepted {t.kind.code} {Text.quoted t.value} at line {t.line}"
  | leaving name => s!"leaving {name}"
  | violation message => s!"syntax error: {message}"
  | success label => s!"{label} parsed successfully"

/-- The name under which an origin writes to the log. The command can be given another one. -/
def Origin.name (commandName : String) : Origin → String
  | command => commandName
  | derivation => "descent.descent_parser"
  | report => "descent.descent_events"

/-- The name of the command's log unless another one is given. -/
def defaultCommandName : String := "descent.descent_cli"

/-- The line of the log for an entry. -/
def line (commandName : String) (r : Record) : String :=
  r.level.name ++ " " ++ r.origin.name commandName ++ ": " ++ r.message

end Record

end StatementLang
