import StatementLang.Directory
import StatementLang.Session.Call

/-!
Checking a program: reading its text, deriving it, and reporting the outcome.

What the check writes goes to two channels: the derivation, if it is asked for, and the success to
the first one, errors and the entries of the log to the second, each when it comes up. Whoever
reads the second channel does so with the log or without.

Since phrases may nest to any depth, a check has no report that they nest too deep.
-/

namespace StatementLang

/-- Why a check ends without a verdict. -/
inductive Escape where
  | unreadable (f : ReadFailure)
  | broken (f : Failure)
  deriving DecidableEq

/-- What is written to the channel of the errors. -/
inductive Notice where
  | logged (r : Record)
  | told (text : String)
  deriving DecidableEq

/-- What is read of a notice. Entries of the log are read only if the command has a name there. -/
def Notice.text : Option String → Notice → String
  | some name, logged r => Printer.textOf [r.line name]
  | none, logged _ => ""
  | _, told text => text

structure Report where
  /-- Whether the program is accepted, unless the check has no verdict. -/
  verdict : Except Escape Bool
  output : String
  notices : List Notice

namespace Report

/-- What is read on the channel of the errors, with the log or without. -/
def read (r : Report) (logName : Option String) : String :=
  String.join (r.notices.map (Notice.text logName))

def errors (r : Report) : String := r.read none

/-- The trail of an error, one step further in for each layer. -/
def indentTrail (trail : List String) : List String :=
  trail.mapIdx fun i message => String.join (List.replicate (i + 1) "  ") ++ message

/-- What is written about an error in the form of the program. -/
def grammarErrors (label : String) (e : GrammarError) : String :=
  Printer.textOf (s!"Syntax error in {label}:" :: indentTrail e.trail)

/-- What is written about a faulty lexeme. -/
def lexicalErrors (label : String) (e : LexError) : String :=
  Printer.textOf [s!"Lexical error in {label}: {e.message}"]

def success (label : String) : String := Printer.textOf [s!"{label} parsed successfully"]

end Report

/-- The sink for a check that writes the derivation or does not. -/
def checkSink (label : String) (trace : Bool) : Sink :=
  ⟨label, if trace then .printer (.ofIndent Printer.defaultIndent) else .silent⟩

/-- What the sink of a check has written. -/
def Sink.written (s : Sink) : String :=
  match s.printer? with
  | some p => Printer.textOf p.lines
  | none => ""

/-- Checks a text under a label. -/
def checkText (label text : String) (trace : Bool) : Report :=
  let notices := [Notice.logged (.reading label text.length)]
  match Session.start (.ofText text) (checkSink label trace) with
  | .error e => ⟨.ok false, "", notices ++ [.told (Report.lexicalErrors label e)]⟩
  | .ok session =>
    let (outcome, session) := session.parseProgram .language
    let written := session.sink.written
    let notices := notices ++ session.log.map .logged
    match outcome with
    | .ok () => ⟨.ok true, written ++ Report.success label, notices⟩
    | .error (.grammar e) =>
      ⟨.ok false, written, notices ++ [.told (Report.grammarErrors label e)]⟩
    | .error (.lexical e) =>
      ⟨.ok false, written, notices ++ [.told (Report.lexicalErrors label e)]⟩
    | .error f => ⟨.error (.broken f), written, notices⟩

/-- Where the text of a program comes from. -/
inductive ProgramText where
  | given (text : String)
  | file (name : String)
  deriving DecidableEq

namespace ProgramText

def label : ProgramText → String
  | given _ => Sink.defaultLabel
  | file name => name

/-- The text, with the help of something that reads files. -/
def read (readFile : String → Except ReadFailure ByteArray) :
    ProgramText → Except ReadFailure String
  | given text => .ok text
  | file name => do decodeText (← readFile name)

end ProgramText

/-- Checks a program. -/
def check (readFile : String → Except ReadFailure ByteArray) (p : ProgramText) (trace : Bool) :
    Report :=
  match p.read readFile with
  | .ok text => checkText p.label text trace
  | .error f => ⟨.error (.unreadable f), "", []⟩

end StatementLang
