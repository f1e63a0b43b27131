import StatementLang.GrammarError
import StatementLang.Printer
import StatementLang.Trace

/-!
Sinks are told of the events of a derivation, and word the complaint about a token that is
rejected.

A sink knows the label of the text and has an observer that keeps the events: none, a trace or a
printer. Of the observers only the printer needs the name of a kind, so it alone can refuse a
token.
-/

namespace StatementLang

inductive Observer where
  | silent
  | trace (t : Trace)
  | printer (p : Printer)

structure Sink where
  label : String
  observer : Observer

namespace Sink

/-- The label of a text that does not come from a file. -/
def defaultLabel : String := "<string>"

def enter (s : Sink) (name : String) : Sink :=
  match s.observer with
  | .silent => s
  | .trace t => { s with observer := .trace (t.record (.ofEnter name)) }
  | .printer p => { s with observer := .printer (p.enter name) }

def leave (s : Sink) (name : String) : Sink :=
  match s.observer with
  | .silent => s
  | .trace t => { s with observer := .trace (t.record (.ofLeave name)) }
  | .printer p => { s with observer := .printer (p.leave name) }

/-- Tells the sink of a token taken. -/
def token (s : Sink) (t : Token) : Except UnknownKind Sink :=
  match s.observer with
  | .silent => .ok s
  | .trace tr => .ok { s with observer := .trace (tr.record (.ofToken t)) }
  | .printer p =>
    match t.kind.name with
    | .ok name => .ok { s with observer := .printer (p.token name t) }
    | .error unknown => .error unknown

def succeed (s : Sink) : Sink :=
  match s.observer with
  | .trace t => { s with observer := .trace t.succeed }
  | _ => s

/-- The complaint about a token where something else is expected. -/
def violation (s : Sink) (t : Token) (expected : String) : Violation where
  message :=
    s!"Token: \"{t.value}\" at line {t.line}. In file {s.label}. {expected} is expected"
  token := some t
  expected := some expected

def trace? (s : Sink) : Option Trace :=
  match s.observer with
  | .trace t => some t
  | _ => none

def printer? (s : Sink) : Option Printer :=
  match s.observer with
  | .printer p => some p
  | _ => none

@[simp] theorem label_enter (s : Sink) (name : String) : (s.enter name).label = s.label := by
  unfold enter; split <;> rfl
@[simp] theorem label_leave (s : Sink) (name : String) : (s.leave name).label = s.label := by
  unfold leave; split <;> rfl
@[simp] theorem label_succeed (s : Sink) : s.succeed.label = s.label := by
  unfold succeed; split <;> rfl

end Sink

end StatementLang
