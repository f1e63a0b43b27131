import StatementLang.Event

/-!
Traces: the events of a derivation, recorded in order, and whether it came to its end.
-/

namespace StatementLang

structure Trace where
  /-- The events, the last one first. -/
  latest : List Event
  succeeded : Bool

namespace Trace

def empty : Trace := ⟨[], false⟩

def record (t : Trace) (e : Event) : Trace := { t with latest := e :: t.latest }
def succeed (t : Trace) : Trace := { t with succeeded := true }

/-- The events in order. -/
def events (t : Trace) : List Event := t.latest.reverse

@[simp] theorem events_empty : empty.events = [] := rfl
@[simp] theorem events_record (t : Trace) (e : Event) :
    (t.record e).events = t.events ++ [e] := by
  simp [events, record]
@[simp] theorem events_succeed (t : Trace) : t.succeed.events = t.events := rfl

/-- The events that came after an earlier state of the trace. -/
def eventsSince (t earlier : Trace) : List Event := t.events.drop earlier.events.length

/-! ### Views of the events -/

/-- The names of the phrases entered. -/
def entered (es : List Event) : List String :=
  (es.filter (·.tag = .enter)).map (·.name)

/-- The tokens taken. -/
def terminals (es : List Event) : List Token :=
  (es.filter (·.tag = .terminal)).filterMap (·.token)

/-- The outline of the events, unless one of them has none. -/
def outline? (es : List Event) : Option (List String) := es.mapM Event.outline?

end Trace

end StatementLang
