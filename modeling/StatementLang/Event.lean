import StatementLang.Token

/-!
The events of a derivation: phrases entered and left, and tokens taken.
-/

namespace StatementLang

namespace Event

/-- What an event tells. -/
inductive Tag where
  | enter | leave | terminal
  | custom (text : String)
  deriving DecidableEq

namespace Tag

def text : Tag → String
  | enter => "enter"
  | leave => "exit"
  | terminal => "terminal"
  | custom text => text

def ofText (text : String) : Tag :=
  if text = enter.text then enter
  else if text = leave.text then leave
  else if text = terminal.text then terminal
  else custom text

end Tag

end Event

/-- An event about the phrase, or the kind of token, of the given name. -/
structure Event where
  tag : Event.Tag
  name : String
  token : Option Token
  deriving DecidableEq

namespace Event

def ofEnter (name : String) : Event := ⟨.enter, name, none⟩
def ofLeave (name : String) : Event := ⟨.leave, name, none⟩
def ofToken (t : Token) : Event := ⟨.terminal, t.kind.code, some t⟩

/-- The item of an outline for an event: a signed name for a phrase, the value for a token. An
event of neither sort needs a token. -/
def outline? (e : Event) : Option String :=
  match e.tag with
  | .enter => some ("+" ++ e.name)
  | .leave => some ("-" ++ e.name)
  | _ => e.token.map (·.value)

end Event

end StatementLang
