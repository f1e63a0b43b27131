import StatementLang.Symbol

/-!
What the grammar would have taken at a place where it rejects a token, and how a message says so.
-/

namespace StatementLang

/-- One thing that would have been taken: a symbol, or a construct that only has a name. -/
inductive Alternative where
  | symbol (s : Symbol)
  | construct (name : String)
  deriving DecidableEq

def Alternative.text : Alternative → String
  | symbol s => s.bracketed
  | construct name => name

/-- The alternatives at a place, in the order in which they are announced. -/
structure Expectation where
  alternatives : List Alternative
  deriving DecidableEq

namespace Expectation

def symbol (s : Symbol) : Expectation := ⟨[.symbol s]⟩
def symbols (ss : List Symbol) : Expectation := ⟨ss.map .symbol⟩

/-- Commas between the alternatives, and a word between the last two. -/
def join : List String → String
  | [] => ""
  | [a] => a
  | [a, b] => a ++ " or " ++ b
  | a :: rest => a ++ ", " ++ join rest

def text (e : Expectation) : String := join (e.alternatives.map Alternative.text)

@[simp] theorem text_symbol (s : Symbol) : (symbol s).text = s.bracketed := rfl

end Expectation

end StatementLang
