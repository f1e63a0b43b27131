import StatementLang.Grammar.Language
import StatementLang.Proofs.Forest

/-!
The productions of the language, and the trees that follow them.

Repetition nests to the right, so that every phrase has one tree. A forest is the body of a phrase
if its trees follow one of the productions of the phrase.
-/

namespace StatementLang

open StatementLang.Symbol StatementLang.Nonterminal

inductive Part where
  | symbol (s : Symbol)
  | phrase (n : Nonterminal)
  deriving DecidableEq

namespace Part

instance : Coe Symbol Part := ⟨symbol⟩
instance : Coe Nonterminal Part := ⟨phrase⟩

end Part

/-- The right sides of a nonterminal. -/
def productions : Nonterminal → List (List Part)
  | statementPart => [[kwBegin, statementList, kwEnd]]
  | statementList =>
    [[statement], [statement, semicolon], [statement, semicolon, statementList]]
  | statement =>
    [[assignment], [whileStatement], [ifStatement], [procedureCall], [untilStatement],
     [forStatement]]
  | assignment => [[identifier, becomes, string], [identifier, becomes, expression]]
  | expression => [[term], [term, plus, expression], [term, minus, expression]]
  | term => [[factor], [factor, times, term], [factor, divide, term]]
  | factor => [[identifier], [number], [leftParen, expression, rightParen]]
  | whileStatement => [[kwWhile, condition, kwLoop, statementList, kwEnd, kwLoop]]
  | forStatement =>
    [[kwFor, leftParen, assignment, semicolon, condition, semicolon, assignment, rightParen,
      kwDo, statementList, kwEnd, kwLoop]]
  | ifStatement =>
    [[kwIf, condition, kwThen, statementList, kwEnd, kwIf],
     [kwIf, condition, kwThen, statementList, kwElse, statementList, kwEnd, kwIf]]
  | procedureCall =>
    [[kwCall, identifier, leftParen, rightParen],
     [kwCall, identifier, leftParen, argumentList, rightParen]]
  | argumentList => [[identifier], [identifier, comma, argumentList]]
  | untilStatement => [[kwDo, statementList, kwUntil, condition]]
  | condition =>
    [[identifier, conditionalOperator, identifier], [identifier, conditionalOperator, number]]
  | conditionalOperator => [[equal], [notEqual], [less], [greater]]

namespace Forest

/-- The trees of a forest stand for the parts one by one, and follow the productions. -/
inductive Derives : List Part → Forest → Prop
  | nil : Derives [] .nil
  | symbol {s : Symbol} {t : Token} {ps : List Part} {rest : Forest} (ht : t.kind = .known s)
    (h : Derives ps rest) : Derives (.symbol s :: ps) (.leaf t rest)
  | phrase {n : Nonterminal} {qs ps : List Part} {children rest : Forest}
    (hq : qs ∈ productions n) (hc : Derives qs children) (h : Derives ps rest) :
    Derives (.phrase n :: ps) (.node n children rest)

/-- The trees of a forest follow a production of the phrase. -/
def IsBody (n : Nonterminal) (f : Forest) : Prop := ∃ qs ∈ productions n, Derives qs f

variable {f : Forest} {ps : List Part}

@[simp] lemma derives_nil_iff : Derives [] f ↔ f = .nil := by
  constructor
  · intro h; cases h; rfl
  · rintro rfl; exact .nil

@[simp] lemma derives_symbol_iff {s : Symbol} : Derives (.symbol s :: ps) f ↔
    ∃ t rest, f = .leaf t rest ∧ t.kind = .known s ∧ Derives ps rest := by
  constructor
  · intro h
    cases h with
    | symbol ht h => exact ⟨_, _, rfl, ht, h⟩
  · rintro ⟨t, rest, rfl, ht, h⟩
    exact .symbol ht h

@[simp] lemma derives_phrase_iff {n : Nonterminal} : Derives (.phrase n :: ps) f ↔
    ∃ children rest, f = .node n children rest ∧ IsBody n children ∧ Derives ps rest := by
  constructor
  · intro h
    cases h with
    | phrase hq hc h => exact ⟨_, _, rfl, ⟨_, hq, hc⟩, h⟩
  · rintro ⟨children, rest, rfl, ⟨qs, hq, hc⟩, h⟩
    exact .phrase hq hc h

end Forest

end StatementLang
