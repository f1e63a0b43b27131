import StatementLang.Grammar

/-!
The grammar of the language.

A statement list is a statement, perhaps followed by a separator and another list; a separator may
also stand before a keyword that closes the list. Expressions and terms nest to the right.
-/

namespace StatementLang

open StatementLang.Symbol StatementLang.Nonterminal StatementLang.Choice

namespace Grammar.Language

/-- The rules. -/
def body : Nonterminal → List Goal
  | statementPart => [.token kwBegin, .phrase statementList, .token kwEnd]
  | statementList => [.phrase statement, .choice moreStatements]
  | statement => [.choice statementForm]
  | assignment => [.token identifier, .token becomes, .choice assignedValue]
  | expression => [.phrase term, .choice moreTerms]
  | term => [.phrase factor, .choice moreFactors]
  | factor => [.choice factorForm]
  | whileStatement =>
    [.token kwWhile, .phrase condition, .token kwLoop, .phrase statementList,
     .token kwEnd, .token kwLoop]
  | forStatement =>
    [.token kwFor, .token leftParen, .phrase assignment, .token semicolon, .phrase condition,
     .token semicolon, .phrase assignment, .token rightParen, .token kwDo,
     .phrase statementList, .token kwEnd, .token kwLoop]
  | ifStatement =>
    [.token kwIf, .phrase condition, .token kwThen, .phrase statementList,
     .choice elseBranch, .token kwEnd, .token kwIf]
  | procedureCall =>
    [.token kwCall, .token identifier, .token leftParen, .choice arguments, .token rightParen]
  | argumentList => [.token identifier, .choice moreArguments]
  | untilStatement =>
    [.token kwDo, .phrase statementList, .token kwUntil, .phrase condition]
  | condition => [.token identifier, .phrase conditionalOperator, .choice comparand]
  | conditionalOperator => [.choice relation]

/-- The statement that begins with a symbol. The word that closes an until statement is also
taken for one, which then fails at its first token. -/
def statementStarting : Symbol → Option Nonterminal
  | identifier => some assignment
  | kwWhile => some whileStatement
  | kwIf => some ifStatement
  | kwCall => some procedureCall
  | kwDo => some untilStatement
  | kwUntil => some untilStatement
  | kwFor => some forStatement
  | _ => none

/-- Whether the next token is one of some symbols. -/
def isOneOf (k : Kind) (ss : List Symbol) : Bool := k.symbol?.any (· ∈ ss)

/-- The goals of taking the next token and going on, if it is one of some symbols. -/
def taking (k : Kind) (ss : List Symbol) (goOn : List Goal)
    (otherwise : Except Expectation (List Goal)) : Except Expectation (List Goal) :=
  match k.symbol? with
  | some s => if s ∈ ss then .ok (.token s :: goOn) else otherwise
  | none => otherwise

/-- The statement that the next token begins. -/
def statementAhead (k : Kind) : Except Expectation (List Goal) :=
  match k.symbol?.bind statementStarting with
  | some n => .ok [.phrase n]
  | none => .error (.symbols [identifier, kwWhile, kwIf, kwCall, kwDo, kwUntil, kwFor])

/-- What each choice makes of the kind of the next token. -/
def select (c : Choice) (k : Kind) : Except Expectation (List Goal) :=
  match c with
  | moreStatements => taking k [semicolon] [.choice afterSeparator] (.ok [])
  | afterSeparator =>
    .ok (if isOneOf k listClosers then [] else [.phrase statementList, .choice moreStatements])
  | statementForm => statementAhead k
  | assignedValue => taking k [string] [] (.ok [.phrase expression])
  | moreTerms => taking k addingOperators [.phrase expression] (.ok [])
  | moreFactors => taking k multiplyingOperators [.phrase term] (.ok [])
  | factorForm =>
    taking k [leftParen] [.phrase expression, .token rightParen] <|
      taking k [identifier, number] [] (.error (.symbols [identifier, number, leftParen]))
  | elseBranch => taking k [kwElse] [.phrase statementList] (.ok [])
  | arguments => .ok (if isOneOf k [rightParen] then [] else [.phrase argumentList])
  | moreArguments => taking k [comma] [.phrase argumentList, .choice moreArguments] (.ok [])
  | comparand => taking k comparands [] (.error ⟨[.construct condition.name]⟩)
  | relation => taking k conditionalOperators [] (.error (.symbols conditionalOperators))

def phraseRank : Nonterminal → Nat
  | conditionalOperator => 3
  | factor => 3
  | term => 6
  | expression => 9
  | statement => 5
  | statementList => 8
  | _ => 2

def choiceRank : Choice → Nat
  | statementForm => 3
  | arguments => 3
  | assignedValue => 10
  | afterSeparator => 10
  | _ => 1

/-- Goals that begin by taking a token are worth nothing before it. -/
theorem of_taking {ss : List Symbol} {goOn gs : List Goal} {k : Kind}
    {otherwise : Except Expectation (List Goal)} (hs : endOfFile ∉ ss)
    (h : taking k ss goOn otherwise = .ok gs) :
    Goal.lead phraseRank choiceRank gs = 0 ∨ otherwise = .ok gs := by
  unfold taking at h
  split at h
  · split at h
    · next s _ hmem =>
      cases h
      have : s ≠ endOfFile := fun hs' => hs (hs' ▸ hmem)
      exact .inl (by simp [Goal.lead, this])
    · exact .inr h
  · exact .inr h

theorem phraseRank_statementStarting {s : Symbol} {n : Nonterminal}
    (h : statementStarting s = some n) : phraseRank n = 2 := by
  cases s <;> simp [statementStarting] at h <;> subst h <;> rfl

theorem lead_select {c : Choice} {k : Kind} {gs : List Goal} (h : select c k = .ok gs) :
    Goal.lead phraseRank choiceRank gs < choiceRank c := by
  cases c with
  | moreStatements | assignedValue | moreTerms | moreFactors | elseBranch | moreArguments
  | comparand | relation =>
    rcases of_taking (by decide) h with h | h
    · rw [h]; decide
    · cases h <;> decide
  | factorForm =>
    rcases of_taking (by decide) h with h | h
    · rw [h]; decide
    rcases of_taking (by decide) h with h | h
    · rw [h]; decide
    · cases h
  | afterSeparator | arguments =>
    cases h
    split <;> decide
  | statementForm =>
    simp only [select, statementAhead] at h
    split at h
    · next n hn =>
      cases h
      obtain ⟨s, -, hs⟩ := Option.bind_eq_some_iff.1 hn
      simp [Goal.lead, phraseRank_statementStarting hs, choiceRank]
    · cases h

end Grammar.Language

/-- The grammar of the language. -/
def Grammar.language : Grammar where
  body := Language.body
  select := Language.select
  phraseRank := Language.phraseRank
  choiceRank := Language.choiceRank
  lead_body n := by cases n <;> decide
  lead_select _ _ _ := Language.lead_select

end StatementLang
