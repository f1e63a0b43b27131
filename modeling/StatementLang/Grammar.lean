import StatementLang.Expectation
import StatementLang.Nonterminal
import StatementLang.Token

/-!
Grammars that choose by looking at one token.

A rule is a list of goals. Most goals say what comes next; a choice looks at the kind of the next
token and gives the goals to go on with, or says what it would have taken. Ranks show that no goal
begins with itself: a rule is worth less than its nonterminal, and what a choice gives is worth
less than the choice, where only the goals before the first token count. So a derivation cannot go
on forever without taking a token.
-/

namespace StatementLang

/-- The places in the rules where the next token decides. -/
inductive Choice where
  | moreStatements | afterSeparator | statementForm
  | assignedValue | moreTerms | moreFactors | factorForm
  | elseBranch | arguments | moreArguments
  | comparand | relation
  deriving DecidableEq

/-- A step of a derivation still to be made. -/
inductive Goal where
  | token (s : Symbol)
  | phrase (n : Nonterminal)
  /-- The end of the phrase that was entered last. -/
  | leave (n : Nonterminal)
  | choice (c : Choice)
  deriving DecidableEq

namespace Goal

/-- What goals are worth before the first of them that takes a token. The end of the text does not
count as one, because it can be taken again and again. -/
def lead (phraseRank : Nonterminal → Nat) (choiceRank : Choice → Nat) : List Goal → Nat
  | [] => 0
  | token s :: gs => if s = .endOfFile then lead phraseRank choiceRank gs + 1 else 0
  | phrase n :: gs => lead phraseRank choiceRank gs + phraseRank n
  | leave _ :: gs => lead phraseRank choiceRank gs + 1
  | choice c :: gs => lead phraseRank choiceRank gs + choiceRank c

theorem lead_append_le (p : Nonterminal → Nat) (c : Choice → Nat) (as bs : List Goal) :
    lead p c (as ++ bs) ≤ lead p c as + lead p c bs := by
  induction as with
  | nil => simp [lead]
  | cons a as ih =>
    cases a with
    | token s =>
      simp only [List.cons_append, lead]
      split <;> omega
    | phrase n => simp only [List.cons_append, lead]; omega
    | leave n => simp only [List.cons_append, lead]; omega
    | choice d => simp only [List.cons_append, lead]; omega

end Goal

structure Grammar where
  /-- The goals that a nonterminal stands for. -/
  body : Nonterminal → List Goal
  /-- The goals that a choice stands for when the next token is of the given kind. -/
  select : Choice → Kind → Except Expectation (List Goal)
  phraseRank : Nonterminal → Nat
  choiceRank : Choice → Nat
  lead_body : ∀ n, Goal.lead phraseRank choiceRank (body n) + 1 < phraseRank n
  lead_select : ∀ c k gs, select c k = .ok gs →
    Goal.lead phraseRank choiceRank gs < choiceRank c

namespace Grammar

/-- The worth of goals under the ranks of the grammar. -/
def lead (g : Grammar) (gs : List Goal) : Nat := Goal.lead g.phraseRank g.choiceRank gs

theorem lead_expand (g : Grammar) (n : Nonterminal) (gs : List Goal) :
    g.lead (g.body n ++ .leave n :: gs) < g.lead (.phrase n :: gs) := by
  have h₁ := Goal.lead_append_le g.phraseRank g.choiceRank (g.body n) (.leave n :: gs)
  have h₂ := g.lead_body n
  simp only [lead, Goal.lead] at h₁ ⊢
  omega

theorem lead_chosen {g : Grammar} {c : Choice} {k : Kind} {new : List Goal}
    (h : g.select c k = .ok new) (gs : List Goal) :
    g.lead (new ++ gs) < g.lead (.choice c :: gs) := by
  have h₁ := Goal.lead_append_le g.phraseRank g.choiceRank new gs
  have h₂ := g.lead_select c k new h
  simp only [lead, Goal.lead] at h₁ ⊢
  omega

end Grammar

end StatementLang
