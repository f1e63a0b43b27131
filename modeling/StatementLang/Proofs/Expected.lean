import StatementLang.Proofs.Viable

/-!
What an error lists, and what its goals take.

The text of an expectation can be cut at its separators again (`mem_alternatives`). Goals that
reject a token take any of the symbols that they list, but for one: where a statement is expected,
the word that closes an until statement is listed and not taken (`exists_taking`).
-/

namespace StatementLang

open StatementLang.Symbol StatementLang.Nonterminal StatementLang.Choice Grammar.Language

namespace Expectation

/-- The pieces of a text between commas and between the words that stand before a last piece. -/
def piecesOf : List Char → List (List Char)
  | [] => [[]]
  | ',' :: ' ' :: cs => [] :: piecesOf cs
  | ' ' :: 'o' :: 'r' :: ' ' :: cs => [] :: piecesOf cs
  | c :: cs => match piecesOf cs with
    | [] => [[c]]
    | p :: ps => (c :: p) :: ps

/-- The alternatives that the text of an expectation lists. -/
def listed (text : String) : List String := (piecesOf text.toList).map String.ofList

@[simp] lemma listed_bracketed (s : Symbol) : listed s.bracketed = [s.bracketed] := by
  cases s <;> decide

end Expectation

lemma find?_bracketed (s : Symbol) :
    Symbol.all.find? (·.bracketed = s.bracketed) = some s := by
  cases s <;> decide

lemma bracketed_injective {s t : Symbol} (h : s.bracketed = t.bracketed) : s = t := by
  have hs := find?_bracketed s
  rw [h, find?_bracketed t] at hs
  exact (Option.some.inj hs).symm

/-- The expectations with which a choice can reject a token. -/
def Choice.expectations : Choice → List Expectation
  | statementForm => [.symbols [identifier, kwWhile, kwIf, kwCall, kwDo, kwUntil, kwFor]]
  | factorForm => [.symbols [identifier, number, leftParen]]
  | comparand => [⟨[.construct condition.name]⟩]
  | relation => [.symbols conditionalOperators]
  | _ => []

lemma taking_eq_error {k : Kind} {ss : List Symbol} {goOn : List Goal} {e : Expectation}
    {otherwise : Except Expectation (List Goal)} (h : taking k ss goOn otherwise = .error e) :
    otherwise = .error e := by
  unfold taking at h
  split at h
  · split at h
    · cases h
    · exact h
  · exact h

theorem mem_expectations {c : Choice} {k : Kind} {e : Expectation}
    (h : Grammar.language.select c k = .error e) : e ∈ c.expectations := by
  change Grammar.Language.select c k = .error e at h
  cases c with
  | moreStatements | moreTerms | moreFactors | elseBranch | moreArguments | assignedValue =>
    cases taking_eq_error h
  | afterSeparator | arguments => cases h
  | factorForm =>
    cases taking_eq_error (taking_eq_error h)
    exact List.mem_singleton_self _
  | comparand | relation =>
    cases taking_eq_error h
    exact List.mem_singleton_self _
  | statementForm =>
    simp only [Grammar.Language.select, statementAhead] at h
    split at h
    · cases h
    · cases h
      exact List.mem_singleton_self _

theorem mem_alternatives {k : Kind} {gs : List Goal} {e : Expectation} {y : Symbol}
    (h : Grammar.language.Rejects k gs e) (hy : y.bracketed ∈ Expectation.listed e.text) :
    .symbol y ∈ e.alternatives := by
  cases h with
  | @token x =>
    rw [Expectation.text_symbol, Expectation.listed_bracketed, List.mem_singleton] at hy
    rw [bracketed_injective hy]
    exact List.mem_singleton_self _
  | @choice c e hc =>
    have hall : ∀ e ∈ c.expectations, ∀ y ∈ Symbol.all,
        y.bracketed ∈ Expectation.listed e.text → .symbol y ∈ e.alternatives := by
      cases c <;> decide
    exact hall e (mem_expectations hc) y y.mem_all hy

/-! ### Alternatives that are taken -/

def startsWith (y : Symbol) : List Goal → Bool
  | .token x :: _ => x = y
  | .phrase n :: _ => (body n).head? = some (.token y)
  | _ => false

lemma course_of_startsWith {y : Symbol} {new : List Goal} (h : startsWith y new) (gs : List Goal)
    {t : Token} (ht : t.kind = .known y) :
    ∃ es gs', ∀ next, Course Grammar.language next (new ++ gs) [t] es gs' := by
  rcases new with _ | ⟨⟨x⟩ | ⟨n⟩ | ⟨n⟩ | ⟨c⟩, new⟩
  · cases h
  · obtain rfl : x = y := of_decide_eq_true h
    exact ⟨_, _, fun next => .token ht (.refl _)⟩
  · obtain ⟨rest, hrest⟩ := List.head?_eq_some_iff.1 (of_decide_eq_true h)
    have hbody : Grammar.language.body n = .token y :: rest := hrest
    refine ⟨[.ofEnter n.name, .ofToken t], rest ++ .leave n :: (new ++ gs), fun next => .phrase ?_⟩
    rw [hbody]
    exact .token ht (.refl _)
  · cases h
  · cases h

lemma startsWith_of_mem {c : Choice} {e : Expectation} {y : Symbol} (h : e ∈ c.expectations)
    (hy : .symbol y ∈ e.alternatives) (hu : y = kwUntil → e = .symbol kwUntil) :
    y ∈ c.own ∧ ∃ new, Grammar.language.select c (.known y) = .ok new ∧ startsWith y new := by
  have hall : ∀ e ∈ c.expectations, ∀ y ∈ Symbol.all, .symbol y ∈ e.alternatives →
      (y = kwUntil → e = .symbol kwUntil) →
      y ∈ c.own ∧ ((Grammar.language.select c (.known y)).toOption.any (startsWith y)) := by
    cases c <;> decide
  obtain ⟨hown, hany⟩ := hall e h y y.mem_all hy hu
  refine ⟨hown, ?_⟩
  rcases hs : Grammar.language.select c (.known y) with _ | new
  · rw [hs] at hany
    cases hany
  · rw [hs] at hany
    exact ⟨new, rfl, hany⟩

/-- **What is listed is taken**, unless it is the closing word of an until statement, listed where a
statement is expected. -/
theorem exists_taking {k : Kind} {F : List Symbol} {gs : List Goal} {e : Expectation} {y : Symbol}
    (h : Grammar.language.Rejects k gs e) (hy : .symbol y ∈ e.alternatives)
    (hu : y = kwUntil → e = .symbol kwUntil) {t : Token} (ht : t.kind = .known y) :
    y ∈ wants F gs ∧ ∃ es gs', ∀ next, Course Grammar.language next gs [t] es gs' := by
  cases h with
  | @token x hx gs =>
    obtain rfl : y = x := by simpa [Expectation.symbol] using hy
    exact ⟨List.mem_singleton_self y, _, gs, fun next => .token ht (.refl gs)⟩
  | @choice c e hc gs =>
    obtain ⟨hown, new, hs, hstarts⟩ := startsWith_of_mem (mem_expectations hc) hy hu
    obtain ⟨es, gs', hcourse⟩ := course_of_startsWith hstarts gs ht
    refine ⟨List.mem_append_left _ hown, es, gs', fun next => .choice ?_ (hcourse next)⟩
    rw [ahead_cons, ht, hs]

end StatementLang
