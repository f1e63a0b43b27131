import Mathlib.Tactic.Simproc.ExistsAndEq
import StatementLang.Proofs.Productions

/-!
One token is enough to choose a production.

What a phrase is built of follows one of its productions, and the token after it does not go on
with the last of its trees (`parsed_iff_foretold`). Each choice is settled by what phrases begin
with; the two loops go round once, because the phrase in them takes all that is left to them.
-/

namespace StatementLang

open StatementLang.Symbol StatementLang.Nonterminal StatementLang.Choice Grammar.Language Forest

lemma isOneOf_eq_true {k : Kind} {ss : List Symbol} :
    Grammar.Language.isOneOf k ss = true ↔ k ∈ ss.map Kind.known := by
  cases k <;> simp [Grammar.Language.isOneOf, Kind.symbol?]

lemma taking_eq_ok {k : Kind} {ss : List Symbol} {goOn new : List Goal}
    {otherwise : Except Expectation (List Goal)} :
    taking k ss goOn otherwise = .ok new ↔
      (∃ s ∈ ss, k = .known s ∧ .token s :: goOn = new) ∨
        (k ∉ ss.map Kind.known ∧ otherwise = .ok new) := by
  cases k with
  | foreign code h => simp [taking, Kind.symbol?]
  | known s =>
    have hmem : Kind.known s ∈ ss.map Kind.known ↔ s ∈ ss := by simp
    rw [hmem]
    by_cases hs : s ∈ ss
    · simp only [taking, Kind.symbol?, hs, if_true, not_true, false_and, or_false, Except.ok.injEq]
      constructor
      · exact fun h => ⟨s, hs, rfl, h⟩
      · rintro ⟨s', -, hs', h⟩
        rwa [Kind.known.inj hs']
    · simp only [taking, Kind.symbol?, hs, if_false, not_false_eq_true, true_and]
      constructor
      · exact .inr
      · rintro (⟨s', hmem', hs', -⟩ | h)
        · exact absurd (Kind.known.inj hs' ▸ hmem') hs
        · exact h

/-- The goals that a choice can stand for and that begin by taking the token ahead. -/
def Choice.taken : Choice → List (List Goal)
  | moreStatements => [[.token semicolon, .choice afterSeparator]]
  | assignedValue => [[.token string]]
  | moreTerms => addingOperators.map fun s => [.token s, .phrase expression]
  | moreFactors => multiplyingOperators.map fun s => [.token s, .phrase term]
  | factorForm =>
    [[.token leftParen, .phrase expression, .token rightParen], [.token identifier],
      [.token number]]
  | elseBranch => [[.token kwElse, .phrase statementList]]
  | moreArguments => [[.token comma, .phrase argumentList, .choice moreArguments]]
  | comparand => comparands.map fun s => [.token s]
  | relation => conditionalOperators.map fun s => [.token s]
  | afterSeparator | statementForm | arguments => []

/-- The goals that a choice can stand for without taking the token ahead. -/
def Choice.bypass : Choice → List (List Goal)
  | moreStatements | moreTerms | moreFactors | elseBranch | moreArguments => [[]]
  | afterSeparator => [[], [.phrase statementList, .choice moreStatements]]
  | statementForm =>
    [[.phrase assignment], [.phrase whileStatement], [.phrase ifStatement],
     [.phrase procedureCall], [.phrase untilStatement], [.phrase forStatement]]
  | assignedValue => [[.phrase expression]]
  | arguments => [[], [.phrase argumentList]]
  | factorForm | comparand | relation => []

lemma taking_cases {k : Kind} {ss : List Symbol} {goOn new : List Goal} {taken : List (List Goal)}
    {otherwise : Except Expectation (List Goal)} (hss : ∀ s ∈ ss, .token s :: goOn ∈ taken)
    (h : taking k ss goOn otherwise = .ok new) :
    (∃ s goOn, k = .known s ∧ new = .token s :: goOn ∧ new ∈ taken) ∨ otherwise = .ok new := by
  rcases taking_eq_ok.1 h with ⟨s, hs, hk, rfl⟩ | ⟨-, h⟩
  · exact .inl ⟨s, goOn, hk, rfl, hss s hs⟩
  · exact .inr h

theorem select_cases {c : Choice} {k : Kind} {new : List Goal}
    (h : Grammar.language.select c k = .ok new) :
    (∃ s goOn, k = .known s ∧ new = .token s :: goOn ∧ new ∈ c.taken) ∨ new ∈ c.bypass := by
  change Grammar.Language.select c k = .ok new at h
  cases c with
  | moreStatements | moreTerms | moreFactors | elseBranch | moreArguments | assignedValue
  | comparand | relation =>
    refine (taking_cases (by decide) h).imp_right fun h => ?_
    cases h <;> decide
  | factorForm =>
    -- the parenthesis is looked for before the operands
    refine (taking_cases (by decide) h).elim .inl fun h => ?_
    refine (taking_cases (by decide) h).imp_right fun h => ?_
    cases h
  | afterSeparator | arguments =>
    cases h
    split <;> exact .inr (by decide)
  | statementForm =>
    simp only [Grammar.Language.select, statementAhead] at h
    split at h
    · next n hn =>
      cases h
      obtain ⟨s, -, hs⟩ := Option.bind_eq_some_iff.1 hn
      right
      cases s <;> cases hs <;> decide
    · cases h

variable {next : Kind} {f : Forest} {gs goOn : List Goal} {c : Choice} {ss : List Symbol}

lemma builds_taking_iff {otherwise : Kind → Except Expectation (List Goal)}
    (hs : ∀ k, Grammar.language.select c k = taking k ss goOn (otherwise k)) :
    Builds Grammar.language next (.choice c :: gs) f ↔
      (∃ s ∈ ss, Builds Grammar.language next (.token s :: (goOn ++ gs)) f) ∨
        (ahead next f.tokens ∉ ss.map Kind.known ∧
          ∃ new, otherwise (ahead next f.tokens) = .ok new ∧
            Builds Grammar.language next (new ++ gs) f) := by
  simp only [Builds.choice_iff, hs, taking_eq_ok]
  constructor
  · rintro ⟨new, ⟨s, hss, -, rfl⟩ | ⟨hk, ho⟩, h⟩
    · exact .inl ⟨s, hss, h⟩
    · exact .inr ⟨hk, new, ho, h⟩
  · rintro (⟨s, hss, h⟩ | ⟨hk, new, ho, h⟩)
    · obtain ⟨t, rest, rfl, ht, -⟩ := Builds.token_iff.1 h
      exact ⟨_, .inl ⟨s, hss, ht, rfl⟩, h⟩
    · exact ⟨new, .inr ⟨hk, ho⟩, h⟩

lemma builds_oneOf_iff {e : Expectation}
    (hs : ∀ k, Grammar.language.select c k = taking k ss goOn (.error e)) :
    Builds Grammar.language next (.choice c :: gs) f ↔
      ∃ s ∈ ss, Builds Grammar.language next (.token s :: (goOn ++ gs)) f := by
  simp [builds_taking_iff hs]

lemma builds_optional_iff
    (hs : ∀ k, Grammar.language.select c k = taking k ss goOn (.ok [])) :
    Builds Grammar.language next [.choice c] f ↔
      (∃ s ∈ ss, Builds Grammar.language next (.token s :: goOn) f) ∨
        (f = .nil ∧ next ∉ ss.map Kind.known) := by
  rw [builds_taking_iff hs]
  simp only [List.append_nil, Except.ok.injEq, exists_eq_left', Builds.nil_iff]
  refine or_congr_right ⟨?_, ?_⟩
  · rintro ⟨hk, rfl⟩
    exact ⟨rfl, hk⟩
  · rintro ⟨rfl, hk⟩
    exact ⟨hk, rfl⟩

lemma builds_optional_token_iff {s : Symbol} (h : s ∉ ss)
    (hs : ∀ k, Grammar.language.select c k = taking k ss goOn (.ok [])) :
    Builds Grammar.language next (.choice c :: .token s :: gs) f ↔
      (∃ s' ∈ ss, Builds Grammar.language next (.token s' :: (goOn ++ .token s :: gs)) f) ∨
        Builds Grammar.language next (.token s :: gs) f := by
  rw [builds_taking_iff hs]
  simp only [Except.ok.injEq, exists_eq_left', List.nil_append]
  refine or_congr_right (and_iff_right_of_imp fun hb => ?_)
  obtain ⟨t, rest, rfl, ht, -⟩ := Builds.token_iff.1 hb
  simpa [ht] using h

/-- The phrase `n` is built of the forest `f` when a token of the kind `next` follows. -/
def Parsed (n : Nonterminal) (next : Kind) (f : Forest) : Prop :=
  Builds Grammar.language next (Grammar.language.body n) f

@[simp] lemma builds_body_iff {n : Nonterminal} :
    Builds Grammar.language next (Grammar.language.body n) f ↔ Parsed n next f := Iff.rfl

lemma parsed_def {n : Nonterminal} :
    Parsed n next f ↔ Builds Grammar.language next (body n) f := Iff.rfl

/-- The trees of a forest stand for the parts one by one, and each phrase among them is built with
what follows it in the forest. -/
inductive Foretold (next : Kind) : List Part → Forest → Prop
  | nil : Foretold next [] .nil
  | symbol {s : Symbol} {t : Token} {ps : List Part} {rest : Forest} (ht : t.kind = .known s)
    (h : Foretold next ps rest) : Foretold next (.symbol s :: ps) (.leaf t rest)
  | phrase {n : Nonterminal} {ps : List Part} {children rest : Forest}
    (hc : Parsed n (ahead next rest.tokens) children) (h : Foretold next ps rest) :
    Foretold next (.phrase n :: ps) (.node n children rest)

namespace Foretold

variable {ps : List Part}

@[simp] lemma nil_iff : Foretold next [] f ↔ f = .nil := by
  constructor
  · intro h; cases h; rfl
  · rintro rfl; exact .nil

@[simp] lemma symbol_iff {s : Symbol} : Foretold next (.symbol s :: ps) f ↔
    ∃ t rest, f = .leaf t rest ∧ t.kind = .known s ∧ Foretold next ps rest := by
  constructor
  · intro h
    cases h with
    | symbol ht h => exact ⟨_, _, rfl, ht, h⟩
  · rintro ⟨t, rest, rfl, ht, h⟩
    exact .symbol ht h

@[simp] lemma phrase_iff {n : Nonterminal} : Foretold next (.phrase n :: ps) f ↔
    ∃ children rest, f = .node n children rest ∧ Parsed n (ahead next rest.tokens) children ∧
      Foretold next ps rest := by
  constructor
  · intro h
    cases h with
    | phrase hc h => exact ⟨_, _, rfl, hc, h⟩
  · rintro ⟨children, rest, rfl, hc, h⟩
    exact .phrase hc h

end Foretold

/-- Whether a token of kind `k` ends a phrase `n` that has come to so many trees, as far as the
last of them does not go on with it. -/
def halts : Nonterminal → Nat → Kind → Bool
  | statementList, 1, k => k ≠ .known semicolon
  | statementList, 2, k => k ∈ listClosers.map Kind.known
  | expression, 1, k => k ∉ addingOperators.map Kind.known
  | term, 1, k => k ∉ multiplyingOperators.map Kind.known
  | argumentList, 1, k => k ≠ .known comma
  | _, _, _ => true

/-! ### What phrases begin with -/

def first : Nonterminal → List Symbol
  | statementPart => [kwBegin]
  | statementList | statement => [identifier, kwWhile, kwIf, kwCall, kwDo, kwFor]
  | assignment | argumentList | condition => [identifier]
  | expression | term | factor => [identifier, number, leftParen]
  | whileStatement => [kwWhile]
  | forStatement => [kwFor]
  | ifStatement => [kwIf]
  | procedureCall => [kwCall]
  | untilStatement => [kwDo]
  | conditionalOperator => conditionalOperators

/-- The first token of a forest is one of some symbols. -/
def Forest.Begins (ss : List Symbol) (f : Forest) : Prop :=
  ∃ t ts, f.tokens = t :: ts ∧ t.kind ∈ ss.map Kind.known

namespace Forest.Begins

lemma leaf {s : Symbol} {t : Token} {rest : Forest} (ht : t.kind = .known s) (hs : s ∈ ss) :
    (Forest.leaf t rest).Begins ss :=
  ⟨t, rest.tokens, rfl, ht ▸ List.mem_map_of_mem hs⟩

lemma node {ss' : List Symbol} {n : Nonterminal} {children rest : Forest}
    (h : children.Begins ss) (hs : ss ⊆ ss') : (Forest.node n children rest).Begins ss' := by
  obtain ⟨t, ts, ht, hk⟩ := h
  exact ⟨t, ts ++ rest.tokens, by rw [tokens_node, ht, List.cons_append], List.map_subset _ hs hk⟩

lemma ahead (h : f.Begins ss) (next : Kind) : ahead next f.tokens ∈ ss.map Kind.known := by
  obtain ⟨t, ts, ht, hk⟩ := h
  rwa [ht]

end Forest.Begins

lemma builds_statementForm_iff : Builds Grammar.language next [.choice statementForm] f ↔
    ∃ s n c, statementStarting s = some n ∧ f = .node n c .nil ∧ Parsed n next c ∧
      ahead next c.tokens = .known s := by
  simp only [Builds.choice_iff]
  constructor
  · rintro ⟨new, hs, h⟩
    change statementAhead _ = _ at hs
    unfold statementAhead at hs
    split at hs
    · next n hn =>
      obtain ⟨s, hk, hs'⟩ := Option.bind_eq_some_iff.1 hn
      cases hs
      simp at h
      obtain ⟨c, rfl, hc⟩ := h
      refine ⟨s, n, c, hs', rfl, hc, ?_⟩
      cases hk' : ahead next (Forest.node n c .nil).tokens <;> simp_all [Kind.symbol?]
    · cases hs
  · rintro ⟨s, n, c, hs, rfl, hc, hk⟩
    refine ⟨[.phrase n], ?_, by simpa using hc⟩
    change statementAhead _ = _
    simp [statementAhead, hk, Kind.symbol?, hs]

lemma first_of_statementStarting {s : Symbol} {n : Nonterminal} (h : statementStarting s = some n) :
    first n ⊆ first statement ∧ [.phrase n] ∈ productions statement := by
  cases s <;> simp only [statementStarting, Option.some.injEq, reduceCtorEq] at h <;> subst h <;>
    decide

lemma builds_factorForm_iff : Builds Grammar.language next [.choice factorForm] f ↔
    (∃ t c t', f = .leaf t (.node expression c (.leaf t' .nil)) ∧ t.kind = .known leftParen ∧
      Parsed expression t'.kind c ∧ t'.kind = .known rightParen) ∨
    ∃ s ∈ [identifier, number], ∃ t, f = .leaf t .nil ∧ t.kind = .known s := by
  rw [builds_taking_iff fun _ => rfl]
  refine or_congr (by simp) ⟨?_, ?_⟩
  · rintro ⟨-, new, ho, h⟩
    rcases taking_eq_ok.1 ho with ⟨s, hs, -, rfl⟩ | ⟨-, hn⟩
    · exact ⟨s, hs, by simpa using h⟩
    · cases hn
  · rintro ⟨s, hs, t, rfl, ht⟩
    refine ⟨?_, [.token s], taking_eq_ok.2 (.inl ⟨s, hs, ht, rfl⟩), by simpa using ht⟩
    have : s ≠ leftParen := by rintro rfl; simp at hs
    simpa [ht] using this

theorem Parsed.begins {n : Nonterminal} (h : Parsed n next f) : f.Begins (first n) := by
  induction hk : f.size using Nat.strongRecOn generalizing n f next with
  | ind k ih =>
    rw [parsed_def] at h
    cases n with
    | statementPart | assignment | whileStatement | forStatement | ifStatement | procedureCall
    | argumentList | untilStatement | condition =>
      obtain ⟨t, rest, rfl, ht, -⟩ := Builds.token_iff.1 h
      exact .leaf ht (by decide)
    | statementList | expression | term =>
      obtain ⟨c, rest, rfl, hc, -⟩ := Builds.phrase_iff.1 h
      exact (ih c.size (by simp only [← hk, size]; omega) hc rfl).node (by decide)
    | statement =>
      obtain ⟨s, n, c, hs, rfl, hc, -⟩ := builds_statementForm_iff.1 h
      have hstart := (first_of_statementStarting hs).1
      exact (ih c.size (by simp only [← hk, size]; omega) hc rfl).node hstart
    | factor =>
      rcases builds_factorForm_iff.1 h with ⟨t, c, t', rfl, ht, -⟩ | ⟨s, hs, t, rfl, ht⟩
      · exact .leaf ht (by decide)
      · exact .leaf ht (List.mem_append_left [leftParen] hs)
    | conditionalOperator =>
      obtain ⟨s, hs, h⟩ := (builds_oneOf_iff fun _ => rfl).1 h
      obtain ⟨t, rest, rfl, ht, -⟩ := Builds.token_iff.1 h
      exact .leaf ht hs

/-! ### Loops go round once -/

lemma builds_moreArguments_iff : Builds Grammar.language next [.choice moreArguments] f ↔
    (∃ t c rest, f = .leaf t (.node argumentList c rest) ∧ t.kind = .known comma ∧
      Parsed argumentList (ahead next rest.tokens) c ∧
      Builds Grammar.language next [.choice moreArguments] rest) ∨
    (f = .nil ∧ next ≠ .known comma) := by
  rw [builds_optional_iff fun _ => rfl]
  simp only [List.mem_singleton, exists_eq_left, Builds.token_iff, Builds.phrase_iff,
    builds_body_iff, List.map_cons, List.map_nil]
  grind

lemma Parsed.ahead_not_mem {n : Nonterminal} {c rest : Forest} (h : Parsed n next c)
    (hd : ∀ s ∈ first n, s ∉ ss) (k : Kind) :
    ahead k (Forest.node n c rest).tokens ∉ ss.map Kind.known := by
  intro hk
  obtain ⟨s, hs, hs'⟩ := List.mem_map.1 ((h.begins.node (List.Subset.refl _)).ahead k)
  obtain ⟨s', hss, hss'⟩ := List.mem_map.1 hk
  cases hs'.trans hss'.symm
  exact hd s hs hss

lemma builds_afterSeparator_iff : Builds Grammar.language next [.choice afterSeparator] f ↔
    (f = .nil ∧ next ∈ listClosers.map Kind.known) ∨
    (∃ c rest, f = .node statementList c rest ∧ Parsed statementList (ahead next rest.tokens) c ∧
      Builds Grammar.language next [.choice moreStatements] rest) := by
  rw [Builds.choice_iff]
  change (∃ new, Except.ok _ = Except.ok new ∧ _) ↔ _
  simp only [Except.ok.injEq, exists_eq_left', isOneOf_eq_true]
  constructor
  · intro h
    split at h
    · next hk =>
      obtain rfl := Builds.nil_iff.1 h
      exact .inl ⟨rfl, hk⟩
    · obtain ⟨c, rest, rfl, hc, h⟩ := Builds.phrase_iff.1 h
      exact .inr ⟨c, rest, rfl, hc, h⟩
  · rintro (⟨rfl, hk⟩ | ⟨c, rest, rfl, hc, h⟩)
    · rw [tokens_nil, ahead_nil, if_pos hk]
      exact .nil next
    · rw [if_neg (hc.ahead_not_mem (by decide) next)]
      exact .phrase hc h

lemma builds_moreStatements_iff : Builds Grammar.language next [.choice moreStatements] f ↔
    (∃ t, f = .leaf t .nil ∧ t.kind = .known semicolon ∧ next ∈ listClosers.map Kind.known) ∨
    (∃ t c rest, f = .leaf t (.node statementList c rest) ∧ t.kind = .known semicolon ∧
      Parsed statementList (ahead next rest.tokens) c ∧
      Builds Grammar.language next [.choice moreStatements] rest) ∨
    (f = .nil ∧ next ≠ .known semicolon) := by
  rw [builds_optional_iff fun _ => rfl]
  simp only [List.mem_singleton, exists_eq_left, Builds.token_iff, builds_afterSeparator_iff,
    List.map_cons, List.map_nil]
  grind

theorem ne_comma_of_moreArguments (h : Builds Grammar.language next [.choice moreArguments] f) :
    next ≠ .known comma := by
  induction hk : f.size using Nat.strongRecOn generalizing f with
  | ind k ih =>
    rcases builds_moreArguments_iff.1 h with ⟨t, c, rest, rfl, -, -, h⟩ | ⟨rfl, hn⟩
    · exact ih rest.size (by simp only [← hk, size]; omega) h rfl
    · exact hn

theorem ne_semicolon_of_moreStatements
    (h : Builds Grammar.language next [.choice moreStatements] f) : next ≠ .known semicolon := by
  induction hk : f.size using Nat.strongRecOn generalizing f with
  | ind k ih =>
    rcases builds_moreStatements_iff.1 h with
      ⟨t, rfl, -, hn⟩ | ⟨t, c, rest, rfl, -, -, h⟩ | ⟨rfl, hn⟩
    · rintro rfl
      simp [listClosers] at hn
    · exact ih rest.size (by simp only [← hk, size]; omega) h rfl
    · exact hn

lemma Parsed.ne_comma (h : Parsed argumentList next f) : next ≠ .known comma := by
  obtain ⟨t, rest, rfl, -, h⟩ := Builds.token_iff.1 (parsed_def.1 h)
  exact ne_comma_of_moreArguments h

lemma Parsed.ne_semicolon (h : Parsed statementList next f) : next ≠ .known semicolon := by
  obtain ⟨c, rest, rfl, -, h⟩ := Builds.phrase_iff.1 (parsed_def.1 h)
  exact ne_semicolon_of_moreStatements h

lemma eq_nil_of_moreArguments {c : Forest} (hc : Parsed argumentList (ahead next f.tokens) c)
    (h : Builds Grammar.language next [.choice moreArguments] f) : f = .nil := by
  rcases builds_moreArguments_iff.1 h with ⟨t, c', rest, rfl, ht, -⟩ | ⟨rfl, -⟩
  · exact absurd ht hc.ne_comma
  · rfl

lemma eq_nil_of_moreStatements {c : Forest} (hc : Parsed statementList (ahead next f.tokens) c)
    (h : Builds Grammar.language next [.choice moreStatements] f) : f = .nil := by
  rcases builds_moreStatements_iff.1 h with ⟨t, rfl, ht, -⟩ | ⟨t, c', rest, rfl, ht, -⟩ | ⟨rfl, -⟩
  · exact absurd ht hc.ne_semicolon
  · exact absurd ht hc.ne_semicolon
  · rfl

lemma builds_moreArguments_once_iff : Builds Grammar.language next [.choice moreArguments] f ↔
    (∃ t c, f = .leaf t (.node argumentList c .nil) ∧ t.kind = .known comma ∧
      Parsed argumentList next c) ∨ (f = .nil ∧ next ≠ .known comma) := by
  rw [builds_moreArguments_iff]
  refine or_congr_left ⟨?_, ?_⟩
  · rintro ⟨t, c, rest, rfl, ht, hc, h⟩
    obtain rfl := eq_nil_of_moreArguments hc h
    exact ⟨t, c, rfl, ht, hc⟩
  · rintro ⟨t, c, rfl, ht, hc⟩
    exact ⟨t, c, .nil, rfl, ht, hc, builds_moreArguments_iff.2 (.inr ⟨rfl, hc.ne_comma⟩)⟩

lemma builds_moreStatements_once_iff : Builds Grammar.language next [.choice moreStatements] f ↔
    (∃ t, f = .leaf t .nil ∧ t.kind = .known semicolon ∧ next ∈ listClosers.map Kind.known) ∨
    (∃ t c, f = .leaf t (.node statementList c .nil) ∧ t.kind = .known semicolon ∧
      Parsed statementList next c) ∨ (f = .nil ∧ next ≠ .known semicolon) := by
  rw [builds_moreStatements_iff]
  refine or_congr_right (or_congr_left ⟨?_, ?_⟩)
  · rintro ⟨t, c, rest, rfl, ht, hc, h⟩
    obtain rfl := eq_nil_of_moreStatements hc h
    exact ⟨t, c, rfl, ht, hc⟩
  · rintro ⟨t, c, rfl, ht, hc⟩
    exact ⟨t, c, .nil, rfl, ht, hc,
      builds_moreStatements_iff.2 (.inr (.inr ⟨rfl, hc.ne_semicolon⟩))⟩

lemma builds_arguments_iff :
    Builds Grammar.language next [.choice arguments, .token rightParen] f ↔
      (∃ t, f = .leaf t .nil ∧ t.kind = .known rightParen) ∨
      ∃ c t, f = .node argumentList c (.leaf t .nil) ∧ Parsed argumentList t.kind c ∧
        t.kind = .known rightParen := by
  rw [Builds.choice_iff]
  change (∃ new, Except.ok _ = Except.ok new ∧ _) ↔ _
  simp only [Except.ok.injEq, exists_eq_left', isOneOf_eq_true]
  constructor
  · intro h
    split at h
    · exact .inl (by simpa using h)
    · exact .inr (by simpa using h)
  · rintro (⟨t, rfl, ht⟩ | ⟨c, t, rfl, hc, ht⟩)
    · rw [if_pos (by simp [ht])]
      exact .token ht (.nil next)
    · rw [if_neg (hc.ahead_not_mem (by decide) next)]
      exact .phrase hc (.token ht (.nil next))

lemma builds_assignedValue_iff : Builds Grammar.language next [.choice assignedValue] f ↔
    (∃ t, f = .leaf t .nil ∧ t.kind = .known string) ∨
    ∃ c, f = .node expression c .nil ∧ Parsed expression next c := by
  rw [builds_taking_iff fun _ => rfl]
  simp only [Except.ok.injEq, exists_eq_left']
  refine or_congr (by simp) ⟨?_, ?_⟩
  · rintro ⟨-, h⟩
    simpa using h
  · rintro ⟨c, rfl, hc⟩
    exact ⟨hc.ahead_not_mem (by decide) next, .phrase hc (.nil next)⟩

lemma forms_of_statement {qs : List Part} (h : qs ∈ productions statement) :
    ∃ n s, qs = [.phrase n] ∧ first n = [s] ∧ statementStarting s = some n := by
  simp only [productions, List.mem_cons, List.not_mem_nil, or_false] at h
  rcases h with rfl | rfl | rfl | rfl | rfl | rfl <;> exact ⟨_, _, rfl, rfl, rfl⟩

/-- **One token chooses the production**: what a phrase is built of follows one of its productions,
and the token after it does not go on with the last of the trees. -/
theorem parsed_iff_foretold {n : Nonterminal} :
    Parsed n next f ↔ ∃ qs ∈ productions n, Foretold next qs f ∧ halts n qs.length next := by
  rw [parsed_def]
  -- Phrase by phrase: the choices in a body are the alternatives of the productions, and `halts` is
  -- what a choice at the end of the body asks of the token ahead.
  cases n with
  | statementPart | whileStatement | forStatement | untilStatement =>
    simp [body, productions, halts]
  | statementList =>
    simp only [body, Builds.phrase_iff, builds_moreStatements_once_iff]
    simp [productions, halts, listClosers, and_or_left, exists_or]
    grind
  | statement =>
    rw [body, builds_statementForm_iff]
    constructor
    · rintro ⟨s, n, c, hs, rfl, hc, -⟩
      exact ⟨_, (first_of_statementStarting hs).2, .phrase hc .nil, rfl⟩
    · rintro ⟨qs, hq, h, -⟩
      obtain ⟨n, s, rfl, hf, hs⟩ := forms_of_statement hq
      obtain ⟨c, rest, rfl, hc, h⟩ := Foretold.phrase_iff.1 h
      obtain rfl := Foretold.nil_iff.1 h
      exact ⟨s, n, c, hs, rfl, hc, by simpa [hf] using hc.begins.ahead next⟩
  | assignment =>
    simp [body, productions, halts, builds_assignedValue_iff, and_or_left, exists_or]
  | expression =>
    simp [body, productions, halts, builds_optional_iff (c := moreTerms) fun _ => rfl,
      addingOperators, and_or_left, exists_or]
    grind
  | term =>
    simp [body, productions, halts, builds_optional_iff (c := moreFactors) fun _ => rfl,
      multiplyingOperators, and_or_left, exists_or]
    grind
  | factor =>
    rw [body, builds_factorForm_iff]
    simp [productions, halts]
    grind
  | ifStatement =>
    have h : kwEnd ∉ [kwElse] := by decide
    simp [body, productions, halts, builds_optional_token_iff (c := elseBranch) h fun _ => rfl,
      and_or_left, exists_or]
    exact or_comm
  | procedureCall =>
    simp [body, productions, halts, builds_arguments_iff, and_or_left, exists_or]
  | argumentList =>
    simp [body, productions, halts, builds_moreArguments_once_iff, and_or_left, exists_or]
    grind
  | condition =>
    simp [body, productions, halts, builds_oneOf_iff (c := comparand) fun _ => rfl, comparands,
      and_or_left, exists_or]
  | conditionalOperator =>
    simp [body, productions, halts, builds_oneOf_iff (c := relation) fun _ => rfl,
      conditionalOperators]

end StatementLang
