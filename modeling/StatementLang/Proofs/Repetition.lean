import StatementLang.Proofs.Accounting
import StatementLang.Proofs.Expected
import StatementLang.Proofs.LongestMatch

/-!
Repetitions that go round at most once.

Statements and arguments are repeated by a loop behind a separator (`Rounds`). The phrase that a
round derives takes all that is left to the loop: no phrase ends before a token that it could go on
with (`Session.not_mem_continuations`), so a second round is never begun (`Rounds.le_one`). A
grammar without the loops does the same in every session (`repetitions_go_round_once`).
-/

namespace StatementLang

open StatementLang.Symbol StatementLang.Nonterminal StatementLang.Choice Grammar.Language Forest
open Session

/-- What the grammar repeats. -/
inductive Repetition where
  | statements | arguments
  deriving DecidableEq

namespace Repetition

/-- The phrase that each round derives. It is also the one that the loop stands in. -/
def phrase : Repetition → Nonterminal
  | statements => statementList
  | arguments => argumentList

def separator : Repetition → Symbol
  | statements => semicolon
  | arguments => comma

def closers : Repetition → List Symbol
  | statements => listClosers
  | arguments => []

/-- The place in the rules where the loop looks for another round. -/
def choice : Repetition → Choice
  | statements => moreStatements
  | arguments => moreArguments

end Repetition

/-- One round of the loop, and whether the loop looks for another one: the separator is taken, and
unless a closing symbol is ahead then, the phrase is derived. -/
def Session.round (g : Grammar) (r : Repetition) (s : Session) : Except Failure Bool × Session :=
  match s.accept (.known r.separator) with
  | (.error f, s) => (.error f, s)
  | (.ok _, s) =>
    if isOneOf s.lookahead.kind r.closers then (.ok false, s)
    else Prod.map (·.map fun _ => true) id (s.parsePhrase g r.phrase)

/-- A loop that is come to with the session `s` begins so many rounds and ends with a result. It
makes rounds as long as the separator is ahead. -/
inductive Rounds (g : Grammar) (r : Repetition) :
    Session → Nat → Except Failure Unit × Session → Prop
  | done {s : Session} (h : s.lookahead.kind ≠ .known r.separator) : Rounds g r s 0 (.ok (), s)
  | closed {s s' : Session} (hk : s.lookahead.kind = .known r.separator)
    (h : s.round g r = (.ok false, s')) : Rounds g r s 1 (.ok (), s')
  | failed {s s' : Session} {f : Failure} (hk : s.lookahead.kind = .known r.separator)
    (h : s.round g r = (.error f, s')) : Rounds g r s 1 (.error f, s')
  | more {s s' : Session} {k : Nat} {res : Except Failure Unit × Session}
    (hk : s.lookahead.kind = .known r.separator) (h : s.round g r = (.ok true, s'))
    (hloop : Rounds g r s' k res) : Rounds g r s (k + 1) res

/-- The symbols that a phrase goes on with when it could end. -/
def Nonterminal.continuations : Nonterminal → List Symbol
  | statementList => [semicolon]
  | argumentList => [comma]
  | term => multiplyingOperators
  | expression => addingOperators ++ multiplyingOperators
  | _ => []

variable {next : Kind} {f : Forest} {n m : Nonterminal} {c : Choice}

lemma Parsed.of_nested {ss : List Symbol}
    (hbody : Grammar.language.body n = [.phrase m, .choice c])
    (hselect : ∀ k, Grammar.language.select c k = taking k ss [.phrase n] (.ok []))
    (h : Parsed n next f) : next ∉ ss.map Kind.known ∧ ∃ f', Parsed m next f' := by
  induction hk : f.size using Nat.strongRecOn generalizing f with
  | ind k ih =>
    rw [Parsed, hbody] at h
    obtain ⟨children, rest, rfl, hc, hrest⟩ := Builds.phrase_iff.1 h
    rcases (builds_optional_iff hselect).1 hrest with ⟨s, -, hs⟩ | ⟨rfl, hnext⟩
    · obtain ⟨t, rest, rfl, -, hrest⟩ := Builds.token_iff.1 hs
      obtain ⟨inner, last, rfl, hinner, hlast⟩ := Builds.phrase_iff.1 hrest
      obtain rfl := Builds.nil_iff.1 hlast
      exact ih inner.size (by simp only [← hk, Forest.size]; omega) hinner rfl
    · exact ⟨hnext, children, hc⟩

theorem Parsed.not_mem_continuations (h : Parsed n next f) :
    next ∉ n.continuations.map Kind.known := by
  have hterm {f : Forest} (h : Parsed term next f) :
      next ∉ multiplyingOperators.map Kind.known := (h.of_nested rfl fun _ => rfl).1
  cases n with
  | statementList => simpa [continuations] using h.ne_semicolon
  | argumentList => simpa [continuations] using h.ne_comma
  | term => exact hterm h
  | expression =>
    obtain ⟨hadding, f', hf'⟩ : next ∉ addingOperators.map Kind.known ∧ ∃ f', Parsed term next f' :=
      h.of_nested rfl fun _ => rfl
    rw [continuations, List.map_append, List.mem_append, not_or]
    exact ⟨hadding, hterm hf'⟩
  | _ => exact List.not_mem_nil

namespace Session

variable {s s' : Session} {r : Repetition} {gs : List Goal}

theorem not_mem_continuations (h : s.parsePhrase Grammar.language n = (.ok (), s')) :
    s'.lookahead.kind ∉ n.continuations.map Kind.known := by
  have houtcome := run_outcome (g := Grammar.language) [.phrase n] s
  rw [parsePhrase] at h
  rw [h] at houtcome
  cases houtcome with
  | reached hc =>
    obtain ⟨f, hf, -⟩ := (Course.reaches_end_iff Grammar.language_plain rfl).1 hc
    obtain ⟨children, rest, rfl, hc, hrest⟩ := Builds.phrase_iff.1 hf
    obtain rfl := Builds.nil_iff.1 hrest
    exact Parsed.not_mem_continuations hc

lemma ne_separator_of_phrase (h : s.parsePhrase Grammar.language r.phrase = (.ok (), s')) :
    s'.lookahead.kind ≠ .known r.separator := by
  have hmem := not_mem_continuations h
  cases r <;> simpa [Repetition.phrase, Repetition.separator, continuations] using hmem

lemma ne_separator_of_round (h : s.round Grammar.language r = (.ok true, s')) :
    s'.lookahead.kind ≠ .known r.separator := by
  unfold round at h
  split at h
  · cases h
  · next s₁ _ =>
    split at h
    · cases h
    · rcases hp : s₁.parsePhrase Grammar.language r.phrase with ⟨f | _, s₂⟩
      · rw [hp] at h
        cases h
      · rw [hp] at h
        cases h
        exact ne_separator_of_phrase hp

end Session

namespace Rounds

variable {g : Grammar} {r : Repetition} {s : Session} {k k' : Nat}
  {res res' : Except Failure Unit × Session}

/-- **A loop begins at most one round.** -/
theorem le_one (h : Rounds Grammar.language r s k res) : k ≤ 1 := by
  cases h with
  | done => exact Nat.zero_le 1
  | closed | failed => exact Nat.le_refl 1
  | more _ hround hloop =>
    cases hloop with
    | done => exact Nat.le_refl 1
    | closed hk | failed hk | more hk => exact absurd hk (ne_separator_of_round hround)

theorem unique (h : Rounds g r s k res) (h' : Rounds g r s k' res') : k' = k ∧ res' = res := by
  induction h generalizing k' res' with
  | done hne =>
    cases h' with
    | done => exact ⟨rfl, rfl⟩
    | closed hk | failed hk | more hk => exact absurd hk hne
  | closed hk h | failed hk h =>
    cases h' with
    | done hne => exact absurd hk hne
    | closed _ h' | failed _ h' | more _ h' => cases h.symm.trans h' <;> exact ⟨rfl, rfl⟩
  | more hk h _ ih =>
    cases h' with
    | done hne => exact absurd hk hne
    | closed _ h' | failed _ h' => cases h.symm.trans h'
    | more _ h' hloop =>
      cases h.symm.trans h'
      obtain ⟨rfl, rfl⟩ := ih hloop
      exact ⟨rfl, rfl⟩

end Rounds

/-! ### The loops of the language -/

namespace Session

/-- What the goals `gs` make of the result of the goals before them. -/
def andThen (g : Grammar) (gs : List Goal) :
    Except Failure Unit × Session → Except Failure Unit × Session
  | (.ok (), s) => run g gs s
  | (.error f, s) => (.error (f.within (Goal.openPhrases gs) s.lookahead.line), s)

lemma run_cons (g : Grammar) (a : Goal) (gs : List Goal) (s : Session) :
    run g (a :: gs) s = andThen g gs (run g [a] s) := by
  rw [← List.singleton_append, run_append]
  rcases run g [a] s with ⟨f | _, s'⟩ <;> rfl

variable {s s' : Session} {r : Repetition} {gs : List Goal}

lemma run_choice_of_ne (h : s.lookahead.kind ≠ .known r.separator) :
    run Grammar.language (.choice r.choice :: gs) s = run Grammar.language gs s := by
  have hselect : Grammar.language.select r.choice s.lookahead.kind = .ok [] := by
    cases r <;> exact taking_eq_ok.2 (.inr ⟨by simpa [Repetition.separator] using h, rfl⟩)
  exact run_choice_ok _ _ _ hselect

/-- The goals of a round behind its separator. -/
def goalsOfRound : Repetition → List Goal
  | .statements => [.choice afterSeparator]
  | .arguments => [.phrase argumentList, .choice moreArguments]

lemma select_separator (hk : s.lookahead.kind = .known r.separator) :
    Grammar.language.select r.choice s.lookahead.kind =
      .ok (.token r.separator :: goalsOfRound r) := by
  rw [hk]
  cases r <;> rfl

lemma run_goalsOfRound : run Grammar.language (goalsOfRound r ++ gs) s =
    if isOneOf s.lookahead.kind r.closers then run Grammar.language gs s
    else run Grammar.language (.phrase r.phrase :: .choice r.choice :: gs) s := by
  cases r with
  | statements =>
    rw [goalsOfRound, List.singleton_append, run_choice_ok _ _ _ rfl]
    change run _ ((if isOneOf s.lookahead.kind listClosers then [] else _) ++ gs) s =
      if isOneOf s.lookahead.kind listClosers then _ else _
    split <;> rfl
  | arguments =>
    have hclosers : isOneOf s.lookahead.kind Repetition.arguments.closers = false :=
      Bool.eq_false_iff.2 fun h => List.not_mem_nil (isOneOf_eq_true.1 h)
    rw [hclosers]
    rfl

lemma run_choice_of_eq (hk : s.lookahead.kind = .known r.separator) :
    run Grammar.language (.choice r.choice :: gs) s = match s.round Grammar.language r with
      | (.ok true, s') => run Grammar.language (.choice r.choice :: gs) s'
      | (.ok false, s') => run Grammar.language gs s'
      | (.error f, s') => (.error (f.within (Goal.openPhrases gs) s'.lookahead.line), s') := by
  rw [run_choice_ok _ _ _ (select_separator hk), List.cons_append, round]
  have hopen : Goal.openPhrases (goalsOfRound r ++ gs) = Goal.openPhrases gs := by cases r <;> rfl
  rcases hacc : s.accept (.known r.separator) with ⟨f | t, s₁⟩
  · rw [run_token_error _ _ _ hacc, hopen]
  · rw [run_token_ok _ _ _ hacc, run_goalsOfRound]
    dsimp only
    split
    · rfl
    · rw [run_cons, parsePhrase]
      rcases run Grammar.language [.phrase r.phrase] s₁ with ⟨f | _, s₂⟩ <;> rfl

theorem run_choice_of_rounds {k : Nat} {res : Except Failure Unit × Session}
    (h : Rounds Grammar.language r s k res) (gs : List Goal) :
    run Grammar.language (.choice r.choice :: gs) s = andThen Grammar.language gs res := by
  induction h with
  | done h => exact run_choice_of_ne h
  | closed hk h | failed hk h =>
    rw [run_choice_of_eq hk, h]
    rfl
  | more hk h _ ih =>
    rw [run_choice_of_eq hk, h]
    exact ih

theorem exists_rounds (r : Repetition) (s : Session) :
    ∃ k res, Rounds Grammar.language r s k res := by
  by_cases hk : s.lookahead.kind = .known r.separator
  · rcases h : s.round Grammar.language r with ⟨f | _ | _, s'⟩
    · exact ⟨1, _, .failed hk h⟩
    · exact ⟨1, _, .closed hk h⟩
    · exact ⟨1, _, .more hk h (.done (ne_separator_of_round h))⟩
  · exact ⟨0, _, .done hk⟩

lemma run_phrase_choice (r : Repetition) (gs : List Goal) (s : Session) :
    run Grammar.language (.phrase r.phrase :: .choice r.choice :: gs) s =
      run Grammar.language (.phrase r.phrase :: gs) s := by
  rw [run_cons, run_cons _ _ gs]
  rcases h : run Grammar.language [.phrase r.phrase] s with ⟨f | _, s'⟩
  · rfl
  · exact run_choice_of_ne (ne_separator_of_phrase h)

end Session

/-! ### A grammar without the loops -/

namespace Grammar

/-- What each choice makes of the kind of the next token where nothing is repeated: behind the
phrase that a separator is followed by, no other separator is looked for. -/
def Language.selectOnce (c : Choice) (k : Kind) : Except Expectation (List Goal) :=
  match c with
  | afterSeparator => .ok (if isOneOf k listClosers then [] else [.phrase statementList])
  | moreArguments => taking k [comma] [.phrase argumentList] (.ok [])
  | c => select c k

lemma Language.lead_selectOnce {c : Choice} {k : Kind} {gs : List Goal}
    (h : selectOnce c k = .ok gs) : Goal.lead phraseRank choiceRank gs < choiceRank c := by
  cases c with
  | afterSeparator =>
    cases h
    split <;> decide
  | moreArguments =>
    rcases of_taking (by decide) h with h | h
    · rw [h]; decide
    · cases h; decide
  | _ => exact lead_select h

def unrepeated : Grammar where
  body := Language.body
  select := Language.selectOnce
  phraseRank := Language.phraseRank
  choiceRank := Language.choiceRank
  lead_body := Grammar.language.lead_body
  lead_select _ _ _ := Language.lead_selectOnce

end Grammar

namespace Session

variable {c : Choice} {gs : List Goal} {s : Session}

lemma run_select_once {new : List Goal}
    (h : Grammar.unrepeated.select c s.lookahead.kind = .ok new) :
    run Grammar.language (.choice c :: gs) s = run Grammar.language (new ++ gs) s := by
  change selectOnce c s.lookahead.kind = .ok new at h
  cases c with
  | afterSeparator =>
    cases h
    refine (run_goalsOfRound (r := .statements)).trans ?_
    rw [run_phrase_choice]
    change (if isOneOf s.lookahead.kind listClosers then _ else _) = _
    split <;> rfl
  | moreArguments =>
    rcases taking_eq_ok.1 h with ⟨x, hx, hk, rfl⟩ | ⟨hk, ho⟩
    · obtain rfl := List.mem_singleton.1 hx
      have hselect : Grammar.language.select moreArguments s.lookahead.kind =
          .ok (.token comma :: goalsOfRound .arguments) := select_separator (r := .arguments) hk
      change _ = run Grammar.language (.token comma :: .phrase argumentList :: gs) s
      rw [run_choice_ok _ _ _ hselect, List.cons_append, run_cons,
        run_cons _ _ (.phrase argumentList :: gs)]
      rcases run Grammar.language [.token comma] s with ⟨f | _, s'⟩
      · rfl
      · exact run_phrase_choice .arguments gs s'
    · cases ho
      exact run_choice_of_ne (r := .arguments) fun hcomma => hk (hcomma ▸ List.mem_singleton_self _)
  | _ => exact run_choice_ok _ _ _ h

lemma select_of_once {k : Kind} {e : Expectation}
    (h : Grammar.unrepeated.select c k = .error e) : Grammar.language.select c k = .error e := by
  change selectOnce c k = .error e at h
  cases c with
  | afterSeparator => cases h
  | moreArguments => cases taking_eq_error h
  | _ => exact h

/-- **Without the loops, every run is the same.** -/
theorem run_unrepeated (gs : List Goal) (s : Session) :
    run Grammar.unrepeated gs s = run Grammar.language gs s := by
  fun_induction run Grammar.unrepeated gs s with
  | case1 s => rw [run_nil]
  | case2 s x gs t s' h _ ih => rw [run_token_ok _ _ _ h, ih]
  | case3 s x gs f s' h => rw [run_token_error _ _ _ h]
  | case4 s n gs _ ih => rw [run_phrase]; exact ih
  | case5 s n gs ih => rw [run_leave, ih]
  | case6 s c gs new h _ ih => rw [run_select_once h, ih]
  | case7 s c gs e h f s' hr => rw [run_choice_error _ _ _ (select_of_once h), hr]

theorem perform_unrepeated (s : Session) (c : Call) :
    s.perform Grammar.unrepeated c = s.perform Grammar.language c := by
  have hclaim (gs : List Goal) : s.claim Grammar.unrepeated gs = s.claim Grammar.language gs := by
    rw [claim, claim, run_unrepeated]
  cases c with
  | program => rw [perform, perform, parseProgram, parseProgram, hclaim]
  | statementPart => rw [perform, perform, parseStatementPart, parseStatementPart, hclaim]
  | accept k => rfl
  | phrase n => rw [perform, perform, parsePhrase, parsePhrase, run_unrepeated]

lemma performAll_unrepeated (s : Session) (calls : List Call) :
    performAll Grammar.unrepeated s calls = performAll Grammar.language s calls := by
  induction calls generalizing s with
  | nil => rfl
  | cons c calls ih => rw [performAll_cons, performAll_cons, perform_unrepeated, ih]

end Session

/-- **Repetitions go round at most once.** Wherever a run comes to a loop, the loop begins at most
one round, and the run goes on with what its rounds come to. So whatever a session has been asked
for, the grammar without the loops answers every call with the same result and leaves the same
session, with the same trace, lines and log. And a phrase that is derived has taken all that it
could go on with. -/
theorem repetitions_go_round_once (s : Session) :
    (∀ r : Repetition, ∃ k res, Rounds Grammar.language r s k res ∧ k ≤ 1 ∧
      (∀ k' res', Rounds Grammar.language r s k' res' → k' = k ∧ res' = res) ∧
      ∀ gs, run Grammar.language (.choice r.choice :: gs) s = andThen Grammar.language gs res) ∧
    (∀ calls c, (performAll Grammar.unrepeated s calls).perform Grammar.unrepeated c =
      (performAll Grammar.language s calls).perform Grammar.language c) ∧
    ∀ n s', s.parsePhrase Grammar.language n = (.ok (), s') →
      s'.lookahead.kind ∉ n.continuations.map Kind.known := by
  refine ⟨fun r => ?_, fun calls c => ?_, fun n s' h => not_mem_continuations h⟩
  · obtain ⟨k, res, h⟩ := exists_rounds r s
    exact ⟨k, res, h, h.le_one, fun k' res' h' => h.unique h', run_choice_of_rounds h⟩
  · rw [performAll_unrepeated, perform_unrepeated]

/-- Two arguments, the second in a list of its own, and the symbol that ends them. -/
def twoArguments : List Token :=
  [.identifier, .comma, .identifier, .rightParen].map fun s => ⟨.known s, "", 1, 0⟩

theorem repetitions_go_round_once_twoArguments :
    ∃ s', (fresh twoArguments ⟨"", .silent⟩).parsePhrase Grammar.language argumentList =
        (.ok (), s') ∧
      s'.lookahead.kind ∉ argumentList.continuations.map Kind.known := by
  have hahead : (fresh twoArguments ⟨"", .silent⟩).HasAhead
      (twoArguments.take 3 ++ [⟨.known rightParen, "", 1, 0⟩]) :=
    (faces_fresh twoArguments _).hasAhead
  have hlongest : Longest argumentList ((twoArguments.take 3).map Token.kind)
      (.known rightParen) := longest_iff_course.2
    ⟨_, .phrase (.token rfl (.choice rfl (.token rfl (.phrase (.token rfl
      (.choice rfl (.leave (.choice rfl (.leave (.refl _))))))))))⟩
  obtain ⟨s', hs', -⟩ := exists_accepts hahead hlongest
  exact ⟨s', hs', (repetitions_go_round_once _).2.2 _ _ hs'⟩

end StatementLang
