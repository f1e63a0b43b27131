import StatementLang.Proofs.Programs
import StatementLang.Proofs.Verdict

/-!
What a fresh session makes of a list of tokens.

A statement part is derived just if some first of the tokens spell one, which no other first of
them then do; a whole program, if the end of the text comes next. Every other list is an error in
the form of the program.
-/

namespace StatementLang

open StatementLang.Nonterminal TokenQueue Session

variable {ts : List Token} {j k : Nat}

theorem spellStatementPart_unique (hj : SpellStatementPart (firstOf ts j))
    (hk : SpellStatementPart (firstOf ts k)) : j = k := by
  obtain ⟨es, hes⟩ := exists_course_statementPart_iff.2 hj
  obtain ⟨fs, hfs⟩ := exists_course_statementPart_iff.2 hk
  exact (course_unique hes .reached hfs .reached).1

lemma parseStatementPart_of_spell (sink : Sink) (h : SpellStatementPart (firstOf ts k)) :
    ∃ s' es, (fresh ts sink).parseStatementPart Grammar.language = (.ok (), s') ∧
      s'.lookahead = padded ts k ∧ Trace.terminals es = firstOf ts k ∧
      ∀ tr, sink.trace? = some tr → s'.sink.trace? = some (tr.recordAll es) := by
  obtain ⟨es, hc⟩ := exists_course_statementPart_iff.2 h
  obtain ⟨s', hr, ha, hl⟩ := (faces_fresh ts sink).claimed.run_of_course hc
  exact ⟨s', es, hr, hl, hc.terminals_eq, fun tr htr => ha.trace? htr⟩

lemma parseStatementPart_of_not_spell (sink : Sink) (h : ∀ k, ¬ SpellStatementPart (firstOf ts k)) :
    ∃ e s', (fresh ts sink).parseStatementPart Grammar.language = (.error (.grammar e), s') := by
  have hn : ¬ ∃ k es, Course Grammar.language (padded ts k).kind [.phrase statementPart]
      (firstOf ts k) es [] := fun ⟨k, es, hc⟩ => h k (exists_course_statementPart_iff.1 ⟨es, hc⟩)
  obtain ⟨-, -, gs', s', e, hr, -⟩ := (faces_fresh ts sink).claimed.run_of_not_course hn
  exact ⟨_, _, hr⟩

variable {sink : Sink}

lemma parseStatementPart_ok_iff :
    ((fresh ts sink).parseStatementPart Grammar.language).1 = .ok () ↔
      ∃ k, SpellStatementPart (firstOf ts k) := by
  by_cases h : ∃ k, SpellStatementPart (firstOf ts k)
  · obtain ⟨k, hk⟩ := h
    obtain ⟨s', es, hr, -⟩ := parseStatementPart_of_spell sink hk
    rw [hr]
    exact iff_of_true rfl ⟨k, hk⟩
  · obtain ⟨e, s', hr⟩ := parseStatementPart_of_not_spell sink (not_exists.1 h)
    rw [hr]
    exact iff_of_false nofun h

lemma parseStatementPart_error
    (h : ((fresh ts sink).parseStatementPart Grammar.language).1 ≠ .ok ()) :
    ∃ e, ((fresh ts sink).parseStatementPart Grammar.language).1 = .error (.grammar e) := by
  rw [Ne, parseStatementPart_ok_iff, not_exists] at h
  obtain ⟨e, s', hr⟩ := parseStatementPart_of_not_spell sink h
  exact ⟨e, by rw [hr]⟩

lemma exists_course_program {m : Nat} {es : List Event}
    (h : Course Grammar.language (padded ts m).kind programGoals (firstOf ts m) es []) :
    ∃ k, m = k + 1 ∧ SpellStatementPart (firstOf ts k) ∧ (padded ts k).IsEnd := by
  obtain ⟨f, t, -, -, ht, -⟩ := course_program_iff.1 h
  obtain ⟨k, rfl⟩ : ∃ k, m = k + 1 := by
    have := congrArg List.length ht
    simp only [length_firstOf, List.length_append, List.length_singleton] at this
    exact ⟨_, this⟩
  rw [firstOf_succ] at h
  exact ⟨k, rfl, exists_course_program_iff.1 ⟨es, h⟩⟩

lemma exists_course_of_spell (h : SpellStatementPart (firstOf ts k)) (hk : (padded ts k).IsEnd) :
    ∃ es, Course Grammar.language (padded ts (k + 1)).kind programGoals
      (firstOf ts (k + 1)) es [] := by
  rw [firstOf_succ]
  exact exists_course_program_iff.2 ⟨h, hk⟩

lemma claim_eq_run {g : Grammar} {gs : List Goal} {s : Session} (hs : s.used = false) :
    s.claim g gs = run g gs s.claimed := by
  rw [claim, if_neg (by simp [hs])]
  rfl

lemma parseProgram_of_ok {g : Grammar} {s s' : Session} (hs : s.used = false)
    (h : run g programGoals s.claimed = (.ok (), s')) :
    s.parseProgram g =
      (.ok (), { s' with sink := s'.sink.succeed }.note (.success s'.sink.label)) := by
  rw [parseProgram, claim_eq_run hs, h]

lemma parseProgram_of_error {g : Grammar} {s s' : Session} {f : Failure} (hs : s.used = false)
    (h : run g programGoals s.claimed = (.error f, s')) :
    s.parseProgram g = (.error f, s') := by
  rw [parseProgram, claim_eq_run hs, h]

lemma parseProgram_of_course (sink : Sink) {m : Nat} {es : List Event}
    (hc : Course Grammar.language (padded ts m).kind programGoals (firstOf ts m) es []) :
    ∃ s', (fresh ts sink).parseProgram Grammar.language = (.ok (), s') ∧
      ∀ tr, sink.trace? = some tr → s'.sink.trace? = some (tr.recordAll es).succeed := by
  obtain ⟨s', hr, ha, -⟩ := (faces_fresh ts sink).claimed.run_of_course hc
  refine ⟨_, parseProgram_of_ok rfl hr, fun tr htr => ?_⟩
  exact (Sink.trace?_succeed _).trans (congrArg (Option.map _) (ha.trace? htr))

lemma parseProgram_of_spell (sink : Sink) (h : SpellStatementPart (firstOf ts k))
    (hk : (padded ts k).IsEnd) :
    ∃ s', (fresh ts sink).parseProgram Grammar.language = (.ok (), s') ∧
      ∀ tr, sink.trace? = some tr → ∃ tr', s'.sink.trace? = some tr' ∧ tr'.succeeded = true := by
  obtain ⟨es, hc⟩ := exists_course_of_spell h hk
  obtain ⟨s', hr, htrace⟩ := parseProgram_of_course sink hc
  exact ⟨s', hr, fun tr htr => ⟨_, htrace tr htr, rfl⟩⟩

lemma parseProgram_of_not_spell (sink : Sink)
    (h : ∀ k, SpellStatementPart (firstOf ts k) → ¬ (padded ts k).IsEnd) :
    ∃ e s', (fresh ts sink).parseProgram Grammar.language = (.error (.grammar e), s') ∧
      ∀ tr, sink.trace? = some tr →
        ∃ tr', s'.sink.trace? = some tr' ∧ tr'.succeeded = tr.succeeded := by
  have hn : ¬ ∃ m es, Course Grammar.language (padded ts m).kind programGoals
      (firstOf ts m) es [] := by
    rintro ⟨m, es, hc⟩
    obtain ⟨k, rfl, hk, hend⟩ := exists_course_program hc
    exact h k hk hend
  obtain ⟨m, es, gs', s', e, hr, -, ha, -⟩ := (faces_fresh ts sink).claimed.run_of_not_course hn
  refine ⟨_, _, parseProgram_of_error rfl hr, fun tr htr => ⟨tr.recordAll es, ha.trace? htr, ?_⟩⟩
  exact Trace.succeeded_recordAll tr es

lemma parseProgram_ok_iff :
    ((fresh ts sink).parseProgram Grammar.language).1 = .ok () ↔
      ∃ k, SpellStatementPart (firstOf ts k) ∧ (padded ts k).IsEnd := by
  by_cases h : ∃ k, SpellStatementPart (firstOf ts k) ∧ (padded ts k).IsEnd
  · obtain ⟨k, hk, hend⟩ := h
    obtain ⟨s', hr, -⟩ := parseProgram_of_spell sink hk hend
    rw [hr]
    exact iff_of_true rfl ⟨k, hk, hend⟩
  · obtain ⟨e, s', hr, -⟩ := parseProgram_of_not_spell sink
      fun k hk hend => h ⟨k, hk, hend⟩
    rw [hr]
    exact iff_of_false nofun h

lemma parseProgram_error (h : ((fresh ts sink).parseProgram Grammar.language).1 ≠ .ok ()) :
    ∃ e, ((fresh ts sink).parseProgram Grammar.language).1 = .error (.grammar e) := by
  rw [Ne, parseProgram_ok_iff] at h
  obtain ⟨e, s', hr, -⟩ := parseProgram_of_not_spell sink
    fun k hk hend => h ⟨k, hk, hend⟩
  exact ⟨e, by rw [hr]⟩

lemma parseProgram_succeeded_iff {tr : Trace} (htr : sink.trace? = some tr) :
    ∃ tr', ((fresh ts sink).parseProgram Grammar.language).2.sink.trace? = some tr' ∧
      (tr'.succeeded = true ↔ tr.succeeded = true ∨
        ((fresh ts sink).parseProgram Grammar.language).1 = .ok ()) := by
  by_cases h : ∃ k, SpellStatementPart (firstOf ts k) ∧ (padded ts k).IsEnd
  · obtain ⟨k, hk, hend⟩ := h
    obtain ⟨s', hr, hs⟩ := parseProgram_of_spell sink hk hend
    obtain ⟨tr', htr', hsucc⟩ := hs tr htr
    rw [hr]
    exact ⟨tr', htr', iff_of_true hsucc (.inr rfl)⟩
  · obtain ⟨e, s', hr, hs⟩ := parseProgram_of_not_spell sink
      fun k hk hend => h ⟨k, hk, hend⟩
    obtain ⟨tr', htr', hsucc⟩ := hs tr htr
    rw [hr]
    exact ⟨tr', htr', by simp [hsucc]⟩

/-! ### What a rejected program tells -/

lemma parseProgram_cases (ts : List Token) (sink : Sink) :
    (∃ k es s', Course Grammar.language (padded ts k).kind programGoals (firstOf ts k) es [] ∧
      (fresh ts sink).claimed.Advances (firstOf ts k) es s' ∧
      (fresh ts sink).parseProgram Grammar.language =
        (.ok (), { s' with sink := s'.sink.succeed }.note (.success s'.sink.label))) ∨
    ∃ k es gs x s', Course Grammar.language (padded ts k).kind programGoals (firstOf ts k) es gs ∧
      (fresh ts sink).claimed.Advances (firstOf ts k) es s' ∧
      Grammar.language.Rejects (padded ts k).kind gs x ∧
      (fresh ts sink).parseProgram Grammar.language =
        (.error (.grammar (s'.rejection gs x)), (s'.reject x.text).2) := by
  have hv : Verdict Grammar.language ts programGoals (fresh ts sink).claimed
      (run Grammar.language programGoals (fresh ts sink).claimed) :=
    (faces_fresh ts sink).claimed.run_verdict
  obtain ⟨r, hr⟩ : ∃ r, run Grammar.language programGoals (fresh ts sink).claimed = r := ⟨_, rfl⟩
  rw [hr] at hv
  cases hv with
  | @reached k es s' hc ha => exact .inl ⟨k, es, s', hc, ha, parseProgram_of_ok rfl hr⟩
  | @rejected k es gs s' x hc ha hreject =>
    exact .inr ⟨k, es, gs, x, s', hc, ha, hreject, parseProgram_of_error rfl hr⟩

lemma exists_rejects {e : GrammarError} {s' : Session}
    (h : (fresh ts sink).parseProgram Grammar.language = (.error (.grammar e), s')) :
    ∃ k es gs x, Course Grammar.language (padded ts k).kind programGoals (firstOf ts k) es gs ∧
      Grammar.language.Rejects (padded ts k).kind gs x ∧ e.root.token = some (padded ts k) ∧
      e.root.expected = some x.text ∧
      e.nonterminals = (Goal.openPhrases gs).reverse.map Nonterminal.name ∧
      ∀ tr, sink.trace? = some tr → s'.sink.trace? = some (tr.recordAll es) := by
  obtain ⟨k, es, s₁, hc, ha, hr⟩ | ⟨k, es, gs, x, s₁, hc, ha, hreject, hr⟩ :=
    parseProgram_cases ts sink
  · rw [hr] at h
    cases h
  · rw [hr] at h
    cases h
    have hahead : s₁.lookahead = padded ts k := by
      simpa using (faces_fresh ts sink).claimed.lookahead ha
    refine ⟨k, es, gs, x, hc, hreject, ?_, ?_, nonterminals_rejection .., fun tr => ha.trace?⟩
    · rw [root_rejection, ← hahead]
      rfl
    · rw [root_rejection]
      rfl

lemma error_of_rejects (sink : Sink) {es : List Event} {gs : List Goal} {x : Expectation}
    (hc : Course Grammar.language (padded ts k).kind programGoals (firstOf ts k) es gs)
    (hr : Grammar.language.Rejects (padded ts k).kind gs x) :
    ∃ e s', (fresh ts sink).parseProgram Grammar.language = (.error (.grammar e), s') ∧
      e.root.expected = some x.text := by
  obtain ⟨s', hrun, -⟩ := (faces_fresh ts sink).claimed.run_of_rejected hc hr
  exact ⟨_, _, parseProgram_of_error rfl hrun, by rw [root_rejection]; rfl⟩

def assigningString : List Token :=
  [.kwBegin, .identifier, .becomes, .string, .kwEnd].map fun s => ⟨.known s, "", 1, 0⟩

lemma parseProgram_assigningString (sink : Sink) :
    ∃ s', (fresh assigningString sink).parseProgram Grammar.language = (.ok (), s') := by
  have hform : Word statement [.identifier, .becomes, .string] := .form (by decide) .assignString
  have hlist : Word statementList [.identifier, .becomes, .string] :=
    .list (l := []) hform (by simp) (.inl rfl)
  have hspell : SpellStatementPart (firstOf assigningString 5) := ⟨_, .part hlist, rfl⟩
  obtain ⟨s', hs', -⟩ := parseProgram_of_spell sink hspell rfl
  exact ⟨s', hs'⟩

/-- The tokens of a program whose only assignment breaks off after the name. -/
def brokenAssignment : List Token :=
  [.kwBegin, .identifier, .kwEnd].map fun s => ⟨.known s, "", 1, 0⟩

lemma rejects_brokenAssignment :
    ∃ es gs', Course Grammar.language (padded brokenAssignment 2).kind programGoals
        (firstOf brokenAssignment 2) es (.token .becomes :: gs') ∧
      Grammar.language.Rejects (padded brokenAssignment 2).kind (.token .becomes :: gs')
        (.symbol .becomes) :=
  ⟨_, _, .phrase (.token rfl (.phrase (.phrase (.choice rfl (.phrase (.token rfl (.refl _))))))),
    .token (by decide) _⟩

lemma parseProgram_brokenAssignment (sink : Sink) :
    ∃ e s', (fresh brokenAssignment sink).parseProgram Grammar.language =
      (.error (.grammar e), s') := by
  obtain ⟨es, gs', hc, hr⟩ := rejects_brokenAssignment
  obtain ⟨e, s', h, -⟩ := error_of_rejects sink hc hr
  exact ⟨e, s', h⟩

/-! ### The language -/

/-- **The language of a fresh session.** A statement part is derived just if some first of the
tokens spell one; there is only one such beginning, its tokens are the terminals, and the token
after it is ahead. A program is derived just if, besides, the end of the text comes next. What is
not derived is an error in the form of the program. -/
theorem fresh_session_recognizes (ts : List Token) (sink : Sink) :
    ∃ s, start (.ofTokens ts) sink = .ok s ∧
      ((s.parseStatementPart Grammar.language).1 = .ok () ↔
        ∃ k, SpellStatementPart (firstOf ts k)) ∧
      (∀ j k, SpellStatementPart (firstOf ts j) → SpellStatementPart (firstOf ts k) → j = k) ∧
      (∀ k, SpellStatementPart (firstOf ts k) →
        (s.parseStatementPart Grammar.language).2.lookahead = padded ts k ∧
        ∀ tr, sink.trace? = some tr →
          ∃ tr', (s.parseStatementPart Grammar.language).2.sink.trace? = some tr' ∧
            Trace.terminals (tr'.eventsSince tr) = firstOf ts k) ∧
      ((s.parseStatementPart Grammar.language).1 ≠ .ok () →
        ∃ e, (s.parseStatementPart Grammar.language).1 = .error (.grammar e)) ∧
      ((s.parseProgram Grammar.language).1 = .ok () ↔
        ∃ k, SpellStatementPart (firstOf ts k) ∧ (padded ts k).IsEnd) ∧
      ((s.parseProgram Grammar.language).1 ≠ .ok () →
        ∃ e, (s.parseProgram Grammar.language).1 = .error (.grammar e)) ∧
      ∀ tr, sink.trace? = some tr →
        ∃ tr', (s.parseProgram Grammar.language).2.sink.trace? = some tr' ∧
          (tr'.succeeded = true ↔
            tr.succeeded = true ∨ (s.parseProgram Grammar.language).1 = .ok ()) := by
  refine ⟨fresh ts sink, start_ofTokens ts sink, parseStatementPart_ok_iff,
    fun j k => spellStatementPart_unique, fun k hk => ?_, parseStatementPart_error,
    parseProgram_ok_iff, parseProgram_error, fun tr => parseProgram_succeeded_iff⟩
  obtain ⟨s', es, hr, hl, hes, htr⟩ := parseStatementPart_of_spell sink hk
  rw [hr]
  refine ⟨hl, fun tr h => ⟨_, htr tr h, ?_⟩⟩
  rw [Trace.eventsSince_recordAll, hes]

end StatementLang
