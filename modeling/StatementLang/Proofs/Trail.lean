import StatementLang.Proofs.Nesting
import StatementLang.Proofs.Recognition

/-!
What the error of a call tells.

A call that fails in the form of the program has come to goals that reject the token ahead, with
some phrases open. Its error names those phrases, and no other act of the session comes between
the complaint about the token and the last of its layers.
-/

namespace StatementLang

namespace Session

/-- A call on the session `s` has come to rejected goals: what it adds to a trace opens the phrases
that these goals would have left, and its error is theirs. -/
structure Rejected (s : Session) (e : GrammarError) (s' : Session) : Prop where
  exists_goals : ∃ (es : List Event) (gs : List Goal) (x : Expectation),
    (∀ tr, s.sink.trace? = some tr → s'.sink.trace? = some (tr.recordAll es)) ∧
    Event.openAfter [] es = some ((Goal.openPhrases gs).map Nonterminal.name) ∧
    e = s'.rejection gs x
  label_eq : s'.sink.label = s.sink.label

variable {s s' : Session} {e : GrammarError} {gs : List Goal}

lemma rejected_of_run {g : Grammar} (hg : g.Plain) (hgs : Goal.openPhrases gs = [])
    (h : run g gs s = (.error (.grammar e), s')) : Rejected s e s' := by
  have ho := run_outcome (g := g) gs s
  rw [h] at ho
  generalize hr : (Except.error (.grammar e) : Except Failure Unit) = r at ho
  cases ho with
  | reached => cases hr
  | fault => cases hr
  | @rejected us es gs' s₁ x hc ha _ =>
    rw [reject_within] at hr
    cases hr
    have hopen := hc.openAfter hg
    rw [hgs, List.map_nil] at hopen
    exact ⟨⟨es, gs', x, fun tr htr => ha.trace? htr, hopen, rfl⟩, ha.label_eq⟩

lemma accept_foreign {code : String} {hcode : Symbol.ofCode? code = none} :
    (s.accept (.foreign code hcode)).1 ≠ .error (.grammar e) := by
  intro h
  unfold accept at h
  split at h
  · split at h
    · cases h
    · dsimp only at h
      split at h <;> cases h
  · cases h

lemma rejected_of_accept {k : Kind} (h : s.accept k = (.error (.grammar e), s')) :
    Rejected s e s' := by
  cases k with
  | known x =>
    have htaken := accept_taken s x
    rw [h] at htaken
    generalize hr : (Except.error (.grammar e) : Except Failure Token) = r at htaken
    cases htaken with
    | taken => cases hr
    | fault => cases hr
    | rejected =>
      cases hr
      exact ⟨⟨[], [], .symbol x, fun tr htr => htr, rfl, rfl⟩, rfl⟩
  | foreign code hcode => exact absurd (congrArg Prod.fst h) accept_foreign

lemma rejected_of_claim {g : Grammar} (hg : g.Plain) (hgs : Goal.openPhrases gs = [])
    (h : s.claim g gs = (.error (.grammar e), s')) : Rejected s e s' := by
  unfold claim at h
  split at h
  · cases h
  · obtain ⟨hgoals, hlabel⟩ := rejected_of_run hg hgs h
    exact ⟨hgoals, hlabel⟩

lemma rejected_of_parseProgram {g : Grammar} (hg : g.Plain)
    (h : s.parseProgram g = (.error (.grammar e), s')) : Rejected s e s' := by
  unfold parseProgram at h
  split at h
  · cases h
  · exact rejected_of_claim hg rfl h

lemma eq_error_of_map {α β : Type} {f : α → β} {r : Except Failure α × Session} {x : Failure}
    (h : Prod.map (·.map f) id r = (.error x, s')) : r = (.error x, s') := by
  rcases r with ⟨_ | _, _⟩ <;> cases h
  rfl

/-- **Every call that fails in the form of the program** has come to rejected goals. -/
theorem rejected_of_perform {g : Grammar} (hg : g.Plain) {c : Call}
    (h : s.perform g c = (.error (.grammar e), s')) : Rejected s e s' := by
  cases c with
  | program => exact rejected_of_parseProgram hg (eq_error_of_map h)
  | statementPart => exact rejected_of_claim hg rfl (eq_error_of_map h)
  | accept k => exact rejected_of_accept (eq_error_of_map h)
  | phrase n => exact rejected_of_run hg rfl (eq_error_of_map h)

end Session

open Session

/-- **The error trail is the stack of open phrases at one line.** Whatever happened to the session
before and wherever its tokens come from: an error in the form of the program names the phrases
that the call has entered and not left, outermost first; each of them stopped on the line of the
token that is ahead after the failure, and this token is what the root of the error is about. -/
theorem error_trail_is_open_phrases {s s' : Session} {c : Call} {e : GrammarError}
    (h : s.perform Grammar.language c = (.error (.grammar e), s')) :
    (∀ tr, s.sink.trace? = some tr → ∃ tr', s'.sink.trace? = some tr' ∧
      Event.openAfter [] (tr'.eventsSince tr) = some e.nonterminals.reverse) ∧
    e.root.token = some s'.lookahead ∧
    e.chain.dropLast = e.nonterminals.map (fun name =>
      ⟨name ++ " at line " ++ toString s'.lookahead.line, none, none⟩) ∧
    ∃ expected, e.root.expected = some expected ∧
      e.trail = e.nonterminals.map (fun name =>
          name ++ " at line " ++ toString s'.lookahead.line) ++
        [(s.sink.violation s'.lookahead expected).message] := by
  obtain ⟨⟨es, gs, x, htrace, hopen, rfl⟩, hlabel⟩ := rejected_of_perform Grammar.language_plain h
  have hnames := nonterminals_rejection s' gs x
  refine ⟨fun tr htr => ⟨_, htrace tr htr, ?_⟩, ?_, ?_, x.text, ?_, ?_⟩
  · rw [Trace.eventsSince_recordAll, hopen, hnames, List.map_reverse, List.reverse_reverse]
  · rw [root_rejection]
    rfl
  · rw [chain_rejection, List.dropLast_concat, hnames, List.map_map]
    rfl
  · rw [root_rejection]
    rfl
  · rw [GrammarError.trail, chain_rejection, hnames, List.map_append, List.map_map, List.map_map,
      List.map_singleton, Sink.violation_of_label hlabel]
    rfl

theorem error_trail_is_open_phrases_brokenAssignment :
    ∃ e s', (fresh brokenAssignment ⟨"", .trace .empty⟩).perform Grammar.language .program =
        (.error (.grammar e), s') ∧
      e.root.token = some s'.lookahead ∧
      ∃ tr', s'.sink.trace? = some tr' ∧
        Event.openAfter [] (tr'.eventsSince .empty) = some e.nonterminals.reverse := by
  obtain ⟨e, s', hr⟩ := parseProgram_brokenAssignment ⟨"", .trace .empty⟩
  have h : (fresh brokenAssignment ⟨"", .trace .empty⟩).perform Grammar.language .program =
      (.error (.grammar e), s') := by
    rw [perform, hr]
    rfl
  obtain ⟨htrace, htoken, -⟩ := error_trail_is_open_phrases h
  exact ⟨e, s', h, htoken, htrace .empty rfl⟩

end StatementLang
