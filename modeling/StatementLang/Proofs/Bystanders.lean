import StatementLang.Proofs.Accounting
import StatementLang.Proofs.Observation

/-!
Sinks stand by.

Sessions are peers if they differ in the observers of their sinks only. A call comes to the same on
all of them: it has the same result, the same token is ahead afterwards, the same is written to the
log, and the observers are told of the same events (`Session.perform_tells`). So peers stay peers,
and whoever observes a session decides on nothing (`sinks_are_bystanders`).
-/

namespace StatementLang

open Session

/-- The sessions differ in the observers of their sinks only. -/
structure Session.Peers (t s : Session) : Prop where
  abreast : t.Abreast s
  label_eq : t.sink.label = s.sink.label
  used_eq : t.used = s.used
  log_eq : t.log = s.log

lemma Session.Peers.refl (s : Session) : s.Peers s := ⟨.refl s, rfl, rfl, rfl⟩

/-- The goals that a call is for, unless it is for a token of a kind that the language lacks. -/
def Call.goals? : Call → Option (List Goal)
  | program => some programGoals
  | statementPart => some [.phrase .statementPart]
  | accept k => k.symbol?.map fun x => [.token x]
  | phrase n => some [.phrase n]

/-- The call is for something that the language has. -/
def Call.IsNative (c : Call) : Prop := c.goals?.isSome

instance (c : Call) : Decidable c.IsNative := inferInstanceAs (Decidable (_ = true))

lemma Call.openPhrases_goals? {c : Call} {gs : List Goal} (h : c.goals? = some gs) :
    Goal.openPhrases gs = [] := by
  cases c with
  | accept k => cases k <;> cases h; rfl
  | program | statementPart | phrase => cases h; rfl

namespace Session

variable {g : Grammar} {gs : List Goal} {s t : Session} {c : Call}

def called (s : Session) (c : Call) : Session := { s with used := s.used || c.isWhole }

lemma called_of_whole (hc : c.isWhole = true) : s.called c = s.claimed := by
  rw [called, hc, Bool.or_true]
  rfl

lemma called_of_part (hc : c.isWhole = false) : s.called c = s := by
  rw [called, hc, Bool.or_false]

lemma Peers.called (h : t.Peers s) (c : Call) : (t.called c).Peers (s.called c) :=
  ⟨⟨h.abreast.source_eq, h.abreast.lookahead_eq⟩, h.label_eq,
    congrArg (· || c.isWhole) h.used_eq, h.log_eq⟩

/-- The session after a call that has reached its goals. Only the end of a program is a success. -/
def concluded (c : Call) (s : Session) : Session :=
  if c = .program then { s with sink := s.sink.succeed }.note (.success s.sink.label) else s

/-- What a call makes of what its goals come to, where `t` was ahead. -/
def answered (c : Call) (t : Token) :
    Except Failure Unit × Session → Except Failure (Option Token) × Session
  | (.ok (), s) => (.ok (if c matches .accept _ then some t else none), s.concluded c)
  | (.error f, s) => (.error f, s)

lemma fst_answered {r r' : Except Failure Unit × Session} (h : r'.1 = r.1) (c : Call) (u : Token) :
    (answered c u r').1 = (answered c u r).1 := by
  obtain ⟨f | _, s⟩ := r <;> obtain ⟨_, s'⟩ := r' <;> cases h <;> rfl

lemma ok_of_answered {r : Except Failure Unit × Session} {u : Token}
    (h : ∃ x, (answered c u r).1 = .ok x) : r.1 = .ok () := by
  obtain ⟨f | _, s⟩ := r
  · obtain ⟨x, hx⟩ := h
    cases hx
  · rfl

lemma accept_eq_run (g : Grammar) (s : Session) (x : Symbol) :
    s.accept (.known x) = Prod.map (·.map fun _ => s.lookahead) id (run g [.token x] s) := by
  rcases h : s.accept (.known x) with ⟨f | t, s'⟩
  · have hwithin : f.within (Goal.openPhrases []) s'.lookahead.line = f := by cases f <;> rfl
    rw [run_token_error g [] s h, hwithin]
    rfl
  · rw [run_token_ok g [] s h, run_nil, (of_accept h).2.1]
    rfl

theorem perform_eq (hc : c.goals? = some gs) (hs : (s.used && c.isWhole) = false) :
    s.perform g c = answered c s.lookahead (run g gs (s.called c)) := by
  cases c with
  | program =>
    cases hc
    rw [called_of_whole rfl]
    have hused : s.used = false := (Bool.and_true _).symm.trans hs
    rcases h : run g programGoals s.claimed with ⟨f | _, s'⟩
    · rw [perform, parseProgram_of_error hused h]
      rfl
    · rw [perform, parseProgram_of_ok hused h]
      rfl
  | statementPart =>
    cases hc
    rw [called_of_whole rfl]
    have hused : s.used = false := (Bool.and_true _).symm.trans hs
    rw [perform, parseStatementPart, claim_eq_run hused]
    rcases run g [.phrase .statementPart] s.claimed with ⟨f | _, s'⟩ <;> rfl
  | accept k =>
    cases k with
    | known x =>
      cases hc
      rw [called_of_part rfl, perform, accept_eq_run g s x]
      rcases run g [.token x] s with ⟨f | _, s'⟩ <;> rfl
    | foreign => cases hc
  | phrase n =>
    cases hc
    rw [called_of_part rfl, perform, parsePhrase]
    rcases run g [.phrase n] s with ⟨f | _, s'⟩ <;> rfl

/-! ### What a call tells -/

/-- Events of the language that leave the phrases `names` open, and entries for the report. -/
structure Telling (es : List Event) (names : List String) (notes : List Record) : Prop where
  proper : ∀ e ∈ es, e.Proper
  openAfter_eq : Event.openAfter [] es = some names
  report : ∀ r ∈ notes, r.origin = .report

lemma Telling.nothing : Telling [] [] [] :=
  ⟨List.forall_mem_nil _, Event.openAfter_nil _, List.forall_mem_nil _⟩

/-- The entries that a call makes of a result. Only the end of a program is noted. -/
def conclusion (c : Call) (label : String) : Except Failure Unit → List Record
  | .ok () => if c = .program then [.success label] else []
  | .error _ => []

lemma Telling.concluded {es : List Event} {names : List String} {notes : List Record}
    (h : Telling es names notes) (c : Call) (label : String) (r : Except Failure Unit) :
    Telling es names (notes ++ conclusion c label r) := by
  refine ⟨h.proper, h.openAfter_eq, fun x hx => (List.mem_append.1 hx).elim (h.report x) ?_⟩
  unfold conclusion
  split
  · split
    · exact fun hx => List.mem_singleton.1 hx ▸ rfl
    · nofun
  · nofun

/-- The session `s'` is what the events and then the notes make of `s`. Its sink may also have been
told of a success. -/
structure Becomes (s : Session) (es : List Event) (notes : List Record) (s' : Session) : Prop where
  abreast : s'.Abreast (s.replay es)
  sink : s'.sink.Holds (s.sink.tellAll es)
  log_eq : s'.log = s.log ++ (s.records es ++ notes)

namespace Becomes

variable {es : List Event} {notes : List Record} {s' t' : Session}

lemma of_replay (s : Session) (es : List Event) (notes : List Record) :
    s.Becomes es notes ((s.replay es).noteAll notes) where
  abreast := ⟨rfl, rfl⟩
  sink := .inl (sink_replay s es)
  log_eq := by rw [log_noteAll, log_replay, List.append_assoc]

lemma label_eq (h : s.Becomes es notes s') : s'.sink.label = s.sink.label :=
  h.sink.label_eq.trans (Sink.label_tellAll _ es)

lemma peers (ht : t.Becomes es notes t') (hs : s.Becomes es notes s') (h : t.Peers s)
    (hused : t'.used = s'.used) : t'.Peers s' where
  abreast := (ht.abreast.trans (h.abreast.replay es)).trans hs.abreast.symm
  label_eq := by rw [ht.label_eq, hs.label_eq, h.label_eq]
  used_eq := hused
  log_eq := by rw [ht.log_eq, hs.log_eq, h.log_eq, h.abreast.records_eq]

lemma of_called (h : (s.called c).Becomes es notes s') : s.Becomes es notes s' := by
  have habreast : (s.called c).Abreast s := ⟨rfl, rfl⟩
  refine ⟨h.abreast.trans (habreast.replay es), h.sink, ?_⟩
  rw [h.log_eq, habreast.records_eq]
  rfl

lemma concluded (h : s.Becomes es notes s') (c : Call) :
    s.Becomes es (notes ++ conclusion c s.sink.label (.ok ())) (s'.concluded c) := by
  unfold Session.concluded conclusion
  dsimp only
  split
  · refine ⟨⟨h.abreast.source_eq, h.abreast.lookahead_eq⟩, h.sink.succeed, ?_⟩
    have hlog : ({ s' with sink := s'.sink.succeed } : Session).log = s'.log := rfl
    rw [log_note, hlog, h.log_eq, h.label_eq, List.append_assoc, List.append_assoc]
  · rwa [List.append_nil]

lemma answered {r : Except Failure Unit × Session} (h : s.Becomes es notes r.2) (c : Call)
    (u : Token) : s.Becomes es (notes ++ conclusion c s.sink.label r.1) (answered c u r).2 := by
  obtain ⟨f | _, s'⟩ := r
  · exact (List.append_nil notes).symm ▸ h
  · exact h.concluded c

end Becomes

theorem run_tells (hg : g.Plain) (hgs : Goal.openPhrases gs = []) (s : Session) :
    ∃ es names notes, Telling es names notes ∧ ((run g gs s).1 = .ok () → names = []) ∧
      ∀ t : Session, t.Peers s →
        (run g gs t).1 = (run g gs s).1 ∧ t.Becomes es notes (run g gs t).2 := by
  obtain ⟨next, us, es, gs', notes, hc, hend, hnotes, hall⟩ := run_replays g gs s
  have hopen := hc.openAfter hg
  rw [hgs, List.map_nil] at hopen
  refine ⟨es, _, notes, ⟨hc.proper, hopen, hnotes⟩, fun hok => ?_, fun t h => ?_⟩
  · rw [hend hok]
    rfl
  · rw [hall t h.abreast.upcoming_eq h.label_eq]
    exact ⟨rfl, Becomes.of_replay t es notes⟩

/-- **Calls tell all peers the same.** -/
theorem perform_tells (hg : g.Plain) (s : Session) (hc : c.IsNative) :
    ∃ es names notes, Telling es names notes ∧
      ((∃ r, (s.perform g c).1 = .ok r) → names = []) ∧
      ∀ t : Session, t.Peers s →
        (t.perform g c).1 = (s.perform g c).1 ∧ t.Becomes es notes (t.perform g c).2 := by
  obtain ⟨gs, hgs⟩ := Option.isSome_iff_exists.1 hc
  by_cases hs : (s.used && c.isWhole) = true
  · -- a call that is refused tells of nothing
    obtain ⟨hused, hwhole⟩ := Bool.and_eq_true_iff.1 hs
    refine ⟨[], [], [], .nothing, fun _ => rfl, fun t h => ?_⟩
    rw [perform_of_used hused hwhole, perform_of_used (h.used_eq.trans hused) hwhole]
    exact ⟨rfl, Becomes.of_replay t [] []⟩
  have hs' : (s.used && c.isWhole) = false := Bool.eq_false_iff.2 hs
  obtain ⟨es, names, notes, htelling, hend, hall⟩ :=
    run_tells hg (Call.openPhrases_goals? hgs) (s.called c)
  have heq (t : Session) (h : t.Peers s) :
      t.perform g c = answered c s.lookahead (run g gs (t.called c)) := by
    rw [perform_eq hgs (by rw [h.used_eq, hs']), h.abreast.lookahead_eq]
  rw [heq s (.refl s)]
  refine ⟨es, names, notes ++ conclusion c s.sink.label (run g gs (s.called c)).1,
    htelling.concluded c _ _, fun h => hend (ok_of_answered h), fun t h => ?_⟩
  obtain ⟨hrun, hbecomes⟩ := hall _ (h.called c)
  rw [heq t h, ← h.label_eq]
  refine ⟨fst_answered hrun c _, ?_⟩
  rw [← hrun]
  exact hbecomes.of_called.answered c _

theorem Peers.perform (hg : g.Plain) (h : t.Peers s) (hc : c.IsNative) :
    (t.perform g c).1 = (s.perform g c).1 ∧ (t.perform g c).2.Peers (s.perform g c).2 := by
  obtain ⟨es, names, notes, -, -, hall⟩ := perform_tells hg s hc
  obtain ⟨hresult, ht⟩ := hall t h
  obtain ⟨-, hs⟩ := hall s (.refl s)
  exact ⟨hresult, ht.peers hs h (by rw [used_perform, used_perform, h.used_eq])⟩

lemma perform_ne_unknownKind (s : Session) (hc : c.IsNative) (u : UnknownKind) :
    (s.perform g c).1 ≠ .error (.unknownKind u) := by
  obtain ⟨gs, hgs⟩ := Option.isSome_iff_exists.1 hc
  by_cases hs : (s.used && c.isWhole) = true
  · obtain ⟨hused, hwhole⟩ := Bool.and_eq_true_iff.1 hs
    rw [perform_of_used hused hwhole]
    nofun
  · rw [perform_eq hgs (Bool.eq_false_iff.2 hs)]
    have ho := run_outcome (g := g) gs (s.called c)
    generalize run g gs (s.called c) = r at ho ⊢
    cases ho <;> nofun

/-! ### Outcomes -/

/-- What calls come to, one after the other: the result of each, and the token ahead after it. -/
def outcomes (g : Grammar) (s : Session) : List Call → List (Except Failure (Option Token) × Token)
  | [] => []
  | c :: calls =>
    ((s.perform g c).1, (s.perform g c).2.lookahead) :: outcomes g (s.perform g c).2 calls

theorem Peers.outcomes_eq (hg : g.Plain) (h : t.Peers s) {calls : List Call}
    (hcalls : ∀ c ∈ calls, c.IsNative) : t.outcomes g calls = s.outcomes g calls := by
  induction calls generalizing s t with
  | nil => rfl
  | cons c calls ih =>
    obtain ⟨hc, hcalls⟩ := List.forall_mem_cons.1 hcalls
    obtain ⟨hresult, hpeers⟩ := h.perform hg hc
    rw [outcomes, outcomes, hresult, hpeers.abreast.lookahead_eq, ih hpeers hcalls]

lemma ne_unknownKind_of_mem_outcomes {calls : List Call} (hcalls : ∀ c ∈ calls, c.IsNative)
    {r : Except Failure (Option Token) × Token} (hr : r ∈ s.outcomes g calls) (u : UnknownKind) :
    r.1 ≠ .error (.unknownKind u) := by
  induction calls generalizing s with
  | nil => cases hr
  | cons c calls ih =>
    obtain ⟨hc, hcalls⟩ := List.forall_mem_cons.1 hcalls
    rcases List.mem_cons.1 hr with rfl | hr
    · exact perform_ne_unknownKind s hc u
    · exact ih hcalls hr

/-- What calls come to on a source and a sink, from the token that is ahead at first. -/
def outcomesOn (source : TokenSource) (sink : Sink) (calls : List Call) :
    Except LexError (Token × List (Except Failure (Option Token) × Token)) :=
  (start source sink).map fun s => (s.lookahead, s.outcomes .language calls)

lemma start_error {source : TokenSource} {sink : Sink} {e : LexError}
    (h : start source sink = .error e) (sink' : Sink) : start source sink' = .error e := by
  rcases hn : source.next with ⟨e' | u, source'⟩ <;> rw [start, hn] at h
  · rw [start, hn]
    exact h
  · cases h

lemma exists_peer {source : TokenSource} {label : String} {o : Observer}
    (h : start source ⟨label, o⟩ = .ok s) (o' : Observer) :
    ∃ t, start source ⟨label, o'⟩ = .ok t ∧ t.Peers s := by
  rcases hn : source.next with ⟨e' | u, source'⟩ <;> rw [start, hn] at h
  · cases h
  · cases h
    exact ⟨⟨source', u, ⟨label, o'⟩, false, []⟩, by rw [start, hn], ⟨rfl, rfl⟩, rfl, rfl, rfl⟩

lemma outcomesOn_eq (source : TokenSource) {calls : List Call}
    (hcalls : ∀ c ∈ calls, c.IsNative) (label : String) (o o' : Observer) :
    outcomesOn source ⟨label, o⟩ calls = outcomesOn source ⟨label, o'⟩ calls := by
  rcases hs : start source ⟨label, o'⟩ with e | s
  · rw [outcomesOn, outcomesOn, hs, start_error hs]
  · obtain ⟨t, ht, h⟩ := exists_peer hs o
    rw [outcomesOn, outcomesOn, ht, hs, Except.map, Except.map, h.abreast.lookahead_eq,
      h.outcomes_eq Grammar.language_plain hcalls]

end Session

/-- **Sinks are bystanders.** Whatever is asked of a session, over tokens of any kinds or over any
text, and whoever observes it: every call has the same result, and leaves the same token ahead. A
session without a sink of its own goes like those under the default label. No call fails for want of
the name of a kind. -/
theorem sinks_are_bystanders (source : TokenSource) {calls : List Call}
    (hcalls : ∀ c ∈ calls, c.IsNative) (label : String) (o o' : Observer) :
    outcomesOn source ⟨label, o⟩ calls = outcomesOn source ⟨label, o'⟩ calls ∧
    outcomesOn source ⟨Sink.defaultLabel, .silent⟩ calls =
      outcomesOn source ⟨"<string>", o⟩ calls ∧
    ∀ first outcomes, outcomesOn source ⟨label, o⟩ calls = .ok (first, outcomes) →
      ∀ r ∈ outcomes, ∀ u, r.1 ≠ .error (.unknownKind u) := by
  refine ⟨outcomesOn_eq source hcalls label o o', outcomesOn_eq source hcalls _ _ o,
    fun first outcomes houtcomes r hr u => ?_⟩
  rcases hs : start source ⟨label, o⟩ with e | s
  · rw [outcomesOn, hs] at houtcomes
    cases houtcomes
  · rw [outcomesOn, hs] at houtcomes
    cases houtcomes
    exact ne_unknownKind_of_mem_outcomes hcalls hr u

/-- A token of a kind that the language lacks, where a statement is expected. -/
def strangeStatement : List Token :=
  [⟨.known .kwBegin, "begin", 1, 1⟩, ⟨.ofCode "QUERY", "?", 1, 7⟩, ⟨.known .kwEnd, "end", 2, 1⟩]

theorem sinks_are_bystanders_strangeStatement :
    let calls : List Call := [.program, .accept (.known .identifier), .phrase .factor]
    (∀ c ∈ calls, c.IsNative) ∧
      outcomesOn (.ofTokens strangeStatement) ⟨"", .printer (.ofIndent (-2))⟩ calls =
        outcomesOn (.ofTokens strangeStatement) ⟨"", .trace .empty⟩ calls := by
  have hcalls : ∀ c ∈ [Call.program, .accept (.known .identifier), .phrase .factor],
      c.IsNative := by decide
  exact ⟨hcalls, (sinks_are_bystanders (.ofTokens strangeStatement) hcalls "" _ _).1⟩

end StatementLang
