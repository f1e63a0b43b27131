import StatementLang.Proofs.Recognition
import StatementLang.Proofs.Traversal

/-!
Every token is accounted for.

A session over a list of tokens can be asked for anything, again and again, also after a call that
has failed half-way. The tokens that its trace tells of are always the first of the list, each of
them once; the one that it looks at is the next; and no more have been asked for
(`tokens_are_accounted_for`). Only the first call for a whole derivation is answered.
-/

namespace StatementLang

open TokenQueue Session

namespace Call

/-- The goals of a call for a whole derivation, which claims the session. -/
def wholeGoals : Call → Option (List Goal)
  | program => some programGoals
  | statementPart => some [.phrase .statementPart]
  | accept _ | phrase _ => none

def isWhole (c : Call) : Bool := c.wholeGoals.isSome

end Call

namespace Session

variable {g : Grammar} {s s' : Session} {gs : List Goal} {c : Call}

/-- The session after some calls, whatever they come to. -/
def performAll (g : Grammar) (s : Session) (calls : List Call) : Session :=
  calls.foldl (fun s c => (s.perform g c).2) s

@[simp] lemma performAll_nil : performAll g s [] = s := rfl

@[simp] lemma performAll_cons (calls : List Call) :
    performAll g s (c :: calls) = performAll g (s.perform g c).2 calls := rfl

/-! ### Whole derivations -/

lemma perform_of_used (hs : s.used = true) (hc : c.isWhole = true) :
    s.perform g c = (.error .alreadyUsed, s) := by
  have hclaim (gs : List Goal) : s.claim g gs = (.error .alreadyUsed, s) := by
    rw [claim, if_pos hs]
  cases c with
  | program =>
    rw [perform, parseProgram, hclaim]
    rfl
  | statementPart =>
    rw [perform, parseStatementPart, hclaim]
    rfl
  | accept | phrase => cases hc

/-- The sessions are alike but for the log and a note of success. -/
structure Resembles (s' s : Session) : Prop where
  source_eq : s'.source = s.source
  lookahead_eq : s'.lookahead = s.lookahead
  used_eq : s'.used = s.used
  trace : ∀ tr, s.sink.trace? = some tr →
    ∃ tr', s'.sink.trace? = some tr' ∧ tr'.events = tr.events

lemma Resembles.refl (s : Session) : Resembles s s :=
  ⟨rfl, rfl, rfl, fun tr htr => ⟨tr, htr, rfl⟩⟩

lemma resembles_succeed (s : Session) :
    Resembles ({ s with sink := s.sink.succeed }.note (.success s.sink.label)) s :=
  ⟨rfl, rfl, rfl, fun tr htr =>
    ⟨tr.succeed, (Sink.trace?_succeed _).trans (congrArg (Option.map _) htr), rfl⟩⟩

lemma perform_whole (hs : s.used = false) (hc : c.wholeGoals = some gs) :
    (s.perform g c).1 = (run g gs s.claimed).1.map (fun _ => none) ∧
      Resembles (s.perform g c).2 (run g gs s.claimed).2 := by
  cases c with
  | program =>
    cases hc
    rcases h : run g programGoals s.claimed with ⟨f | _, s'⟩
    · rw [perform, parseProgram_of_error hs h]
      exact ⟨rfl, .refl s'⟩
    · rw [perform, parseProgram_of_ok hs h]
      exact ⟨rfl, resembles_succeed s'⟩
  | statementPart =>
    cases hc
    rw [perform, parseStatementPart, claim_eq_run hs]
    exact ⟨rfl, .refl _⟩
  | accept | phrase => cases hc

lemma used_accept (s : Session) (k : Kind) : (s.accept k).2.used = s.used := by
  unfold accept
  split
  · split
    · rfl
    · dsimp only
      split <;> rfl
  · split <;> rfl

lemma used_run (gs : List Goal) (s : Session) : (run g gs s).2.used = s.used := by
  obtain ⟨us, es, h⟩ := run_traverses (g := g) gs s
  exact h.used_eq

lemma used_perform (s : Session) (c : Call) :
    (s.perform g c).2.used = (s.used || c.isWhole) := by
  rcases hc : c.wholeGoals with _ | gs
  · have hwhole : c.isWhole = false := by rw [Call.isWhole, hc]; rfl
    rw [hwhole, Bool.or_false]
    cases c with
    | program | statementPart => cases hc
    | accept k => exact used_accept s k
    | phrase n => exact used_run [.phrase n] s
  · have hwhole : c.isWhole = true := by rw [Call.isWhole, hc]; rfl
    rw [hwhole, Bool.or_true]
    by_cases hs : s.used = true
    · rwa [perform_of_used hs hwhole]
    · have hclaimed : (run g gs s.claimed).2.used = true := used_run gs s.claimed
      exact (perform_whole (Bool.eq_false_iff.2 hs) hc).2.used_eq.trans hclaimed

lemma used_performAll (s : Session) (calls : List Call) :
    (performAll g s calls).used = (s.used || calls.any Call.isWhole) := by
  induction calls generalizing s with
  | nil => simp
  | cons c calls ih => rw [performAll_cons, ih, used_perform, List.any_cons, Bool.or_assoc]

lemma run_ne_alreadyUsed (gs : List Goal) (s : Session) :
    (run g gs s).1 ≠ .error .alreadyUsed := by
  have ho := run_outcome (g := g) gs s
  generalize run g gs s = r at ho ⊢
  cases ho <;> nofun

lemma exists_events_of_phrase (n : Nonterminal) (gs : List Goal) {tr : Trace}
    (htr : s.sink.trace? = some tr) :
    ∃ es, (run g (.phrase n :: gs) s).2.sink.trace? =
      some (tr.recordAll (.ofEnter n.name :: es)) := by
  obtain ⟨us, es, h⟩ := run_traverses (g := g) (g.body n ++ .leave n :: gs) (s.enter n)
  obtain ⟨next, gs', hc⟩ := h.course
  refine ⟨es, ?_⟩
  rw [run_phrase, h.sink_eq, hc.trace?_tellAll ((Advances.enter s n).trace? htr)]
  rfl

end Session

/-! ### Accounts -/

/-- The session has taken the first `n` of the tokens and looks at the next one. Its trace tells of
these tokens, and no more than these and the next one have been asked for. -/
structure Session.Accounts (ts : List Token) (n : Nat) (s : Session) : Prop where
  source_eq : s.source = (TokenSource.ofTokens ts).after (n + 1)
  lookahead_eq : s.lookahead = padded ts n
  told : ∃ tr, s.sink.trace? = some tr ∧ Trace.terminals tr.events = firstOf ts n

namespace Session.Accounts

variable {g : Grammar} {s s' : Session} {ts us : List Token} {es : List Event} {n : Nat}

lemma answer (h : Accounts ts n s) (i : Nat) :
    s.source.answer i = .ok (padded ts (n + 1 + i)) := by
  rw [h.source_eq, TokenSource.answer, ← TokenSource.after_add, ← TokenSource.answer,
    TokenSource.answer_ofTokens]

lemma upcoming (h : Accounts ts n s) (i : Nat) : s.upcoming i = .ok (padded ts (n + i)) := by
  cases i with
  | zero => rw [Session.upcoming, h.lookahead_eq]; rfl
  | succ i => rw [Session.upcoming, h.answer, Nat.add_right_comm, Nat.add_assoc]

lemma advance (h : Accounts ts n s) (ha : s.Advances us es s') (hes : Trace.terminals es = us) :
    Accounts ts (n + us.length) s' where
  source_eq := by
    rw [ha.source_eq, h.source_eq, ← TokenSource.after_add, Nat.add_right_comm]
  lookahead_eq := by
    have hahead : Except.ok s'.lookahead = s.upcoming us.length := ha.upcoming_eq 0
    rw [h.upcoming] at hahead
    exact Except.ok.inj hahead
  told := by
    obtain ⟨tr, htr, htold⟩ := h.told
    refine ⟨_, ha.trace? htr, ?_⟩
    have hus : us = (List.range us.length).map fun i => padded ts (n + i) := by
      refine (List.map_inj_right (f := Except.ok (ε := LexError)) fun _ _ => Except.ok.inj).1 ?_
      rw [ha.taken, List.map_map]
      exact List.map_congr_left fun i _ => h.upcoming i
    rw [Trace.events_recordAll, Trace.terminals_append, htold, hes, firstOf, firstOf,
      List.range_add, List.map_append, List.map_map]
    exact congrArg _ hus

lemma of_resembles (h : Accounts ts n s) (hr : Resembles s' s) : Accounts ts n s' where
  source_eq := hr.source_eq.trans h.source_eq
  lookahead_eq := hr.lookahead_eq.trans h.lookahead_eq
  told := by
    obtain ⟨tr, htr, htold⟩ := h.told
    obtain ⟨tr', htr', hevents⟩ := hr.trace tr htr
    exact ⟨tr', htr', hevents ▸ htold⟩

theorem run (h : Accounts ts n s) (gs : List Goal) : ∃ m, Accounts ts m (run g gs s).2 := by
  have ho := run_outcome (g := g) gs s
  generalize Session.run g gs s = r at ho ⊢
  cases ho with
  | reached hc ha => exact ⟨_, h.advance ha hc.terminals_eq⟩
  | rejected hc ha => exact ⟨_, h.advance (ha.note _) hc.terminals_eq⟩
  | fault hc ha _ he =>
    -- tokens hold no fault
    rw [(h.advance ha hc.terminals_eq).answer] at he
    cases he

theorem accept (h : Accounts ts n s) (k : Kind) : ∃ m, Accounts ts m (s.accept k).2 := by
  rcases hacc : s.accept k with ⟨e | t, s'⟩
  · refine ⟨n, ?_⟩
    obtain ⟨tr, htr, -⟩ := h.told
    unfold Session.accept at hacc
    split at hacc
    · -- a trace refuses no token, and another one stands behind it
      have hnext : s.source.next.1 = .ok (padded ts (n + 1)) := h.answer 0
      rw [Sink.eq_of_trace? htr] at hacc
      rcases hn : s.source.next with ⟨e | t, source⟩
      · rw [hn] at hnext
        cases hnext
      · rw [hn] at hacc
        cases hacc
    · split at hacc
      · cases hacc
        exact h
      · cases hacc
        exact ⟨h.source_eq, h.lookahead_eq, h.told⟩
  · exact ⟨_, h.advance (.accept hacc) rfl⟩

/-- **No call loses or repeats a token**, whatever it comes to. -/
theorem perform (h : Accounts ts n s) (c : Call) : ∃ m, Accounts ts m (s.perform g c).2 := by
  rcases hc : c.wholeGoals with _ | gs
  · cases c with
    | program | statementPart => cases hc
    | accept k => exact h.accept k
    | phrase n => exact h.run [.phrase n]
  · by_cases hs : s.used = true
    · rw [perform_of_used hs (by rw [Call.isWhole, hc]; rfl)]
      exact ⟨n, h⟩
    · have hclaimed : Accounts ts n s.claimed := ⟨h.source_eq, h.lookahead_eq, h.told⟩
      obtain ⟨m, hm⟩ := hclaimed.run (g := g) gs
      exact ⟨m, hm.of_resembles (perform_whole (Bool.eq_false_iff.2 hs) hc).2⟩

theorem performAll (h : Accounts ts n s) (calls : List Call) :
    ∃ m, Accounts ts m (performAll g s calls) := by
  induction calls generalizing s n with
  | nil => exact ⟨n, h⟩
  | cons c calls ih =>
    obtain ⟨m, hm⟩ := h.perform (g := g) c
    exact ih hm

end Session.Accounts

lemma accounts_fresh (label : String) (ts : List Token) :
    Accounts ts 0 (fresh ts ⟨label, .trace .empty⟩) where
  source_eq := rfl
  lookahead_eq := (nth_zero (.ofList ts)).symm
  told := ⟨_, rfl, rfl⟩

lemma perform_whole_enters {g : Grammar} {s : Session} {c : Call} {tr : Trace}
    (hs : s.used = false) (hc : c.isWhole = true) (htr : s.sink.trace? = some tr) :
    (s.perform g c).1 ≠ .error .alreadyUsed ∧
      ∃ tr' es, (s.perform g c).2.sink.trace? = some tr' ∧
        tr'.eventsSince tr = .ofEnter Nonterminal.statementPart.name :: es := by
  obtain ⟨gs, hgs⟩ := Option.isSome_iff_exists.1 hc
  obtain ⟨rest, rfl⟩ : ∃ rest, gs = .phrase .statementPart :: rest := by
    cases c <;> cases hgs <;> exact ⟨_, rfl⟩
  obtain ⟨hresult, hresembles⟩ := perform_whole (g := g) hs hgs
  obtain ⟨es, hes⟩ := exists_events_of_phrase (g := g) .statementPart rest (s := s.claimed) htr
  obtain ⟨tr', htr', hevents⟩ := hresembles.trace _ hes
  refine ⟨?_, tr', es, htr', ?_⟩
  · have hne := run_ne_alreadyUsed (g := g) (.phrase .statementPart :: rest) s.claimed
    rw [hresult]
    rcases h : (run g (.phrase .statementPart :: rest) s.claimed).1 with f | _
    · rw [h] at hne
      exact fun hf => hne (congrArg _ (Except.error.inj hf))
    · nofun
  · rw [Trace.eventsSince, hevents, Trace.events_recordAll, List.drop_left]

/-- **Every token is accounted for**, after any calls and whatever these come to: the terminals of
the trace are the first of the tokens, the next one is ahead, and no more have been asked for. The
first call for a whole derivation is answered, and enters a statement part; every later one is
refused and changes nothing. -/
theorem tokens_are_accounted_for (label : String) (ts : List Token) (calls : List Call) :
    ∃ s s', start (.ofTokens ts) ⟨label, .trace .empty⟩ = .ok s ∧
      performAll Grammar.language s calls = s' ∧
      ∃ q tr n, s'.source = .queue q ∧ s'.sink.trace? = some tr ∧
        (Trace.terminals tr.events).length = n ∧ q.asked = n + 1 ∧
        Trace.terminals tr.events = firstOf ts n ∧ s'.lookahead = padded ts n ∧
        ∀ c : Call, c.isWhole = true →
          if calls.any Call.isWhole then s'.perform Grammar.language c = (.error .alreadyUsed, s')
          else (s'.perform Grammar.language c).1 ≠ .error .alreadyUsed ∧
            ∃ tr' es, (s'.perform Grammar.language c).2.sink.trace? = some tr' ∧
              tr'.eventsSince tr = .ofEnter Nonterminal.statementPart.name :: es := by
  refine ⟨_, _, start_ofTokens ts _, rfl, ?_⟩
  obtain ⟨n, h⟩ := (accounts_fresh label ts).performAll (g := Grammar.language) calls
  obtain ⟨tr, htr, htold⟩ := h.told
  obtain ⟨q, hq, hasked⟩ := exists_after_queue (.ofList ts) (n + 1)
  refine ⟨q, tr, n, h.source_eq.trans hq, htr, by rw [htold, length_firstOf], ?_, htold,
    h.lookahead_eq, fun c hc => ?_⟩
  · rw [hasked]
    exact Nat.zero_add _
  · have hused := used_performAll (g := Grammar.language) (fresh ts ⟨label, .trace .empty⟩) calls
    rw [show (fresh ts ⟨label, .trace .empty⟩).used = false from rfl, Bool.false_or] at hused
    split
    · next hany => exact perform_of_used (hused.trans hany) hc
    · next hany => exact perform_whole_enters (hused.trans (Bool.eq_false_iff.2 hany)) hc htr

theorem tokens_are_accounted_for_brokenAssignment :
    ∃ s', performAll Grammar.language (fresh brokenAssignment ⟨"", .trace .empty⟩)
        [.program, .phrase .factor] = s' ∧
      s'.perform Grammar.language .statementPart = (.error .alreadyUsed, s') := by
  obtain ⟨s, s', hs, hs', q, tr, n, -, -, -, -, -, -, hwhole⟩ :=
    tokens_are_accounted_for "" brokenAssignment [.program, .phrase .factor]
  obtain rfl := Except.ok.inj ((start_ofTokens _ _).symm.trans hs)
  exact ⟨s', hs', hwhole .statementPart rfl⟩

end StatementLang
