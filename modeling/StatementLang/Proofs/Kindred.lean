import Mathlib.Tactic.Choose
import StatementLang.Proofs.Bystanders

/-!
Only kinds decide.

Sessions are kindred if the tokens before them are of the same kinds. The values of the tokens and
their places get into messages, into the log and into the layers of errors, but not into what is
done: kindred sessions answer every call alike and stay kindred (`Session.Kindred.perform`), so
their traces tell of events of the same shapes (`only_kinds_decide`).
-/

namespace StatementLang

open TokenQueue Session

/-- What a failure tells but for values and places. -/
inductive Failure.Gist where
  /-- The phrases that an error names, and what was expected in the innermost of them. -/
  | grammar (phrases : List String) (expected : Option String)
  | lexical
  | unknownKind (u : UnknownKind)
  | alreadyUsed
  deriving DecidableEq

def Failure.gist : Failure → Failure.Gist
  | grammar e => .grammar e.nonterminals e.root.expected
  | lexical _ => .lexical
  | unknownKind u => .unknownKind u
  | alreadyUsed => .alreadyUsed

/-- What the result of a call tells but for values and places. -/
def Session.gist (r : Except Failure (Option Token)) : Except Failure.Gist (Option Kind) :=
  (r.map (·.map Token.kind)).mapError Failure.gist

lemma Session.gist_some {t u : Token} (h : u.kind = t.kind) :
    gist (.ok (some u)) = gist (.ok (some t)) :=
  congrArg (fun k => Except.ok (some k)) h

lemma Trace.kinds_terminals (es : List Event) :
    (terminals es).map Token.kind =
      ((es.map Event.shape).filter (·.1 = .terminal)).filterMap (·.2.2) := by
  rw [terminals, List.map_filterMap, List.filter_map, List.filterMap_map]
  rfl

namespace Session

/-! ### Kindred sessions -/

/-- Before the sessions stand tokens of the same kinds, and their traces tell of events of the same
shapes. -/
structure Kindred (t s : Session) : Prop where
  upcoming : ∀ i, ∃ u v, s.upcoming i = .ok u ∧ t.upcoming i = .ok v ∧ v.kind = u.kind
  used_eq : t.used = s.used
  told : ∃ tr tr', s.sink.trace? = some tr ∧ t.sink.trace? = some tr' ∧
    tr'.events.map Event.shape = tr.events.map Event.shape

namespace Kindred

variable {g : Grammar} {s s' t t' : Session} {us vs : List Token} {es fs : List Event}

lemma kind_eq (h : t.Kindred s) : t.lookahead.kind = s.lookahead.kind := by
  obtain ⟨u, v, hs, ht, hkind⟩ := h.upcoming 0
  cases hs
  cases ht
  exact hkind

lemma exists_ahead (h : t.Kindred s) (hs : s.HasAhead us) :
    ∃ vs, t.HasAhead vs ∧ vs.map Token.kind = us.map Token.kind := by
  choose f f' hf hf' hkind using h.upcoming
  refine ⟨(List.range us.length).map f', fun i v hv => ?_, ?_⟩
  · rw [List.getElem?_map, Option.map_eq_some_iff] at hv
    obtain ⟨j, hj, rfl⟩ := hv
    obtain ⟨hlt, rfl⟩ := List.getElem?_eq_some_iff.1 hj
    rw [List.getElem_range]
    exact hf' i
  · refine List.ext_getElem (by simp) fun i hi hi' => ?_
    simp only [List.getElem_map, List.getElem_range]
    rw [List.length_map] at hi'
    have hu : f i = us[i] :=
      Except.ok.inj ((hf i).symm.trans (hs i _ (List.getElem?_eq_getElem hi')))
    rw [hkind, hu]

lemma advances (h : t.Kindred s) (hs : s.Advances us es s') (ht : t.Advances vs fs t')
    (hkinds : vs.map Token.kind = us.map Token.kind)
    (hshape : fs.map Event.shape = es.map Event.shape) : t'.Kindred s' where
  upcoming i := by
    have hlength : vs.length = us.length := by simpa using congrArg List.length hkinds
    rw [hs.upcoming_eq, ht.upcoming_eq, hlength]
    exact h.upcoming _
  used_eq := by rw [hs.used_eq, ht.used_eq, h.used_eq]
  told := by
    obtain ⟨tr, tr', htr, htr', hevents⟩ := h.told
    refine ⟨_, _, hs.trace? htr, ht.trace? htr', ?_⟩
    rw [Trace.events_recordAll, Trace.events_recordAll, List.map_append, List.map_append, hevents,
      hshape]

lemma of_abreast (h : t.Kindred s) (hs : s'.Abreast s) (ht : t'.Abreast t)
    (hused : t'.used = s'.used)
    (htold : ∃ tr tr', s'.sink.trace? = some tr ∧ t'.sink.trace? = some tr' ∧
      tr'.events.map Event.shape = tr.events.map Event.shape) : t'.Kindred s' where
  upcoming i := by
    obtain ⟨u, v, hu, hv, hkind⟩ := h.upcoming i
    exact ⟨u, v, by rw [hs.upcoming_eq, hu], by rw [ht.upcoming_eq, hv], hkind⟩
  used_eq := hused
  told := htold

lemma note (h : t.Kindred s) (r r' : Record) : (t.note r').Kindred (s.note r) :=
  h.of_abreast ⟨rfl, rfl⟩ ⟨rfl, rfl⟩ h.used_eq h.told

lemma called (h : t.Kindred s) (c : Call) : (t.called c).Kindred (s.called c) :=
  h.of_abreast ⟨rfl, rfl⟩ ⟨rfl, rfl⟩ (congrArg (· || c.isWhole) h.used_eq) h.told

lemma succeed (h : t.Kindred s) :
    Kindred { t with sink := t.sink.succeed } { s with sink := s.sink.succeed } := by
  obtain ⟨tr, tr', htr, htr', hevents⟩ := h.told
  have hsucceed {u : Session} {tr : Trace} (h : u.sink.trace? = some tr) :
      u.sink.succeed.trace? = some tr.succeed := by
    rw [Sink.trace?_succeed, h]
    rfl
  exact h.of_abreast ⟨rfl, rfl⟩ ⟨rfl, rfl⟩ h.used_eq
    ⟨_, _, hsucceed htr, hsucceed htr', hevents⟩

lemma concluded (h : t.Kindred s) (c : Call) : (t.concluded c).Kindred (s.concluded c) := by
  unfold Session.concluded
  split
  · exact h.succeed.note _ _
  · exact h

lemma exists_course (h : t.Kindred s) {gs gs' : List Goal}
    (hc : Course g s'.lookahead.kind gs us es gs') (ha : s.Advances us es s') :
    ∃ vs q fs, t.HasAhead (vs ++ [q]) ∧ vs.map Token.kind = us.map Token.kind ∧
      q.kind = s'.lookahead.kind ∧ Course g q.kind gs vs fs gs' ∧
      fs.map Event.shape = es.map Event.shape := by
  obtain ⟨ws, hws, hkinds⟩ := h.exists_ahead ha.hasAhead
  rw [List.map_append, List.map_eq_append_iff] at hkinds
  obtain ⟨vs, qs, rfl, hvs, hqs⟩ := hkinds
  obtain ⟨q, rfl, hq⟩ := List.map_eq_singleton_iff.1 hqs
  obtain ⟨fs, hfs, hshape⟩ := hc.exists_of_kinds hvs
  exact ⟨vs, q, fs, hws, hvs, hq, hq ▸ hfs, hshape⟩

theorem run (h : t.Kindred s) (gs : List Goal) :
    (run g gs t).1.mapError Failure.gist = (run g gs s).1.mapError Failure.gist ∧
      (run g gs t).2.Kindred (run g gs s).2 := by
  have ho := run_outcome (g := g) gs s
  generalize Session.run g gs s = r at ho ⊢
  cases ho with
  | @reached us es s' hc ha =>
    obtain ⟨vs, q, fs, hq, hkinds, -, hcourse, hshape⟩ := h.exists_course hc ha
    obtain ⟨t', ht', -, ha', -⟩ := run_of_reached hcourse hq
    rw [ht']
    exact ⟨rfl, h.advances ha ha' hkinds hshape⟩
  | @rejected us es gs' s' x hc ha hr =>
    obtain ⟨vs, q, fs, hq, hkinds, hkind, hcourse, hshape⟩ := h.exists_course hc ha
    obtain ⟨t', ht', -, ha', -⟩ := run_of_rejects hcourse (hkind ▸ hr) hq
    rw [ht', reject_within]
    have hgist (u : Session) : (Failure.grammar (u.rejection gs' x)).gist =
        .grammar ((Goal.openPhrases gs').reverse.map Nonterminal.name) (some x.text) := by
      rw [Failure.gist, nonterminals_rejection, root_rejection]
      rfl
    exact ⟨congrArg Except.error ((hgist t').trans (hgist s').symm),
      (h.advances ha ha' hkinds hshape).note _ _⟩
  | @fault us es gs' s' s₁ y e hc ha hk he =>
    -- no fault stands before the sessions
    obtain ⟨u, -, hu, -⟩ := h.upcoming (us.length + 1)
    have hfault : s.upcoming (us.length + 1) = .error e := (ha.upcoming_eq 1).symm.trans he
    rw [hfault] at hu
    cases hu

end Kindred

lemma exists_accept {s : Session} {tr : Trace} (htr : s.sink.trace? = some tr) {u : Token}
    (hu : s.upcoming 1 = .ok u) :
    ∃ s', s.accept s.lookahead.kind = (.ok s.lookahead, s') := by
  have hnext : s.source.next.1 = .ok u := hu
  rcases hn : s.source.next with ⟨e | v, source⟩
  · rw [hn] at hnext
    cases hnext
  · rw [accept, if_pos rfl, Sink.eq_of_trace? htr, hn]
    exact ⟨_, rfl⟩

namespace Kindred

variable {g : Grammar} {s t : Session}

lemma accept_foreign (h : t.Kindred s) {code : String} (hcode : Symbol.ofCode? code = none) :
    gist ((t.accept (.foreign code hcode)).1.map some) =
        gist ((s.accept (.foreign code hcode)).1.map some) ∧
      (t.accept (.foreign code hcode)).2.Kindred (s.accept (.foreign code hcode)).2 := by
  by_cases hk : s.lookahead.kind = .foreign code hcode
  · obtain ⟨tr, tr', htr, htr', -⟩ := h.told
    obtain ⟨u, v, hu, hv, -⟩ := h.upcoming 1
    obtain ⟨s', hs'⟩ := exists_accept htr hu
    obtain ⟨t', ht'⟩ := exists_accept htr' hv
    have hkinds : [t.lookahead].map Token.kind = [s.lookahead].map Token.kind :=
      congrArg ([·]) h.kind_eq
    have hshape : [Event.ofToken t.lookahead].map Event.shape =
        [Event.ofToken s.lookahead].map Event.shape := by
      simp [Event.shape, Event.ofToken, h.kind_eq]
    rw [← hk, hs', ← h.kind_eq, ht']
    exact ⟨gist_some h.kind_eq, h.advances (.accept hs') (.accept ht') hkinds hshape⟩
  · have hrefused {u : Session} (hu : u.lookahead.kind = s.lookahead.kind) :
        u.accept (.foreign code hcode) = (.error (.unknownKind ⟨code⟩), u) := by
      rw [Session.accept, if_neg (hu ▸ hk)]
      rfl
    rw [hrefused rfl, hrefused h.kind_eq]
    exact ⟨rfl, h⟩

/-- **Kindred sessions answer every call alike**, and stay kindred. -/
theorem perform (h : t.Kindred s) (c : Call) :
    gist (t.perform g c).1 = gist (s.perform g c).1 ∧
      (t.perform g c).2.Kindred (s.perform g c).2 := by
  -- A call is refused, or it is for a kind that the language lacks, or it runs its goals.
  by_cases hs : (s.used && c.isWhole) = true
  · obtain ⟨hused, hwhole⟩ := Bool.and_eq_true_iff.1 hs
    rw [perform_of_used hused hwhole, perform_of_used (h.used_eq.trans hused) hwhole]
    exact ⟨rfl, h⟩
  have hs' : (s.used && c.isWhole) = false := Bool.eq_false_iff.2 hs
  rcases hgs : c.goals? with _ | gs
  · obtain ⟨code, hcode, rfl⟩ : ∃ code hcode, c = .accept (.foreign code hcode) := by
      cases c with
      | program | statementPart | phrase => cases hgs
      | accept k =>
        cases k with
        | known => cases hgs
        | foreign code hcode => exact ⟨code, hcode, rfl⟩
    exact h.accept_foreign hcode
  · rw [perform_eq hgs hs', perform_eq hgs (h.used_eq ▸ hs')]
    obtain ⟨hresult, hkindred⟩ := (h.called c).run (g := g) gs
    generalize Session.run g gs (s.called c) = r at hresult hkindred ⊢
    generalize Session.run g gs (t.called c) = r' at hresult hkindred ⊢
    obtain ⟨f | _, s'⟩ := r <;> obtain ⟨f' | _, t'⟩ := r'
    · exact ⟨congrArg Except.error (Except.error.inj hresult), hkindred⟩
    · cases hresult
    · cases hresult
    · refine ⟨?_, hkindred.concluded c⟩
      cases c with
      | accept k => exact gist_some h.kind_eq
      | program | statementPart | phrase => rfl

theorem performAll (h : t.Kindred s) (calls : List Call) :
    (t.outcomes g calls).map (fun r => (gist r.1, r.2.kind)) =
        (s.outcomes g calls).map (fun r => (gist r.1, r.2.kind)) ∧
      (performAll g t calls).Kindred (performAll g s calls) := by
  induction calls generalizing s t with
  | nil => exact ⟨rfl, h⟩
  | cons c calls ih =>
    obtain ⟨hresult, hkindred⟩ := h.perform (g := g) c
    obtain ⟨hresults, hkindred'⟩ := ih hkindred
    refine ⟨?_, hkindred'⟩
    rw [outcomes, outcomes, List.map_cons, List.map_cons, hresults, hresult, hkindred.kind_eq]

end Kindred

lemma kindred_fresh {ts us : List Token} (h : us.map Token.kind = ts.map Token.kind)
    (label : String) :
    (fresh us ⟨label, .trace .empty⟩).Kindred (fresh ts ⟨label, .trace .empty⟩) where
  upcoming i := ⟨_, _, faces_fresh ts _ i, faces_fresh us _ i, by rw [kind_padded, kind_padded, h]⟩
  used_eq := rfl
  told := ⟨_, _, rfl, rfl, rfl⟩

end Session

/-- **Only kinds decide.** Two lists of tokens of the same kinds, whatever their values and places,
are the same to a session, whatever is asked of it. Each call returns on both, with tokens of one
kind, or fails on both in one manner. Its error names the same phrases and expects the same. The
traces tell of the same phrases and kinds, and as many tokens are taken. -/
theorem only_kinds_decide {ts us : List Token} (h : us.map Token.kind = ts.map Token.kind)
    (label : String) (calls : List Call) :
    ∃ s t tr tr', start (.ofTokens ts) ⟨label, .trace .empty⟩ = .ok s ∧
      start (.ofTokens us) ⟨label, .trace .empty⟩ = .ok t ∧
      (t.outcomes .language calls).map (fun r => (gist r.1, r.2.kind)) =
        (s.outcomes .language calls).map (fun r => (gist r.1, r.2.kind)) ∧
      (performAll .language s calls).sink.trace? = some tr ∧
      (performAll .language t calls).sink.trace? = some tr' ∧
      tr'.events.map Event.shape = tr.events.map Event.shape ∧
      (Trace.terminals tr'.events).length = (Trace.terminals tr.events).length := by
  obtain ⟨houtcomes, -, -, tr, tr', htr, htr', hevents⟩ :=
    (kindred_fresh h label).performAll (g := .language) calls
  refine ⟨_, _, tr, tr', start_ofTokens ts _, start_ofTokens us _, houtcomes, htr, htr', hevents,
    ?_⟩
  have hkinds : (Trace.terminals tr'.events).map Token.kind =
      (Trace.terminals tr.events).map Token.kind := by
    rw [Trace.kinds_terminals, Trace.kinds_terminals, hevents]
  simpa using congrArg List.length hkinds

theorem only_kinds_decide_brokenAssignment :
    let elsewhere : List Token := brokenAssignment.map fun t => { t with value := "?", line := -3 }
    let calls : List Call := [.program, .accept (.ofCode "QUERY"), .phrase .factor]
    elsewhere.map Token.kind = brokenAssignment.map Token.kind ∧
      (outcomes .language (fresh elsewhere ⟨"", .trace .empty⟩) calls).map
          (fun r => (gist r.1, r.2.kind)) =
        (outcomes .language (fresh brokenAssignment ⟨"", .trace .empty⟩) calls).map
          (fun r => (gist r.1, r.2.kind)) := by
  have hkinds : (brokenAssignment.map fun t => { t with value := "?", line := -3 }).map
      Token.kind = brokenAssignment.map Token.kind := rfl
  obtain ⟨s, t, -, -, hs, ht, houtcomes, -⟩ :=
    only_kinds_decide hkinds "" [.program, .accept (.ofCode "QUERY"), .phrase .factor]
  obtain rfl := Except.ok.inj ((start_ofTokens _ _).symm.trans hs)
  obtain rfl := Except.ok.inj ((start_ofTokens _ _).symm.trans ht)
  exact ⟨hkinds, houtcomes⟩

end StatementLang
