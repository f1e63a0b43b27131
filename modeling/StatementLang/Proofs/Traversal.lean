import StatementLang.Proofs.Verdict

/-!
What a run does to a session, and which sessions a course takes along.

However a run ends, with its goals reached, with an error or at a fault of the text, the tokens that
it has taken lie on a course, and the sink has been told of just the events of that course
(`run_traverses`). The other way round, every session that has the tokens of a course before it goes
along the course (`Course.reaches`), so a run of it comes to the same end (`run_of_rejects`).
-/

namespace StatementLang

open TokenQueue Session

/-- The event is about a phrase of the language, or about a token of it. -/
inductive Event.Proper : Event → Prop
  | enter (n : Nonterminal) : Proper (.ofEnter n.name)
  | leave (n : Nonterminal) : Proper (.ofLeave n.name)
  | token {t : Token} {x : Symbol} (h : t.kind = .known x) : Proper (.ofToken t)

lemma Sink.tellAll_trace {es : List Event} (hes : ∀ e ∈ es, e.Proper) (label : String)
    (tr : Trace) : tellAll ⟨label, .trace tr⟩ es = ⟨label, .trace (tr.recordAll es)⟩ := by
  induction es generalizing tr with
  | nil => rfl
  | cons e es ih =>
    obtain ⟨he, hes⟩ := List.forall_mem_cons.1 hes
    have htell : tell ⟨label, .trace tr⟩ e = ⟨label, .trace (tr.record e)⟩ := by cases he <;> rfl
    rw [tellAll_cons, htell, ih hes, Trace.recordAll_cons]

namespace Trace

@[simp] lemma terminals_append (es fs : List Event) :
    terminals (es ++ fs) = terminals es ++ terminals fs := by
  simp [terminals]

end Trace

namespace Course

variable {g : Grammar} {next : Kind} {gs gs' : List Goal} {ts : List Token} {es fs : List Event}

theorem split (h : Course g next gs ts (es ++ fs) gs') :
    ∃ us vs gs₁, ts = us ++ vs ∧ Course g (ahead next vs) gs us es gs₁ ∧
      Course g next gs₁ vs fs gs' := by
  generalize hall : es ++ fs = all at h
  induction h generalizing es with
  | refl gs =>
    obtain ⟨rfl, rfl⟩ := List.append_eq_nil_iff.1 hall
    exact ⟨[], [], gs, rfl, .refl gs, .refl gs⟩
  | token ht h ih =>
    rcases es with _ | ⟨e, es⟩
    · obtain rfl : fs = _ := hall
      exact ⟨[], _, _, rfl, .refl _, .token ht h⟩
    · obtain ⟨rfl, htail⟩ := List.cons.inj hall
      obtain ⟨us, vs, gs₁, rfl, h₁, h₂⟩ := ih htail
      exact ⟨_, vs, gs₁, rfl, .token ht h₁, h₂⟩
  | phrase h ih =>
    rcases es with _ | ⟨e, es⟩
    · obtain rfl : fs = _ := hall
      exact ⟨[], _, _, rfl, .refl _, .phrase h⟩
    · obtain ⟨rfl, htail⟩ := List.cons.inj hall
      obtain ⟨us, vs, gs₁, rfl, h₁, h₂⟩ := ih htail
      exact ⟨us, vs, gs₁, rfl, .phrase h₁, h₂⟩
  | leave h ih =>
    rcases es with _ | ⟨e, es⟩
    · obtain rfl : fs = _ := hall
      exact ⟨[], _, _, rfl, .refl _, .leave h⟩
    · obtain ⟨rfl, htail⟩ := List.cons.inj hall
      obtain ⟨us, vs, gs₁, rfl, h₁, h₂⟩ := ih htail
      exact ⟨us, vs, gs₁, rfl, .leave h₁, h₂⟩
  | choice hc _ ih =>
    obtain ⟨us, vs, gs₁, rfl, h₁, h₂⟩ := ih hall
    exact ⟨us, vs, gs₁, rfl, .choice (by rwa [← ahead_append]) h₁, h₂⟩

lemma proper (h : Course g next gs ts es gs') : ∀ e ∈ es, e.Proper := by
  induction h with
  | refl => exact List.forall_mem_nil _
  | token ht _ ih => exact List.forall_mem_cons.2 ⟨.token ht, ih⟩
  | phrase _ ih => exact List.forall_mem_cons.2 ⟨.enter _, ih⟩
  | leave _ ih => exact List.forall_mem_cons.2 ⟨.leave _, ih⟩
  | choice _ _ ih => exact ih

lemma trace?_tellAll (h : Course g next gs ts es gs') {sink : Sink} {tr : Trace}
    (htr : sink.trace? = some tr) : (sink.tellAll es).trace? = some (tr.recordAll es) := by
  rw [Sink.eq_of_trace? htr, Sink.tellAll_trace h.proper]
  rfl

end Course

/-! ### However a run ends -/

namespace Session

/-- What a run over the goals `gs` makes of a session: the tokens `us` are taken, and the sink is
told of the events `es`. -/
structure Traverses (g : Grammar) (gs : List Goal) (s : Session) (us : List Token)
    (es : List Event) (s' : Session) : Prop where
  course : ∃ next gs', Course g next gs us es gs'
  taken : us.map .ok = (List.range us.length).map s.upcoming
  source_eq : s'.source = s.source.after us.length
  sink_eq : s'.sink = s.sink.tellAll es
  used_eq : s'.used = s.used

variable {g : Grammar} {gs gs' : List Goal} {s s' : Session} {us : List Token} {es : List Event}

lemma Advances.note (h : s.Advances us es s') (r : Record) : s.Advances us es (s'.note r) where
  taken := h.taken
  upcoming_eq i := by rw [← h.upcoming_eq]; cases i <;> rfl
  source_eq := h.source_eq
  label_eq := h.label_eq
  used_eq := h.used_eq
  trace_eq := h.trace_eq

lemma Traverses.of_advances {k : Kind} (hc : Course g k gs us es gs')
    (ha : s.Advances us es s') (hsink : s'.sink = s.sink.tellAll es) :
    Traverses g gs s us es s' :=
  ⟨⟨k, gs', hc⟩, ha.taken, ha.source_eq, hsink, ha.used_eq⟩

/-- **However a run ends**, it has gone along a course and told the sink of it. -/
theorem run_traverses (gs : List Goal) (s : Session) :
    ∃ us es, Traverses g gs s us es (run g gs s).2 := by
  have hends := run_ends (g := g) gs s
  generalize run g gs s = r at hends ⊢
  cases hends with
  | done h =>
    obtain ⟨us, es, hc, ha, rfl⟩ := h.told
    exact ⟨us, es, .of_advances hc ha (sink_replay s es)⟩
  | @failed c f s₂ h hf =>
    obtain ⟨gs', s₁⟩ := c
    obtain ⟨us, es, hc, ha, hs₁⟩ := h.told
    have hsink : s₁.sink = s.sink.tellAll es := by rw [hs₁, sink_replay]
    cases hf with
    | @token x gs' _ _ _ hf =>
      have ht := accept_taken s₁ x
      rw [hf] at ht
      cases ht with
      | @fault e source sink hk htold hn =>
        -- the token has been taken, and the fault is behind it
        have hahead : Except.ok s₁.lookahead = s.upcoming us.length := ha.upcoming_eq 0
        refine ⟨us ++ [s₁.lookahead], es ++ [.ofToken s₁.lookahead], ?_, ?_, ?_, ?_, ha.used_eq⟩
        · exact ⟨s₁.lookahead.kind, gs', Course.trans hc (.token hk (.refl gs'))⟩
        · rw [List.map_append, ha.taken, List.length_append, List.length_singleton,
            List.range_succ, List.map_append, List.map_singleton, List.map_singleton, hahead]
        · rw [List.length_append, TokenSource.after_add, ← ha.source_eq, List.length_singleton,
            TokenSource.after, TokenSource.after, hn]
        · rw [Sink.tellAll_append, ← hsink]
          exact (Sink.tell_ofToken htold).symm
      | rejected => exact ⟨us, es, .of_advances hc (ha.note _) hsink⟩
    | choice => exact ⟨us, es, .of_advances hc (ha.note _) hsink⟩

/-! ### Along a course -/

lemma Step.run_eq {c c' : Config} (h : Step g c c') : run g c.1 c.2 = run g c'.1 c'.2 := by
  cases h with
  | token h => exact run_token_ok g _ _ h
  | phrase n gs s => exact run_phrase g gs s n
  | leave n gs s => exact run_leave g gs s n
  | choice h => exact run_choice_ok g _ _ h

theorem Reaches.run_eq {c c' : Config} (h : Reaches g c c') :
    run g c.1 c.2 = run g c'.1 c'.2 := by
  induction h with
  | refl => rfl
  | tail _ hstep ih => exact ih.trans hstep.run_eq

/-- The session has the tokens before it, from the one that it looks at. -/
def HasAhead (s : Session) (ts : List Token) : Prop :=
  ∀ i t, ts[i]? = some t → s.upcoming i = .ok t

namespace HasAhead

variable {t : Token} {ts : List Token}

lemma lookahead_eq (h : s.HasAhead (t :: ts)) : s.lookahead = t :=
  Except.ok.inj (h 0 t rfl)

lemma kind_eq {p : Token} (h : s.HasAhead (ts ++ [p])) :
    s.lookahead.kind = ahead p.kind ts := by
  cases ts <;> rw [h.lookahead_eq] <;> rfl

lemma of_advances {vs : List Token} (ha : s.Advances us es s') (h : s.HasAhead (us ++ vs)) :
    s'.HasAhead vs := by
  intro i t ht
  rw [ha.upcoming_eq]
  refine h _ t ?_
  rw [List.getElem?_append_right (Nat.le_add_right _ i), Nat.add_sub_cancel_left]
  exact ht

lemma accept {x : Symbol} {p : Token} (h : s.HasAhead (t :: p :: ts)) (ht : t.kind = .known x) :
    ∃ s', s.accept (.known x) = (.ok t, s') := by
  have hahead := h.lookahead_eq
  have htaken := accept_taken s x
  generalize s.accept (.known x) = r at htaken ⊢
  cases htaken with
  | taken => exact ⟨_, by rw [hahead]⟩
  | fault _ _ hn =>
    have hanswer : s.source.next.1 = .ok p := h 1 p rfl
    rw [hn] at hanswer
    cases hanswer
  | rejected hk => exact absurd (hahead ▸ ht) hk

end HasAhead

lemma Advances.hasAhead (h : s.Advances us es s') : s.HasAhead (us ++ [s'.lookahead]) := by
  intro i t ht
  rcases Nat.lt_or_ge i us.length with hlt | hge
  · rw [List.getElem?_append_left hlt] at ht
    obtain ⟨-, rfl⟩ := List.getElem?_eq_some_iff.1 ht
    have hi := congrArg (·[i]?) h.taken
    simpa [hlt, eq_comm] using hi
  · have hlt : i < us.length + 1 := by
      have hlt := (List.getElem?_eq_some_iff.1 ht).1
      rwa [List.length_append] at hlt
    obtain rfl : i = us.length := by omega
    rw [List.getElem?_concat_length] at ht
    cases ht
    exact (h.upcoming_eq 0).symm

end Session

/-- **A course takes every session along** that has its tokens before it. -/
theorem Course.reaches {g : Grammar} {p : Token} {gs gs' : List Goal} {us : List Token}
    {es : List Event} (h : Course g p.kind gs us es gs') {s : Session}
    (hs : s.HasAhead (us ++ [p])) :
    ∃ s', Reaches g (gs, s) (gs', s') ∧ s.Advances us es s' ∧ s' = s.replay es := by
  induction h generalizing s with
  | refl gs => exact ⟨s, .refl, .refl s, rfl⟩
  | @token x t gs gs' us es ht _ ih =>
    obtain ⟨q, qs, hq⟩ := List.exists_cons_of_ne_nil (l := us ++ [p]) (by simp)
    have hahead : s.HasAhead (t :: q :: qs) := hq ▸ hs
    obtain ⟨s₁, hacc⟩ := hahead.accept ht
    obtain ⟨hk, ha⟩ := Advances.token hacc
    have hs₁ := eq_happen_of_taken hacc hk
    rw [hahead.lookahead_eq] at ha hs₁
    obtain ⟨s', hreach, ha', hs'⟩ := ih (.of_advances ha hs)
    exact ⟨s', hreach.head (.token hacc), ha.trans ha', by rw [hs', hs₁, replay_cons]⟩
  | @phrase n gs gs' us es _ ih =>
    have ha := Advances.enter s n
    obtain ⟨s', hreach, ha', hs'⟩ := ih (.of_advances ha hs)
    exact ⟨s', hreach.head (.phrase n gs s), ha.trans ha', hs'⟩
  | @leave n gs gs' us es _ ih =>
    have ha := Advances.leave s n
    obtain ⟨s', hreach, ha', hs'⟩ := ih (.of_advances ha hs)
    exact ⟨s', hreach.head (.leave n gs s), ha.trans ha', hs'⟩
  | choice hc _ ih =>
    obtain ⟨s', hreach, ha, hs'⟩ := ih hs
    exact ⟨s', hreach.head (.choice (by rwa [hs.kind_eq])), ha, hs'⟩

namespace Session

variable {g : Grammar} {gs gs' : List Goal} {s t : Session} {us : List Token} {es : List Event}
  {p : Token} {x : Expectation}

lemma run_rejected (h : g.Rejects s.lookahead.kind gs x) :
    run g gs s = (.error (.grammar (s.rejection gs x)), (s.reject x.text).2) := by
  cases h with
  | @token y hk gs =>
    have hacc : s.accept (.known y) =
        (.error (s.reject y.bracketed).1, (s.reject y.bracketed).2) := by
      have htaken := accept_taken s y
      generalize s.accept (.known y) = r at htaken ⊢
      cases htaken with
      | taken hy => exact absurd hy hk
      | fault hy => exact absurd hy hk
      | rejected => rfl
    exact run_token_error g gs s hacc
  | choice hc gs => exact run_choice_error g gs s hc

theorem run_of_reached (h : Course g p.kind gs us es []) (hs : s.HasAhead (us ++ [p])) :
    ∃ s', run g gs s = (.ok (), s') ∧ s'.lookahead = p ∧ s.Advances us es s' ∧
      s' = s.replay es := by
  obtain ⟨s', hreach, ha, hs'⟩ := h.reaches hs
  have hrun : run g gs s = run g [] s' := hreach.run_eq
  exact ⟨s', hrun.trans (run_nil g s'), (HasAhead.of_advances ha hs).lookahead_eq, ha, hs'⟩

theorem run_of_rejects (h : Course g p.kind gs us es gs') (hr : g.Rejects p.kind gs' x)
    (hs : s.HasAhead (us ++ [p])) :
    ∃ s', run g gs s = (.error (.grammar (s'.rejection gs' x)), (s'.reject x.text).2) ∧
      s'.lookahead = p ∧ s.Advances us es s' ∧ s' = s.replay es := by
  obtain ⟨s', hreach, ha, hs'⟩ := h.reaches hs
  have hahead : s'.lookahead = p := (HasAhead.of_advances ha hs).lookahead_eq
  have hrun : run g gs s = run g gs' s' := hreach.run_eq
  rw [← hahead] at hr
  exact ⟨s', hrun.trans (run_rejected hr), hahead, ha, hs'⟩

theorem run_of_fault {y : Symbol} {e : LexError}
    (h : Course g p.kind gs us es (.token y :: gs')) (hp : p.kind = .known y)
    (hs : s.HasAhead (us ++ [p])) (he : s.upcoming (us.length + 1) = .error e) :
    run g gs s = (.error (.lexical e), s.replay (es ++ [.ofToken p])) := by
  obtain ⟨s', hreach, ha, hs'⟩ := h.reaches hs
  have hahead : s'.lookahead = p := (HasAhead.of_advances ha hs).lookahead_eq
  have hrun : run g gs s = run g (.token y :: gs') s' := hreach.run_eq
  have hnext : s'.source.next.1 = .error e := (ha.upcoming_eq 1).trans he
  have htaken := accept_taken s' y
  rcases hacc : s'.accept (.known y) with ⟨r, t⟩
  rw [hacc] at htaken
  have ht := eq_happen_of_taken hacc (hahead ▸ hp)
  cases htaken with
  | taken _ _ hn =>
    rw [hn] at hnext
    cases hnext
  | fault hk _ hn =>
    rw [hn] at hnext
    cases hnext
    rw [hrun, run_token_error g gs' s' hacc, ht, replay_append, ← hs', ← hahead]
    rfl
  | rejected hk => exact absurd (hahead ▸ hp) hk

end Session

end StatementLang
