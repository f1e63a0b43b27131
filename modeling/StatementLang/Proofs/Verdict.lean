import StatementLang.Proofs.Layers
import StatementLang.Proofs.Upcoming

/-!
Runs over a list of tokens.

A session over tokens has before it the tokens that the list stands for, which go on forever. So a
run ends with a verdict on some first of them (`run_verdict`), and there is only one such verdict
(`course_unique`): all that a run does is decided by the course that comes to its end.
-/

namespace StatementLang

namespace TokenQueue

lemma firstOf_succ (ts : List Token) (k : Nat) :
    firstOf ts (k + 1) = firstOf ts k ++ [padded ts k] := by
  simp [firstOf, List.range_succ]

lemma exists_firstOf (ts : List Token) {k m : Nat} (h : k < m) :
    ∃ rest, firstOf ts m = firstOf ts k ++ padded ts k :: rest := by
  obtain ⟨d, rfl⟩ := Nat.exists_eq_add_of_lt h
  refine ⟨(List.range d).map fun i => padded ts (k + 1 + i), ?_⟩
  rw [firstOf, Nat.add_right_comm, List.range_add, List.map_append, ← firstOf, firstOf_succ]
  simp

lemma kind_padded (ts : List Token) (i : Nat) :
    (padded ts i).kind = (ts.map Token.kind)[i]?.getD (.known .endOfFile) := by
  have hclosing : (closingOf ts).kind = .known .endOfFile := isEnd_closingOf ts
  rw [padded, List.getElem?_map]
  cases ts[i]? with
  | none => exact hclosing
  | some t => rfl

end TokenQueue

open TokenQueue

lemma TokenSource.answer_ofTokens (ts : List Token) (i : Nat) :
    (ofTokens ts).answer i = .ok (padded ts i) :=
  answer_queue (.ofList ts) i

theorem course_unique {g : Grammar} {ts : List Token} {j k : Nat} {gs gs₁ gs₂ : List Goal}
    {es fs : List Event} (h₁ : Course g (padded ts j).kind gs (firstOf ts j) es gs₁)
    (hf₁ : g.Final (padded ts j).kind gs₁)
    (h₂ : Course g (padded ts k).kind gs (firstOf ts k) fs gs₂)
    (hf₂ : g.Final (padded ts k).kind gs₂) : j = k ∧ es = fs ∧ gs₁ = gs₂ := by
  obtain ⟨r₁, hr₁⟩ := exists_firstOf ts (k := j) (m := j + k + 1) (by omega)
  obtain ⟨r₂, hr₂⟩ := exists_firstOf ts (k := k) (m := j + k + 1) (by omega)
  obtain ⟨hts, hes, hgs⟩ := h₁.unique hf₁ h₂ hf₂ (hr₁.symm.trans hr₂)
  exact ⟨by simpa using congrArg List.length hts, hes, hgs⟩

theorem course_goes_on {g : Grammar} {ts : List Token} {j k : Nat} {gs gs₁ gs₂ : List Goal}
    {es fs : List Event} (h₁ : Course g (padded ts j).kind gs (firstOf ts j) es gs₁)
    (h₂ : Course g (padded ts k).kind gs (firstOf ts k) fs gs₂)
    (hf₂ : g.Final (padded ts k).kind gs₂) :
    j ≤ k ∧ ∃ vs hs, firstOf ts k = firstOf ts j ++ vs ∧ fs = es ++ hs ∧
      Course g (padded ts k).kind gs₁ vs hs gs₂ := by
  obtain ⟨r₁, hr₁⟩ := exists_firstOf ts (k := j) (m := j + k + 1) (by omega)
  obtain ⟨r₂, hr₂⟩ := exists_firstOf ts (k := k) (m := j + k + 1) (by omega)
  obtain ⟨vs, hs, hvs, hhs, h⟩ := h₁.goes_on h₂ hf₂ (hr₁.symm.trans hr₂)
  have hlen := congrArg List.length hvs
  simp only [length_firstOf, List.length_append] at hlen
  exact ⟨by omega, vs, hs, hvs, hhs, h⟩

/-! ### Sinks that trace -/

lemma Trace.eventsSince_recordAll (t : Trace) (es : List Event) :
    (t.recordAll es).eventsSince t = es := by
  simp [eventsSince]

lemma Trace.eventsSince_succeed (tr tr' : Trace) :
    tr'.succeed.eventsSince tr = tr'.eventsSince tr := rfl

@[simp] lemma Sink.trace?_succeed (sink : Sink) :
    sink.succeed.trace? = sink.trace?.map Trace.succeed := by
  rcases sink with ⟨label, _ | _ | _⟩ <;> rfl

lemma Course.terminals_eq {g : Grammar} {k : Kind} {gs gs' : List Goal} {ts : List Token}
    {es : List Event} (h : Course g k gs ts es gs') : Trace.terminals es = ts := by
  induction h with
  | refl => rfl
  | token _ _ ih => exact congrArg (_ :: ·) ih
  | phrase _ ih => exact ih
  | leave _ ih => exact ih
  | choice _ _ ih => exact ih

lemma Sink.eq_of_trace? {sink : Sink} {tr : Trace} (h : sink.trace? = some tr) :
    sink = ⟨sink.label, .trace tr⟩ := by
  rcases sink with ⟨label, _ | _ | _⟩ <;> simp_all [Sink.trace?]

namespace Session

lemma Advances.trace? {s s' : Session} {us : List Token} {es : List Event}
    (h : s.Advances us es s') {tr : Trace} (htr : s.sink.trace? = some tr) :
    s'.sink.trace? = some (tr.recordAll es) := by
  rw [h.trace_eq _ _ (Sink.eq_of_trace? htr)]
  rfl

/-- The tokens before the session are those that the list stands for. -/
def Faces (s : Session) (ts : List Token) : Prop := ∀ i, s.upcoming i = .ok (padded ts i)

/-- A session over tokens that has not been asked for anything. -/
def fresh (ts : List Token) (sink : Sink) : Session :=
  ⟨.queue (TokenQueue.ofList ts).next.2, (TokenQueue.ofList ts).next.1, sink, false, []⟩

lemma start_ofTokens (ts : List Token) (sink : Sink) :
    start (.ofTokens ts) sink = .ok (fresh ts sink) := rfl

def claimed (s : Session) : Session := { s with used := true }

lemma faces_fresh (ts : List Token) (sink : Sink) : Faces (fresh ts sink) ts := by
  intro i
  cases i with
  | zero => exact congrArg Except.ok (nth_zero (.ofList ts)).symm
  | succ i =>
    have h : (TokenQueue.ofList ts).next.2.nth i = padded ts (i + 1) := (nth_succ _ i).symm
    exact (answer_queue _ i).trans (congrArg Except.ok h)

variable {s s' : Session} {ts us : List Token} {es : List Event} {g : Grammar} {gs : List Goal}

lemma upcoming_claimed (s : Session) (i : Nat) : s.claimed.upcoming i = s.upcoming i := by
  cases i <;> rfl

lemma Faces.claimed (h : s.Faces ts) : s.claimed.Faces ts := fun i =>
  (s.upcoming_claimed i).trans (h i)

lemma Faces.eq_firstOf (h : s.Faces ts)
    (hus : us.map .ok = (List.range us.length).map s.upcoming) : us = firstOf ts us.length := by
  rw [show s.upcoming = fun i => .ok (padded ts i) from funext h] at hus
  refine (List.map_inj_right (f := Except.ok (ε := LexError)) fun _ _ => Except.ok.inj).1 ?_
  rw [hus, firstOf, List.map_map]
  rfl

lemma Faces.taken (h : s.Faces ts) (ha : s.Advances us es s') : us = firstOf ts us.length :=
  h.eq_firstOf ha.taken

lemma Faces.upcoming (h : s.Faces ts) (ha : s.Advances us es s') (i : Nat) :
    s'.upcoming i = .ok (padded ts (us.length + i)) := by
  rw [ha.upcoming_eq, h]

lemma Faces.lookahead (h : s.Faces ts) (ha : s.Advances us es s') :
    s'.lookahead = padded ts us.length :=
  Except.ok.inj (h.upcoming ha 0)

/-- What a run over tokens returns, and the course that it has taken. -/
inductive Verdict (g : Grammar) (ts : List Token) (gs : List Goal) (s : Session) :
    Except Failure Unit × Session → Prop
  | reached {k : Nat} {es : List Event} {s' : Session}
    (hc : Course g (padded ts k).kind gs (firstOf ts k) es [])
    (ha : s.Advances (firstOf ts k) es s') : Verdict g ts gs s (.ok (), s')
  | rejected {k : Nat} {es : List Event} {gs' : List Goal} {s' : Session} {e : Expectation}
    (hc : Course g (padded ts k).kind gs (firstOf ts k) es gs')
    (ha : s.Advances (firstOf ts k) es s') (hr : g.Rejects (padded ts k).kind gs' e) :
    Verdict g ts gs s (.error (.grammar (s'.rejection gs' e)), (s'.reject e.text).2)

/-- **Runs over tokens** come to their end or reject a token. -/
theorem Faces.run_verdict (h : s.Faces ts) : Verdict g ts gs s (run g gs s) := by
  have ho := run_outcome (g := g) gs s
  generalize run g gs s = r at ho ⊢
  cases ho with
  | @reached us es s' hc ha =>
    rw [h.lookahead ha] at hc
    have hus := h.taken ha
    exact .reached (k := us.length) (hus ▸ hc) (hus ▸ ha)
  | @rejected us es gs' s' e hc ha hr =>
    rw [h.lookahead ha] at hc hr
    have hus := h.taken ha
    exact .rejected (k := us.length) (hus ▸ hc) (hus ▸ ha) hr
  | @fault us es gs' s' t x e hc ha hk he =>
    -- tokens hold no fault
    have : s'.upcoming 1 = .error e := he
    rw [h.upcoming ha] at this
    cases this

theorem Faces.run_of_course (h : s.Faces ts) {k : Nat}
    (hc : Course g (padded ts k).kind gs (firstOf ts k) es []) :
    ∃ s', run g gs s = (.ok (), s') ∧ s.Advances (firstOf ts k) es s' ∧
      s'.lookahead = padded ts k := by
  have hv : Verdict g ts gs s (run g gs s) := h.run_verdict
  generalize run g gs s = r at hv ⊢
  cases hv with
  | @reached j fs s' hc' ha =>
    obtain ⟨rfl, rfl, -⟩ := course_unique hc .reached hc' .reached
    exact ⟨s', rfl, ha, by simpa using h.lookahead ha⟩
  | rejected hc' _ hr =>
    obtain ⟨-, -, rfl⟩ := course_unique hc .reached hc' (.rejected hr)
    cases hr

theorem Faces.run_of_rejected (h : s.Faces ts) {k : Nat} {gs' : List Goal} {e : Expectation}
    (hc : Course g (padded ts k).kind gs (firstOf ts k) es gs')
    (hr : g.Rejects (padded ts k).kind gs' e) :
    ∃ s', run g gs s = (.error (.grammar (s'.rejection gs' e)), (s'.reject e.text).2) ∧
      s.Advances (firstOf ts k) es s' ∧ s'.lookahead = padded ts k := by
  have hv : Verdict g ts gs s (run g gs s) := h.run_verdict
  generalize run g gs s = r at hv ⊢
  cases hv with
  | reached hc' =>
    obtain ⟨-, -, rfl⟩ := course_unique hc (.rejected hr) hc' .reached
    cases hr
  | @rejected j fs gs'' s' x hc' ha hr' =>
    obtain ⟨rfl, rfl, rfl⟩ := course_unique hc (.rejected hr) hc' (.rejected hr')
    obtain rfl : e = x := hr.unique hr'
    exact ⟨s', rfl, ha, by simpa using h.lookahead ha⟩

theorem Faces.run_of_not_course (h : s.Faces ts)
    (hn : ¬ ∃ k es, Course g (padded ts k).kind gs (firstOf ts k) es []) :
    ∃ k es gs' s' e, run g gs s = (.error (.grammar (s'.rejection gs' e)), (s'.reject e.text).2) ∧
      Course g (padded ts k).kind gs (firstOf ts k) es gs' ∧ s.Advances (firstOf ts k) es s' ∧
      g.Rejects (padded ts k).kind gs' e ∧ s'.lookahead = padded ts k := by
  have hv : Verdict g ts gs s (run g gs s) := h.run_verdict
  generalize run g gs s = r at hv ⊢
  cases hv with
  | reached hc => exact absurd ⟨_, _, hc⟩ hn
  | @rejected k es gs' s' e hc ha hr =>
    exact ⟨k, es, gs', s', e, rfl, hc, ha, hr, by simpa using h.lookahead ha⟩

end Session

end StatementLang
