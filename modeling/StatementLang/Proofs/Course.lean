import Mathlib.Tactic.Lemma
import StatementLang.Event
import StatementLang.Grammar

/-!
The course of a derivation over tokens, apart from sources, sinks and logs.

`Course g next gs ts es gs'` says that the goals `gs` take the tokens `ts`, with the events `es`,
and come to the goals `gs'`, when a token of the kind `next` follows. Only kinds decide
(`Course.exists_of_kinds`), and two courses over one sequence of tokens that both have come to their
end are the same (`Course.unique`).
-/

namespace StatementLang

/-- The kind of the token ahead: the first of some tokens, or the one that follows them. -/
def ahead (next : Kind) : List Token → Kind
  | [] => next
  | t :: _ => t.kind

@[simp] lemma ahead_nil (next : Kind) : ahead next [] = next := rfl
@[simp] lemma ahead_cons (next : Kind) (t : Token) (ts : List Token) :
    ahead next (t :: ts) = t.kind := rfl

lemma ahead_append (next : Kind) (ts us : List Token) :
    ahead next (ts ++ us) = ahead (ahead next us) ts := by
  cases ts <;> rfl

lemma ahead_of_kinds {ts us : List Token} (h : us.map Token.kind = ts.map Token.kind)
    (next : Kind) : ahead next us = ahead next ts := by
  cases ts <;> cases us <;> simp_all

lemma ahead_eq {ts us rest rest' : List Token} {p q : Token}
    (h : ts ++ p :: rest = us ++ q :: rest') : ahead p.kind ts = ahead q.kind us := by
  cases ts <;> cases us <;> simp_all

/-- What an event tells but for values and places. -/
def Event.shape (e : Event) : Event.Tag × String × Option Kind :=
  (e.tag, e.name, e.token.map Token.kind)

inductive Course (g : Grammar) (next : Kind) :
    List Goal → List Token → List Event → List Goal → Prop
  | refl (gs : List Goal) : Course g next gs [] [] gs
  | token {x : Symbol} {t : Token} {gs gs' : List Goal} {ts : List Token} {es : List Event}
    (ht : t.kind = .known x) (h : Course g next gs ts es gs') :
    Course g next (.token x :: gs) (t :: ts) (.ofToken t :: es) gs'
  | phrase {n : Nonterminal} {gs gs' : List Goal} {ts : List Token} {es : List Event}
    (h : Course g next (g.body n ++ .leave n :: gs) ts es gs') :
    Course g next (.phrase n :: gs) ts (.ofEnter n.name :: es) gs'
  | leave {n : Nonterminal} {gs gs' : List Goal} {ts : List Token} {es : List Event}
    (h : Course g next gs ts es gs') :
    Course g next (.leave n :: gs) ts (.ofLeave n.name :: es) gs'
  | choice {c : Choice} {gs gs' new : List Goal} {ts : List Token} {es : List Event}
    (hc : g.select c (ahead next ts) = .ok new) (h : Course g next (new ++ gs) ts es gs') :
    Course g next (.choice c :: gs) ts es gs'

/-- Goals that cannot go on when a token of kind `k` is ahead, and what they expect instead. -/
inductive Grammar.Rejects (g : Grammar) (k : Kind) : List Goal → Expectation → Prop
  | token {x : Symbol} (h : k ≠ .known x) (gs : List Goal) :
    Rejects g k (.token x :: gs) (.symbol x)
  | choice {c : Choice} {e : Expectation} (h : g.select c k = .error e) (gs : List Goal) :
    Rejects g k (.choice c :: gs) e

lemma Grammar.Rejects.unique {g : Grammar} {k : Kind} {gs : List Goal} {e e' : Expectation}
    (h : g.Rejects k gs e) (h' : g.Rejects k gs e') : e = e' := by
  cases h with
  | token => cases h'; rfl
  | choice hc =>
    cases h' with
    | choice hc' => exact Except.error.inj (hc.symm.trans hc')

/-- Goals at which a course has come to its end when a token of kind `k` is ahead. -/
inductive Grammar.Final (g : Grammar) (k : Kind) : List Goal → Prop
  | reached : Final g k []
  | rejected {gs : List Goal} {e : Expectation} (h : g.Rejects k gs e) : Final g k gs

namespace Course

variable {g : Grammar} {next : Kind} {gs gs' : List Goal} {ts : List Token} {es : List Event}

theorem trans {gs'' : List Goal} {us : List Token} {fs : List Event}
    (h : Course g (ahead next us) gs ts es gs') (h' : Course g next gs' us fs gs'') :
    Course g next gs (ts ++ us) (es ++ fs) gs'' := by
  induction h with
  | refl gs => exact h'
  | token ht _ ih => exact .token ht (ih h')
  | phrase _ ih => exact .phrase (ih h')
  | leave _ ih => exact .leave (ih h')
  | choice hc _ ih => exact .choice (by rwa [ahead_append]) (ih h')

theorem frame (h : Course g next gs ts es gs') (hs : List Goal) :
    Course g next (gs ++ hs) ts es (gs' ++ hs) := by
  induction h with
  | refl gs => exact .refl _
  | token ht _ ih => exact .token ht ih
  | phrase _ ih => exact .phrase (by simpa using ih)
  | leave _ ih => exact .leave ih
  | choice hc _ ih => exact .choice hc (by simpa using ih)

theorem exists_of_kinds (h : Course g next gs ts es gs') {us : List Token}
    (hu : us.map Token.kind = ts.map Token.kind) :
    ∃ fs, Course g next gs us fs gs' ∧ fs.map Event.shape = es.map Event.shape := by
  induction h generalizing us with
  | refl gs =>
    rw [List.map_nil, List.map_eq_nil_iff] at hu
    exact ⟨[], hu ▸ .refl gs, rfl⟩
  | @token x t gs gs' ts es ht _ ih =>
    obtain ⟨u, us, rfl⟩ := List.exists_cons_of_ne_nil (l := us) (by rintro rfl; simp at hu)
    simp only [List.map_cons, List.cons.injEq] at hu
    obtain ⟨fs, hfs, hshape⟩ := ih hu.2
    have htoken : (Event.ofToken u).shape = (Event.ofToken t).shape := by
      simp [Event.shape, Event.ofToken, hu.1]
    exact ⟨_, .token (hu.1.trans ht) hfs, by rw [List.map_cons, List.map_cons, htoken, hshape]⟩
  | phrase _ ih =>
    obtain ⟨fs, hfs, hshape⟩ := ih hu
    exact ⟨_, .phrase hfs, congrArg (_ :: ·) hshape⟩
  | leave _ ih =>
    obtain ⟨fs, hfs, hshape⟩ := ih hu
    exact ⟨_, .leave hfs, congrArg (_ :: ·) hshape⟩
  | choice hc _ ih =>
    obtain ⟨fs, hfs, hshape⟩ := ih hu
    exact ⟨_, .choice (by rwa [ahead_of_kinds hu]) hfs, hshape⟩

theorem of_kinds (h : Course g next gs ts es gs') {us : List Token}
    (hu : us.map Token.kind = ts.map Token.kind) : ∃ fs, Course g next gs us fs gs' :=
  (h.exists_of_kinds hu).imp fun _ hfs => hfs.1

lemma eq_of_final {us rest rest' : List Token} {fs : List Event} {p q : Token}
    (hf : g.Final p.kind gs) (h : Course g q.kind gs us fs gs')
    (hr : p :: rest = us ++ q :: rest') : us = [] ∧ fs = [] ∧ gs' = gs := by
  have hk : ahead p.kind [] = ahead q.kind us := ahead_eq hr
  cases h with
  | refl => exact ⟨rfl, rfl, rfl⟩
  | token ht =>
    rcases hf with _ | ⟨hx⟩ | _
    exact absurd (hk.trans ht) hx
  | phrase => rcases hf with _ | h; cases h
  | leave => rcases hf with _ | h; cases h
  | choice hc =>
    rcases hf with _ | _ | hc'
    rw [← hk, ahead_nil, hc'] at hc
    cases hc

theorem goes_on {gs₁ gs₂ : List Goal} {us rest rest' : List Token} {fs : List Event} {p q : Token}
    (h₁ : Course g p.kind gs ts es gs₁) (h₂ : Course g q.kind gs us fs gs₂)
    (hf₂ : g.Final q.kind gs₂) (hr : ts ++ p :: rest = us ++ q :: rest') :
    ∃ vs hs, us = ts ++ vs ∧ fs = es ++ hs ∧ Course g q.kind gs₁ vs hs gs₂ := by
  -- The courses go in step, because the goals and the token ahead decide on what comes next. The
  -- second one cannot stop before the first, or its goals would not be at their end.
  induction h₁ generalizing us fs with
  | refl gs => exact ⟨us, fs, rfl, rfl, h₂⟩
  | token ht h₁ ih =>
    cases h₂ with
    | refl =>
      have := eq_of_final hf₂ (.token ht h₁) hr.symm
      simp at this
    | token _ h₂ =>
      simp only [List.cons_append, List.cons.injEq] at hr
      obtain ⟨rfl, hr⟩ := hr
      obtain ⟨vs, hs, rfl, rfl, h⟩ := ih h₂ hr
      exact ⟨vs, hs, rfl, rfl, h⟩
  | phrase h₁ ih =>
    cases h₂ with
    | refl => rcases hf₂ with _ | h; cases h
    | phrase h₂ =>
      obtain ⟨vs, hs, rfl, rfl, h⟩ := ih h₂ hr
      exact ⟨vs, hs, rfl, rfl, h⟩
  | leave h₁ ih =>
    cases h₂ with
    | refl => rcases hf₂ with _ | h; cases h
    | leave h₂ =>
      obtain ⟨vs, hs, rfl, rfl, h⟩ := ih h₂ hr
      exact ⟨vs, hs, rfl, rfl, h⟩
  | choice hc h₁ ih =>
    rw [ahead_eq hr] at hc
    cases h₂ with
    | refl =>
      rcases hf₂ with _ | _ | hc'
      simp only [ahead_nil] at hc
      rw [hc'] at hc
      cases hc
    | choice hc' h₂ =>
      rw [hc'] at hc
      cases hc
      exact ih h₂ hr

/-- **Two courses over one sequence of tokens** that have come to their end are the same. -/
theorem unique {gs₁ gs₂ : List Goal} {us rest rest' : List Token} {fs : List Event} {p q : Token}
    (h₁ : Course g p.kind gs ts es gs₁) (hf₁ : g.Final p.kind gs₁)
    (h₂ : Course g q.kind gs us fs gs₂) (hf₂ : g.Final q.kind gs₂)
    (hr : ts ++ p :: rest = us ++ q :: rest') : ts = us ∧ es = fs ∧ gs₁ = gs₂ := by
  obtain ⟨vs, hs, rfl, rfl, h⟩ := h₁.goes_on h₂ hf₂ hr
  have hrest : p :: rest = vs ++ q :: rest' := by simpa using hr
  obtain ⟨rfl, rfl, rfl⟩ := eq_of_final hf₁ h hrest
  simp

end Course

end StatementLang
