import StatementLang.Proofs.Upcoming
import StatementLang.Session.Call

/-!
Two sessions side by side.

A source mirrors another one if it never fails and answers as the other does, up to the first fault
of the other. Sessions that differ in such sources only go through the same derivation in lockstep:
each act and each call comes to the same on both (`Session.Mirrors.perform`), unless the source that
may fail does so.
-/

namespace StatementLang

namespace TokenSource

/-- Some answer of the source is a fault. -/
def Faulty (a : TokenSource) : Prop := ∃ i e, a.answer i = .error e

/-- The source `b` never fails, and it answers as `a` does until `a` fails. -/
def Mirrors (b a : TokenSource) : Prop :=
  ∀ i, ∃ t, b.answer i = .ok t ∧
    ((∀ j ≤ i, ∃ u, a.answer j = .ok u) → a.answer i = .ok t)

variable {a a' b : TokenSource} {t : Token}

lemma Faulty.of_next (hn : a.next = (.ok t, a')) (h : a'.Faulty) : a.Faulty := by
  obtain ⟨i, e, he⟩ := h
  refine ⟨i + 1, e, ?_⟩
  rw [answer, after, hn]
  exact he

lemma Mirrors.next (h : b.Mirrors a) :
    (∃ e a', a.next = (.error e, a')) ∨
    ∃ t a' b', a.next = (.ok t, a') ∧ b.next = (.ok t, b') ∧ b'.Mirrors a' := by
  rcases ha : a.next with ⟨e | u, a'⟩
  · exact .inl ⟨e, a', rfl⟩
  · right
    have ha0 : a.answer 0 = .ok u := congrArg Prod.fst ha
    have hasucc : ∀ i, a.answer (i + 1) = a'.answer i := fun i => by
      rw [answer, after, ha]
      rfl
    obtain ⟨t, hb, hat⟩ := h 0
    have hu : a.answer 0 = .ok t := hat fun j hj => ⟨u, by rwa [Nat.le_zero.1 hj]⟩
    obtain rfl : u = t := Except.ok.inj (ha0.symm.trans hu)
    refine ⟨u, a', b.next.2, rfl, Prod.ext hb rfl, fun i => ?_⟩
    obtain ⟨t, hbt, hat⟩ := h (i + 1)
    refine ⟨t, hbt, fun hok => ?_⟩
    rw [← hasucc]
    refine hat fun j hj => ?_
    rcases j with _ | j
    · exact ⟨u, ha0⟩
    · rw [hasucc]
      exact hok j (Nat.le_of_succ_le_succ hj)

end TokenSource

/-! ### Sessions -/

namespace Session

/-- The session `t` is as far as `s`, and its source mirrors that of `s`. -/
structure Mirrors (t s : Session) : Prop where
  lookahead_eq : t.lookahead = s.lookahead
  sink_eq : t.sink = s.sink
  used_eq : t.used = s.used
  latest_eq : t.latest = s.latest
  source : t.source.Mirrors s.source

/-- What a call comes to on a session, and on its mirror: the same, or the former's source holds
a fault and the call ends there. -/
def Alike {α : Type} (source : TokenSource) (r r' : Except Failure α × Session) : Prop :=
  (source.Faulty ∧ ∃ e, r.1 = .error (.lexical e)) ∨ r'.1 = r.1 ∧ r'.2.Mirrors r.2

variable {g : Grammar} {s t : Session}

lemma Alike.of_next {α : Type} {a a' : TokenSource} {u : Token}
    {r r' : Except Failure α × Session} (hn : a.next = (.ok u, a')) (h : Alike a' r r') :
    Alike a r r' :=
  h.imp_left fun hf => ⟨hf.1.of_next hn, hf.2⟩

lemma Alike.map {α β : Type} (f : α → β) {a : TokenSource} {r r' : Except Failure α × Session}
    (h : Alike a r r') :
    Alike a (Prod.map (·.map f) id r) (Prod.map (·.map f) id r') := by
  rcases h with ⟨hfault, e, he⟩ | ⟨heq, hm⟩
  · exact .inl ⟨hfault, e, congrArg (·.map f) he⟩
  · exact .inr ⟨congrArg (·.map f) heq, hm⟩

namespace Mirrors

lemma enter (h : t.Mirrors s) (n : Nonterminal) : (t.enter n).Mirrors (s.enter n) where
  lookahead_eq := h.lookahead_eq
  sink_eq := congrArg (·.enter n.name) h.sink_eq
  used_eq := h.used_eq
  latest_eq := by simp [Session.enter, note, h.lookahead_eq, h.latest_eq]
  source := h.source

lemma leave (h : t.Mirrors s) (n : Nonterminal) : (t.leave n).Mirrors (s.leave n) where
  lookahead_eq := h.lookahead_eq
  sink_eq := congrArg (·.leave n.name) h.sink_eq
  used_eq := h.used_eq
  latest_eq := by simp [Session.leave, note, h.latest_eq]
  source := h.source

lemma reject (h : t.Mirrors s) (expected : String) :
    (t.reject expected).1 = (s.reject expected).1 ∧
      (t.reject expected).2.Mirrors (s.reject expected).2 := by
  simp only [Session.reject, h.lookahead_eq, h.sink_eq]
  exact ⟨trivial, h.lookahead_eq, h.sink_eq, h.used_eq, by simp [note, h.latest_eq], h.source⟩

lemma accept (h : t.Mirrors s) (k : Kind) :
    Alike s.source (s.accept k) (t.accept k) := by
  obtain ⟨hahead, hsink, hused, hlatest, hsource⟩ := h
  unfold Session.accept
  rw [hahead, hsink]
  split
  · split
    · exact .inr ⟨rfl, hahead, hsink, hused, hlatest, hsource⟩
    · next sink _ =>
      rcases hsource.next with ⟨e, a', ha⟩ | ⟨u, a', b', ha, hb, hmirrors⟩
      · rw [ha]
        exact .inl ⟨⟨0, e, congrArg Prod.fst ha⟩, e, rfl⟩
      · rw [ha, hb]
        refine .inr ⟨rfl, rfl, rfl, hused, ?_, hmirrors⟩
        simp [note, hlatest]
  · split
    · exact .inr ⟨rfl, hahead, hsink, hused, hlatest, hsource⟩
    · next name _ =>
      obtain ⟨heq, hm⟩ := reject ⟨hahead, hsink, hused, hlatest, hsource⟩ ("<" ++ name ++ ">")
      exact .inr ⟨congrArg Except.error heq, hm⟩

theorem run (h : t.Mirrors s) (gs : List Goal) :
    Alike s.source (run g gs s) (run g gs t) := by
  fun_induction Session.run g gs s generalizing t with
  | case1 s => exact .inr ⟨by rw [run_nil], by rwa [run_nil]⟩
  | case2 s x gs u s' hacc _ ih =>
    have htaken := h.accept (.known x)
    rcases ht : t.accept (.known x) with ⟨r, t'⟩
    rw [hacc, ht] at htaken
    rcases htaken with ⟨-, e, he⟩ | ⟨rfl, hm⟩
    · cases he
    · rw [run_token_ok g gs t ht]
      exact (ih hm).of_next (of_accept hacc).2.2
  | case3 s x gs f s' hacc =>
    have htaken := h.accept (.known x)
    rcases ht : t.accept (.known x) with ⟨r, t'⟩
    rw [hacc, ht] at htaken
    rcases htaken with ⟨hfault, e, he⟩ | ⟨rfl, hm⟩
    · cases he
      exact .inl ⟨hfault, e, rfl⟩
    · rw [run_token_error g gs t ht]
      exact .inr ⟨by rw [hm.lookahead_eq], hm⟩
  | case4 s n gs _ ih =>
    rw [run_phrase]
    exact ih (h.enter n)
  | case5 s n gs ih =>
    rw [run_leave]
    exact ih (h.leave n)
  | case6 s c gs new hc _ ih =>
    rw [run_choice_ok g gs t (by rwa [h.lookahead_eq])]
    exact ih h
  | case7 s c gs e hc f s' hr =>
    have hreject := h.reject e.text
    rw [hr] at hreject
    rw [run_choice_error g gs t (by rwa [h.lookahead_eq]), hreject.1, hreject.2.lookahead_eq]
    exact .inr ⟨rfl, hreject.2⟩

lemma claim (h : t.Mirrors s) (gs : List Goal) :
    Alike s.source (s.claim g gs) (t.claim g gs) := by
  have hclaimed : Mirrors { t with used := true } { s with used := true } :=
    ⟨h.lookahead_eq, h.sink_eq, rfl, h.latest_eq, h.source⟩
  unfold Session.claim
  rw [h.used_eq]
  split
  · exact .inr ⟨rfl, h⟩
  · exact hclaimed.run gs

lemma succeed (h : t.Mirrors s) :
    Mirrors ({ t with sink := t.sink.succeed }.note (.success t.sink.label))
      ({ s with sink := s.sink.succeed }.note (.success s.sink.label)) where
  lookahead_eq := h.lookahead_eq
  sink_eq := congrArg Sink.succeed h.sink_eq
  used_eq := h.used_eq
  latest_eq := by simp [note, h.sink_eq, h.latest_eq]
  source := h.source

lemma parseProgram (h : t.Mirrors s) :
    Alike s.source (s.parseProgram g) (t.parseProgram g) := by
  have hclaim := h.claim (g := g) programGoals
  unfold Session.parseProgram
  rcases hs : s.claim g programGoals with ⟨r, s'⟩
  rcases ht : t.claim g programGoals with ⟨r', t'⟩
  rw [hs, ht] at hclaim
  rcases hclaim with ⟨hfault, e, he⟩ | ⟨heq, hm⟩
  · obtain rfl : r = .error (.lexical e) := he
    exact .inl ⟨hfault, e, rfl⟩
  · obtain rfl : r' = r := heq
    rcases r' with f | _
    · exact .inr ⟨rfl, hm⟩
    · exact .inr ⟨rfl, hm.succeed⟩

/-- **Every call comes to the same** on a session and its mirror. -/
theorem perform (h : t.Mirrors s) (call : Call) :
    Alike s.source (s.perform g call) (t.perform g call) := by
  cases call with
  | program => exact h.parseProgram.map _
  | statementPart => exact (h.claim [.phrase .statementPart]).map _
  | accept k => exact (h.accept k).map _
  | phrase n => exact (h.run [.phrase n]).map _

end Mirrors

end Session

end StatementLang
