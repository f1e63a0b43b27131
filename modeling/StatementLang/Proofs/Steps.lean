import Mathlib.Logic.Relation
import StatementLang.Session.Run

/-!
The steps of a run.

A run goes from configuration to configuration, each the goals that are left and the session so
far. What a single step can do is said once, by `Step` and `Stuck`; a run either reaches every goal
or comes to a configuration that is stuck (`run_ends`).
-/

namespace StatementLang.Session

open Relation

/-- The goals that are left, and the session so far. -/
abbrev Config := List Goal × Session

/-- What one step of a run can do. -/
inductive Step (g : Grammar) : Config → Config → Prop
  | token {x : Symbol} {gs : List Goal} {s s' : Session} {t : Token}
    (h : s.accept (.known x) = (.ok t, s')) : Step g (.token x :: gs, s) (gs, s')
  | phrase (n : Nonterminal) (gs : List Goal) (s : Session) :
    Step g (.phrase n :: gs, s) (g.body n ++ .leave n :: gs, s.enter n)
  | leave (n : Nonterminal) (gs : List Goal) (s : Session) :
    Step g (.leave n :: gs, s) (gs, s.leave n)
  | choice {c : Choice} {gs new : List Goal} {s : Session}
    (h : g.select c s.lookahead.kind = .ok new) : Step g (.choice c :: gs, s) (new ++ gs, s)

/-- Why a configuration has no step, and the session after the failure. -/
inductive Stuck (g : Grammar) : Config → Failure × Session → Prop
  | token {x : Symbol} {gs : List Goal} {s s' : Session} {f : Failure}
    (h : s.accept (.known x) = (.error f, s')) : Stuck g (.token x :: gs, s) (f, s')
  | choice {c : Choice} {gs : List Goal} {s : Session} {e : Expectation}
    (h : g.select c s.lookahead.kind = .error e) :
    Stuck g (.choice c :: gs, s) (s.reject e.text)

/-- The configurations that a run comes to. -/
abbrev Reaches (g : Grammar) : Config → Config → Prop := ReflTransGen (Step g)

variable {g : Grammar}

/-- How a run ends, as a property of what it returns. -/
inductive Ends (g : Grammar) (c : Config) : Except Failure Unit × Session → Prop
  | done {s : Session} (h : Reaches g c ([], s)) : Ends g c (.ok (), s)
  | failed {c' : Config} {f : Failure} {s : Session} (h : Reaches g c c')
    (hf : Stuck g c' (f, s)) :
    Ends g c (.error (f.within (Goal.openPhrases c'.1) s.lookahead.line), s)

lemma Ends.head {c c' : Config} {r : Except Failure Unit × Session} (h : Step g c c')
    (hr : Ends g c' r) : Ends g c r := by
  cases hr with
  | done hs => exact .done (hs.head h)
  | failed hs hf => exact .failed (hs.head h) hf

/-- **A run ends** with every goal reached, or with the failure of the configuration at which it
is stuck, as it passes through the phrases that are open there. -/
theorem run_ends (gs : List Goal) (s : Session) : Ends g (gs, s) (run g gs s) := by
  fun_induction run g gs s with
  | case1 s => exact .done .refl
  | case2 s x gs t s' h _ ih => exact ih.head (.token h)
  | case3 s x gs f s' h => exact .failed .refl (.token h)
  | case4 s n gs _ ih => exact ih.head (.phrase n gs s)
  | case5 s n gs ih => exact ih.head (.leave n gs s)
  | case6 s c gs new h _ ih => exact ih.head (.choice h)
  | case7 s c gs e h f s' hr =>
    have hf : Stuck g (.choice c :: gs, s) (s.reject e.text) := .choice h
    rw [hr] at hf
    exact .failed .refl hf

/-! ### Taking a token -/

/-- What comes of taking a token of a symbol. -/
inductive Taken (s : Session) (x : Symbol) : Except Failure Token × Session → Prop
  | taken {t : Token} {source : TokenSource} {sink : Sink} (hk : s.lookahead.kind = .known x)
    (hsink : s.sink.token s.lookahead = .ok sink) (hn : s.source.next = (.ok t, source)) :
    Taken s x (.ok s.lookahead,
      ⟨source, t, sink, s.used, .accepted s.lookahead :: s.latest⟩)
  | fault {e : LexError} {source : TokenSource} {sink : Sink} (hk : s.lookahead.kind = .known x)
    (hsink : s.sink.token s.lookahead = .ok sink) (hn : s.source.next = (.error e, source)) :
    Taken s x (.error (.lexical e),
      ⟨source, s.lookahead, sink, s.used, .accepted s.lookahead :: s.latest⟩)
  | rejected (hk : s.lookahead.kind ≠ .known x) :
    Taken s x (.error (s.reject x.bracketed).1, (s.reject x.bracketed).2)

lemma exists_token (sink : Sink) {t : Token} {x : Symbol} (h : t.kind = .known x) :
    ∃ sink', sink.token t = .ok sink' := by
  unfold Sink.token
  split
  · exact ⟨_, rfl⟩
  · exact ⟨_, rfl⟩
  · rw [h, Kind.name_known]
    exact ⟨_, rfl⟩

theorem accept_taken (s : Session) (x : Symbol) : Taken s x (s.accept (.known x)) := by
  unfold accept
  by_cases hk : s.lookahead.kind = .known x
  · obtain ⟨sink, hsink⟩ := exists_token s.sink hk
    rw [if_pos hk, hsink]
    rcases hn : s.source.next with ⟨e | t, source⟩
    · exact .fault hk hsink hn
    · exact .taken hk hsink hn
  · rw [if_neg hk, Kind.name_known]
    exact .rejected hk

end StatementLang.Session
