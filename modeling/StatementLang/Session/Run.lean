import StatementLang.Session

/-!
Running goals: a derivation from left to right under a grammar, one goal at a time.

The goals still to be reached stand in a list, in which an open phrase is the goal of leaving it.
A failure passes through the phrases that are open. A run ends because every goal either takes a
token, which brings the end of the text closer, or makes the goals before the next token worth
less. A run can be cut in two between any goals (`run_append`).

Phrases may nest to any depth. A derivation by nested calls has a greatest depth and needs headroom
for it; neither has a counterpart here, so no run fails for being too deep.
-/

namespace StatementLang

/-- The phrases that are open while goals are still to be reached, the innermost first. -/
def Goal.openPhrases : List Goal → List Nonterminal
  | [] => []
  | .leave n :: gs => n :: openPhrases gs
  | _ :: gs => openPhrases gs

theorem Goal.openPhrases_append (as bs : List Goal) :
    openPhrases (as ++ bs) = openPhrases as ++ openPhrases bs := by
  induction as with
  | nil => rfl
  | cons a as ih => cases a <;> simp [openPhrases, ih]

theorem Failure.within_append (f : Failure) (inner outer : List Nonterminal) (line : Int) :
    f.within (inner ++ outer) line = (f.within inner line).within outer line := by
  cases f <;> simp [within, List.foldl_append]

namespace Session

theorem run_decreases_token (g : Grammar) (gs : List Goal) {s s' : Session} {x : Symbol}
    {t : Token} (h : s.accept (.known x) = (.ok t, s')) :
    Prod.Lex (· < ·) (· < ·) (s'.distance, g.lead gs) (s.distance, g.lead (.token x :: gs)) := by
  rw [Prod.lex_def]
  by_cases hx : x = .endOfFile
  · rcases Nat.lt_or_eq_of_le (distance_accept_le h) with hd | hd
    · exact .inl hd
    · exact .inr ⟨hd, by simp [Grammar.lead, Goal.lead, hx]⟩
  · exact .inl (distance_accept h hx)

/-- Reaches goals one after the other. -/
def run (g : Grammar) (goals : List Goal) (s : Session) : Except Failure Unit × Session :=
  match goals with
  | [] => (.ok (), s)
  | .token x :: gs =>
    match h : s.accept (.known x) with
    | (.ok _, s') =>
      have := run_decreases_token g gs h
      run g gs s'
    | (.error f, s') => (.error (f.within (Goal.openPhrases gs) s'.lookahead.line), s')
  | .phrase n :: gs =>
    have := g.lead_expand n gs
    run g (g.body n ++ .leave n :: gs) (s.enter n)
  | .leave n :: gs => run g gs (s.leave n)
  | .choice c :: gs =>
    match h : g.select c s.lookahead.kind with
    | .ok new =>
      have := Grammar.lead_chosen h gs
      run g (new ++ gs) s
    | .error expectation =>
      let (f, s') := s.reject expectation.text
      (.error (f.within (Goal.openPhrases gs) s'.lookahead.line), s')
termination_by (s.distance, g.lead goals)
decreasing_by
  · assumption
  · exact Prod.Lex.right _ this
  · exact Prod.Lex.right _ (by simp [Grammar.lead, Goal.lead])
  · exact Prod.Lex.right _ this

/-! ### The run, goal by goal -/

variable (g : Grammar) (gs : List Goal) (s : Session)

@[simp] theorem run_nil : run g [] s = (.ok (), s) := by
  rw [run]

theorem run_token_ok {x : Symbol} {t : Token} {s' : Session}
    (h : s.accept (.known x) = (.ok t, s')) : run g (.token x :: gs) s = run g gs s' := by
  rw [run]
  split
  · next h' => rw [h] at h'; cases h'; rfl
  · next h' => rw [h] at h'; cases h'

theorem run_token_error {x : Symbol} {f : Failure} {s' : Session}
    (h : s.accept (.known x) = (.error f, s')) :
    run g (.token x :: gs) s =
      (.error (f.within (Goal.openPhrases gs) s'.lookahead.line), s') := by
  rw [run]
  split
  · next h' => rw [h] at h'; cases h'
  · next h' => rw [h] at h'; cases h'; rfl

@[simp] theorem run_phrase (n : Nonterminal) :
    run g (.phrase n :: gs) s = run g (g.body n ++ .leave n :: gs) (s.enter n) := by
  rw [run]

@[simp] theorem run_leave (n : Nonterminal) :
    run g (.leave n :: gs) s = run g gs (s.leave n) := by
  rw [run]

theorem run_choice_ok {c : Choice} {new : List Goal}
    (h : g.select c s.lookahead.kind = .ok new) :
    run g (.choice c :: gs) s = run g (new ++ gs) s := by
  rw [run]
  split
  · next h' => rw [h] at h'; cases h'; rfl
  · next h' => rw [h] at h'; cases h'

theorem run_choice_error {c : Choice} {e : Expectation}
    (h : g.select c s.lookahead.kind = .error e) :
    run g (.choice c :: gs) s =
      (.error ((s.reject e.text).1.within (Goal.openPhrases gs)
        (s.reject e.text).2.lookahead.line), (s.reject e.text).2) := by
  rw [run]
  split
  · next h' => rw [h] at h'; cases h'
  · next h' => rw [h] at h'; cases h'; rfl

/-- Goals are reached in two parts as in one, except that a failure in the first part also passes
through the phrases that the second would have left. -/
theorem run_append (as bs : List Goal) :
    run g (as ++ bs) s = match run g as s with
      | (.ok (), s') => run g bs s'
      | (.error f, s') => (.error (f.within (Goal.openPhrases bs) s'.lookahead.line), s') := by
  fun_induction run g as s with
  | case1 s => simp
  | case2 s x gs t s' h _ ih => rw [List.cons_append, run_token_ok _ _ _ h, ih]
  | case3 s x gs f s' h =>
    rw [List.cons_append, run_token_error _ _ _ h, Goal.openPhrases_append]
    simp [Failure.within_append]
  | case4 s n gs _ ih => rw [List.cons_append, run_phrase, ← ih]; simp
  | case5 s n gs ih => rw [List.cons_append, run_leave, ih]
  | case6 s c gs new h _ ih => rw [List.cons_append, run_choice_ok _ _ _ h, ← ih]; simp
  | case7 s c gs e h f s' hr =>
    rw [List.cons_append, run_choice_error _ _ _ h, Goal.openPhrases_append]
    simp [hr, Failure.within_append]

end Session

end StatementLang
