import StatementLang.Proofs.Programs

/-!
What may come next.

`wants F gs` are the symbols with which the goals `gs` can be gone on with, where `F` says the same
of what stands behind them. A loop or an option may be passed over; it is never entered, because
whoever enters it has its token ahead. Goals fit if what is behind each phrase may follow it.
Fitting is preserved by every step, and a course over fitting goals may be given another token
ahead, if its last goals want that token (`Course.retarget`). So a course that stops somewhere
does not hang on the token that it has seen and not taken.
-/

namespace StatementLang

open StatementLang.Symbol StatementLang.Nonterminal StatementLang.Choice Grammar.Language Forest

/-- Whether a choice can stand for no goals at all. -/
def Choice.optional : Choice → Bool
  | moreStatements | afterSeparator | moreTerms | moreFactors | elseBranch | arguments
  | moreArguments => true
  | statementForm | assignedValue | factorForm | comparand | relation => false

/-- The symbols that a choice wants for itself. -/
def Choice.own : Choice → List Symbol
  | moreStatements | moreTerms | moreFactors | elseBranch | moreArguments => []
  | afterSeparator => first statementList
  | statementForm => first statement
  | assignedValue => first expression
  | factorForm => first factor
  | arguments => first argumentList
  | comparand => comparands
  | relation => conditionalOperators

/-- The symbols that may follow the goals of a choice. -/
def Choice.followers : Choice → List Symbol
  | moreStatements | afterSeparator => follow statementList
  | statementForm => follow statement
  | assignedValue => follow assignment
  | moreTerms => follow expression
  | moreFactors => follow term
  | factorForm => follow factor
  | elseBranch => [kwEnd]
  | arguments | moreArguments => follow argumentList
  | comparand => follow condition
  | relation => follow conditionalOperator

/-- The symbols with which goals can be gone on with, before others that want the symbols `F`. -/
def wants (F : List Symbol) : List Goal → List Symbol
  | [] => F
  | .token x :: _ => [x]
  | .phrase n :: _ => first n
  | .leave _ :: gs => wants F gs
  | .choice c :: gs => c.own ++ if c.optional then wants F gs else []

/-- What is behind each phrase, and behind each choice, may follow it. -/
def Fits (F : List Symbol) : List Goal → Bool
  | [] => true
  | .token _ :: gs => Fits F gs
  | .phrase n :: gs => wants F gs ⊆ follow n && Fits F gs
  | .leave _ :: gs => Fits F gs
  | .choice c :: gs => wants F gs ⊆ c.followers && Fits F gs

variable {F F' : List Symbol} {gs hs new : List Goal} {c : Choice} {k : Kind}

lemma wants_append (as bs : List Goal) : wants F (as ++ bs) = wants (wants F bs) as := by
  induction as with
  | nil => rfl
  | cons a as ih => cases a <;> simp [wants, ih]

lemma fits_append (as bs : List Goal) :
    Fits F (as ++ bs) ↔ Fits (wants F bs) as ∧ Fits F bs := by
  induction as with
  | nil => simp [Fits]
  | cons a as ih => cases a <;> simp [Fits, wants_append, ih, and_assoc]

lemma wants_mono (h : F ⊆ F') (gs : List Goal) : wants F gs ⊆ wants F' gs := by
  induction gs with
  | nil => exact h
  | cons a gs ih =>
    cases a with
    | token | phrase => exact List.Subset.refl _
    | leave => exact ih
    | choice c =>
      simp only [wants]
      split
      · have hih := List.Subset.trans ih (List.subset_append_right c.own (wants F' gs))
        exact List.append_subset.2 ⟨List.subset_append_left .., hih⟩
      · exact List.Subset.refl _

lemma fits_mono (hF : F ⊆ F') (h : Fits F' gs) : Fits F gs := by
  induction gs with
  | nil => rfl
  | cons a gs ih =>
    cases a with
    | token | leave => exact ih h
    | phrase | choice =>
      simp only [Fits, Bool.and_eq_true, decide_eq_true_eq] at h ⊢
      exact ⟨List.Subset.trans (wants_mono hF gs) h.1, ih h.2⟩

/-! ### Steps preserve what fits -/

lemma fits_body (n : Nonterminal) : Fits (follow n) (Grammar.language.body n) := by
  cases n <;> decide

lemma wants_body (n : Nonterminal) (F : List Symbol) :
    wants F (Grammar.language.body n) = first n := by
  cases n <;> rfl

lemma fits_expand {n : Nonterminal} (h : Fits F (.phrase n :: gs)) :
    Fits F (Grammar.language.body n ++ .leave n :: gs) := by
  simp only [Fits, Bool.and_eq_true, decide_eq_true_eq] at h
  exact (fits_append ..).2 ⟨fits_mono h.1 (fits_body n), h.2⟩

lemma select_of_wants {y : Symbol} (h : new ∈ c.bypass) (hy : y ∈ wants c.followers new) :
    Grammar.language.select c (.known y) = .ok new := by
  have : ∀ new ∈ c.bypass, ∀ y ∈ wants c.followers new,
      (Grammar.language.select c (.known y)).toOption = some new := by
    cases c <;> decide
  have hsome := this new h y hy
  cases hs : Grammar.language.select c (.known y) with
  | error e => simp [hs, Except.toOption] at hsome
  | ok gs => simpa [hs, Except.toOption] using hsome

lemma fits_taken (h : new ∈ c.taken) : Fits c.followers new := by
  have : ∀ new ∈ c.taken, Fits c.followers new := by cases c <;> decide
  exact this new h

lemma fits_bypass (h : new ∈ c.bypass) : Fits c.followers new := by
  have : ∀ new ∈ c.bypass, Fits c.followers new := by cases c <;> decide
  exact this new h

lemma wants_bypass (h : new ∈ c.bypass) :
    wants (wants F gs) new ⊆ wants F (.choice c :: gs) := by
  have : ∀ new ∈ c.bypass, (new = [] ∧ c.optional) ∨ wants Symbol.all new ⊆ c.own := by
    cases c <;> decide
  rcases this new h with ⟨rfl, ho⟩ | ho
  · rw [wants, wants, if_pos ho]
    exact List.subset_append_right ..
  · have hall : wants F gs ⊆ Symbol.all := fun s _ => s.mem_all
    have hown := List.Subset.trans (wants_mono hall new) ho
    exact List.Subset.trans hown (List.subset_append_left ..)

lemma fits_chosen (hs : Grammar.language.select c k = .ok new) (h : Fits F (.choice c :: gs)) :
    Fits F (new ++ gs) := by
  simp only [Fits, Bool.and_eq_true, decide_eq_true_eq] at h
  refine (fits_append ..).2 ⟨fits_mono h.1 ?_, h.2⟩
  rcases select_cases hs with ⟨-, -, -, -, ht⟩ | hb
  · exact fits_taken ht
  · exact fits_bypass hb

namespace Course

variable {gs' : List Goal} {ts : List Token} {es : List Event}

theorem fits (h : Course Grammar.language k gs ts es gs') (hf : Fits F gs) : Fits F gs' := by
  induction h with
  | refl => exact hf
  | token _ _ ih => exact ih hf
  | phrase _ ih => exact ih (fits_expand hf)
  | leave _ ih => exact ih hf
  | choice hs _ ih => exact ih (fits_chosen hs hf)

lemma not_rejects_of_token {s : Symbol} {e : Expectation}
    (h : Course Grammar.language (.known s) (.token s :: gs) [] es gs') :
    ¬ Grammar.language.Rejects (.known s) gs' e := by
  cases h
  rintro (⟨hs⟩ | _)
  exact hs rfl

/-- **A course does not hang on the token that it has seen and not taken**: any token that its last
goals want may be ahead instead. -/
theorem retarget {e : Expectation} {y : Symbol}
    (h : Course Grammar.language k gs ts es gs') (hf : Fits F gs)
    (hr : Grammar.language.Rejects k gs' e) (hy : y ∈ wants F gs') :
    Course Grammar.language (.known y) gs ts es gs' ∧ (ts = [] → y ∈ wants F gs) := by
  induction h with
  | refl gs => exact ⟨.refl gs, fun _ => hy⟩
  | token ht _ ih => exact ⟨.token ht (ih hf hr hy).1, nofun⟩
  | @phrase n gs gs' ts es _ ih =>
    obtain ⟨hc, hw⟩ := ih (fits_expand hf) hr hy
    refine ⟨.phrase hc, fun hts => ?_⟩
    have := hw hts
    rwa [wants_append, wants_body] at this
  | leave _ ih =>
    obtain ⟨hc, hw⟩ := ih hf hr hy
    exact ⟨.leave hc, hw⟩
  | @choice c gs gs' new ts es hs h ih =>
    obtain ⟨hc, hw⟩ := ih (fits_chosen hs hf) hr hy
    rcases ts with _ | ⟨t, ts⟩
    · -- the choice has seen the token that is exchanged, so it cannot have gone on to take it
      rcases select_cases hs with ⟨s, goOn, rfl, rfl, -⟩ | hb
      · exact absurd hr h.not_rejects_of_token
      · have hwants : y ∈ wants (wants F gs) new := by
          rw [← wants_append]
          exact hw rfl
        simp only [Fits, Bool.and_eq_true, decide_eq_true_eq] at hf
        exact ⟨.choice (select_of_wants hb (wants_mono hf.1 new hwants)) hc,
          fun _ => wants_bypass hb hwants⟩
    · exact ⟨.choice hs hc, nofun⟩

end Course

end StatementLang
