import StatementLang.Proofs.Viable

/-!
Goals that fit can be completed.

Every phrase has a word. So goals that fit can be reached by some tokens, the first of which is one
that they want (`exists_completion`); and a course that ends with a rejection is the beginning of
one that reaches every goal (`Course.exists_extension`).
-/

namespace StatementLang

open StatementLang.Symbol StatementLang.Nonterminal StatementLang.Choice Grammar.Language Forest

lemma word_condition : Word condition [identifier, equal, identifier] :=
  .comparison (.operator (by decide)) (by decide)

lemma word_statementList : Word statementList [identifier, becomes, string] :=
  .list (l := []) (.form (by decide) .assignString) (by simp) (.inl rfl)

lemma word_expression : Word expression [identifier] :=
  .oneTerm (.oneFactor (.operand (by decide)))

lemma exists_word (n : Nonterminal) : ∃ w, Word n w := by
  cases n with
  | statementPart => exact ⟨_, .part word_statementList⟩
  | statementList => exact ⟨_, word_statementList⟩
  | statement => exact ⟨_, .form (by decide) .assignString⟩
  | assignment => exact ⟨_, .assignString⟩
  | expression => exact ⟨_, word_expression⟩
  | term => exact ⟨_, .oneFactor (.operand (List.mem_cons_self ..))⟩
  | factor => exact ⟨_, .operand (List.mem_cons_self ..)⟩
  | whileStatement => exact ⟨_, .whileLoop word_condition word_statementList⟩
  | forStatement =>
    exact ⟨_, .forLoop .assignString word_condition .assignString word_statementList⟩
  | ifStatement => exact ⟨_, .ifThen word_condition word_statementList⟩
  | procedureCall => exact ⟨_, .callEmpty⟩
  | argumentList => exact ⟨_, .arguments (l := []) nofun⟩
  | untilStatement => exact ⟨_, .untilLoop word_statementList word_condition⟩
  | condition => exact ⟨_, word_condition⟩
  | conditionalOperator => exact ⟨_, .operator (List.mem_cons_self ..)⟩

/-! ### Completions -/

/-- The goals are reached by some tokens, before a token of the symbol `z`; the first token ahead
of them is one that they want. -/
def Completes (z : Symbol) (gs : List Goal) : Prop :=
  ∃ us es y, Course Grammar.language (.known z) gs us es [] ∧
    ahead (.known z) us = .known y ∧ y ∈ wants [z] gs

namespace Completes

variable {z x : Symbol} {gs : List Goal} {n : Nonterminal} {c : Choice}

lemma token (x : Symbol) (h : Completes z gs) : Completes z (.token x :: gs) := by
  obtain ⟨us, es, y, hc, -, -⟩ := h
  exact ⟨⟨.known x, "", 0, 0⟩ :: us, _, x, .token rfl hc, rfl, List.mem_singleton_self x⟩

lemma leave (n : Nonterminal) (h : Completes z gs) : Completes z (.leave n :: gs) := by
  obtain ⟨us, es, y, hc, hy, hw⟩ := h
  exact ⟨us, _, y, .leave hc, hy, hw⟩

lemma phrase (h : Completes z gs) (hf : wants [z] gs ⊆ follow n) :
    Completes z (.phrase n :: gs) := by
  obtain ⟨us, es, y, hc, hy, hw⟩ := h
  obtain ⟨w, hword⟩ := exists_word n
  obtain ⟨f, hbody, -⟩ := hword.exists_isBody
  have hparsed : Parsed n (ahead (.known z) us) f := by
    rw [hy]
    exact parsed_iff.2 ⟨hbody, hbody.stops (hf hw)⟩
  have hcourse : Course Grammar.language (.known z) (.phrase n :: gs) (f.tokens ++ us)
      (.ofEnter n.name :: (f.walk ++ .ofLeave n.name :: es)) [] :=
    .phrase ((hparsed.course.frame (.leave n :: gs)).trans (.leave hc))
  obtain ⟨t, ts, hts, hk⟩ := hparsed.begins
  obtain ⟨x, hx, hxt⟩ := List.mem_map.1 hk
  exact ⟨_, _, x, hcourse, by rw [hts]; exact hxt.symm, hx⟩

lemma bypass (new : List Goal) (h : Completes z (new ++ gs)) (hb : new ∈ c.bypass)
    (hf : wants [z] gs ⊆ c.followers) : Completes z (.choice c :: gs) := by
  obtain ⟨us, es, y, hc, hy, hw⟩ := h
  rw [wants_append] at hw
  have hs : Grammar.language.select c (ahead (.known z) us) = .ok new := by
    rw [hy]
    exact select_of_wants hb (wants_mono hf new hw)
  exact ⟨us, es, y, .choice hs hc, hy, wants_bypass hb hw⟩

lemma chosen (h : Completes z gs) (hs : Grammar.language.select c (.known x) = .ok [.token x])
    (hx : x ∈ c.own) : Completes z (.choice c :: gs) := by
  obtain ⟨us, es, y, hc, -, -⟩ := h
  refine ⟨⟨.known x, "", 0, 0⟩ :: us, _, x, .choice hs (.token rfl hc), rfl, ?_⟩
  exact List.mem_append_left _ hx

end Completes

/-- **Goals that fit can be completed.** -/
theorem exists_completion {z : Symbol} {gs : List Goal} (hf : Fits [z] gs) : Completes z gs := by
  induction gs with
  | nil => exact ⟨[], [], z, .refl [], rfl, List.mem_singleton_self z⟩
  | cons a gs ih =>
    cases a with
    | token x => exact (ih hf).token x
    | leave n => exact (ih hf).leave n
    | phrase n =>
      simp only [Fits, Bool.and_eq_true, decide_eq_true_eq] at hf
      exact (ih hf.2).phrase hf.1
    | choice c =>
      simp only [Fits, Bool.and_eq_true, decide_eq_true_eq] at hf
      have h := ih hf.2
      cases c with
      | moreStatements | afterSeparator | moreTerms | moreFactors | elseBranch | arguments
      | moreArguments => exact Completes.bypass [] h (by decide) hf.1
      | statementForm =>
        have hassign : wants [z] gs ⊆ follow assignment := fun s hs => by
          have : ∀ s ∈ follow statement, s ∈ follow assignment := by decide
          exact this s (hf.1 hs)
        exact Completes.bypass [.phrase assignment] (h.phrase hassign) (by decide) hf.1
      | assignedValue =>
        have hexpression := h.phrase (n := expression) hf.1
        exact Completes.bypass [.phrase expression] hexpression (by decide) hf.1
      | factorForm | comparand => exact h.chosen (x := identifier) rfl (by decide)
      | relation => exact h.chosen (x := equal) rfl (by decide)

theorem Course.exists_extension {z : Symbol} {k : Kind} {gs gs' : List Goal} {ts : List Token}
    {es : List Event} {e : Expectation} (h : Course Grammar.language k gs ts es gs')
    (hf : Fits [z] gs) (hr : Grammar.language.Rejects k gs' e) :
    ∃ us fs, Course Grammar.language (.known z) gs (ts ++ us) (es ++ fs) [] := by
  obtain ⟨us, fs, y, hc, hy, hw⟩ := exists_completion (h.fits hf)
  have hy' : Course Grammar.language (ahead (.known z) us) gs ts es gs' := by
    rw [hy]
    exact (h.retarget hf hr hw).1
  exact ⟨us, fs, hy'.trans hc⟩

end StatementLang
