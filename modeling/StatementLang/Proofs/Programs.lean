import StatementLang.Proofs.Words
import StatementLang.Session.Call

/-!
The courses of a statement part and of a whole program are the walks of their trees.

A statement part closes with a keyword that nothing goes on with, so it does not matter what
follows it; in a program it is the end of the text.
-/

namespace StatementLang

open StatementLang.Symbol StatementLang.Nonterminal StatementLang.Choice Grammar.Language Forest

theorem Grammar.language_plain : Grammar.language.Plain where
  body n := by cases n <;> rfl
  select c k new h := by
    have ht : ∀ new ∈ c.taken, Goal.openPhrases new = [] := by cases c <;> decide
    have hb : ∀ new ∈ c.bypass, Goal.openPhrases new = [] := by cases c <;> decide
    rcases select_cases h with ⟨-, -, -, -, hmem⟩ | hmem
    · exact ht new hmem
    · exact hb new hmem

lemma Forest.IsBody.stops_statementPart {c : Forest} (h : IsBody statementPart c) (k : Kind) :
    c.Stops statementPart k := by
  obtain ⟨qs, hq, hd⟩ := h
  simp only [productions, List.mem_singleton] at hq
  subst hq
  simp only [derives_symbol_iff, derives_phrase_iff, derives_nil_iff] at hd
  obtain ⟨t, r, rfl, -, c, r', rfl, -, t', r'', rfl, -, rfl⟩ := hd
  exact ⟨rfl, trivial⟩

lemma parsed_statementPart_iff {c : Forest} {k : Kind} :
    Parsed statementPart k c ↔ IsBody statementPart c :=
  parsed_iff.trans (and_iff_left_of_imp fun h => h.stops_statementPart k)

def Forest.IsStatementPart (f : Forest) : Prop :=
  ∃ c, f = .node statementPart c .nil ∧ IsBody statementPart c

variable {k : Kind} {us : List Token} {es : List Event} {f : Forest}

lemma builds_statementPart_iff :
    Builds Grammar.language k [.phrase statementPart] f ↔ f.IsStatementPart := by
  rw [Builds.phrase_iff]
  constructor
  · rintro ⟨c, rest, rfl, hc, hrest⟩
    obtain rfl := Builds.nil_iff.1 hrest
    exact ⟨c, rfl, parsed_statementPart_iff.1 hc⟩
  · rintro ⟨c, rfl, hc⟩
    exact ⟨c, .nil, rfl, parsed_statementPart_iff.2 hc, .nil k⟩

theorem course_statementPart_iff :
    Course Grammar.language k [.phrase statementPart] us es [] ↔
      ∃ f : Forest, f.IsStatementPart ∧ us = f.tokens ∧ es = f.walk := by
  rw [Course.reaches_end_iff Grammar.language_plain rfl]
  simp only [builds_statementPart_iff]

theorem course_program_iff :
    Course Grammar.language k Session.programGoals us es [] ↔
      ∃ (f : Forest) (t : Token), f.IsStatementPart ∧ t.IsEnd ∧ us = f.tokens ++ [t] ∧
        es = f.walk ++ [.ofToken t] := by
  constructor
  · intro h
    have h' : Course Grammar.language k ([.phrase statementPart] ++ [.token endOfFile]) us es [] :=
      h
    obtain ⟨f, vs, fs, hf, hc, rfl, rfl⟩ := h'.exists_builds Grammar.language_plain rfl
    cases hc with
    | token ht hc =>
      cases hc
      exact ⟨f, _, builds_statementPart_iff.1 hf, ht, rfl, rfl⟩
  · rintro ⟨f, t, hf, ht, rfl, rfl⟩
    have hend : Course Grammar.language k [.token endOfFile] [t] [.ofToken t] [] :=
      .token ht (.refl [])
    exact ((course_statementPart_iff.2 ⟨f, hf, rfl, rfl⟩).frame _).trans hend

/-! ### Words of a statement part -/

/-- Tokens are of the kinds of a word of a statement part. -/
def SpellStatementPart (us : List Token) : Prop :=
  ∃ w, Word statementPart w ∧ us.map Token.kind = w.map Kind.known

/-- **The words of a statement part** are what its courses take. -/
theorem exists_course_statementPart_iff :
    (∃ es, Course Grammar.language k [.phrase statementPart] us es []) ↔
      SpellStatementPart us := by
  constructor
  · rintro ⟨es, h⟩
    obtain ⟨f, ⟨c, rfl, hc⟩, rfl, -⟩ := course_statementPart_iff.1 h
    obtain ⟨w, hw, hs⟩ := hc.exists_word
    exact ⟨w, hw, by simpa [Spells] using hs⟩
  · rintro ⟨w, hw, hus⟩
    obtain ⟨c, hc, hs⟩ := hw.exists_isBody
    have hcourse := (course_statementPart_iff (k := k)).2 ⟨_, ⟨c, rfl, hc⟩, rfl, rfl⟩
    refine hcourse.of_kinds ?_
    rw [tokens_node, tokens_nil, List.append_nil, hus, hs]

theorem exists_course_program_iff {t : Token} :
    (∃ es, Course Grammar.language k Session.programGoals (us ++ [t]) es []) ↔
      SpellStatementPart us ∧ t.IsEnd := by
  rw [← exists_course_statementPart_iff (k := k)]
  constructor
  · rintro ⟨es, h⟩
    obtain ⟨f, t', hf, ht, hus, -⟩ := course_program_iff.1 h
    obtain ⟨rfl, ht'⟩ := List.append_inj' hus rfl
    obtain rfl := List.singleton_inj.1 ht'
    exact ⟨⟨_, course_statementPart_iff.2 ⟨f, hf, rfl, rfl⟩⟩, ht⟩
  · rintro ⟨⟨es, h⟩, ht⟩
    obtain ⟨f, hf, rfl, -⟩ := course_statementPart_iff.1 h
    exact ⟨_, course_program_iff.2 ⟨f, t, hf, ht, rfl, rfl⟩⟩

end StatementLang
