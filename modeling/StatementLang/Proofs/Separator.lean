import Mathlib.Data.List.Chain
import StatementLang.Proofs.Viable

/-!
Where a statement is expected.

A list of statements begins behind a word that opens it, and goes on behind a separator; nowhere
else is a statement expected. This shows in the goals that are left, and every step preserves it
(`Course.guarded`). Behind a separator a list may also end, if the word that closes its block comes
next; so the word that closes an until statement is taken there just in the block of an until
statement (`until_ahead`).
-/

namespace StatementLang

open StatementLang.Symbol StatementLang.Nonterminal StatementLang.Choice Grammar.Language

/-- The goals with which a list begins, or goes on. -/
def listGoals : List Goal :=
  [.phrase statementList, .phrase statement, .choice statementForm, .choice afterSeparator]

/-- The tokens behind which a list begins or goes on, with the goal behind each of them. -/
def listOpenings : List (Symbol × Goal) :=
  (semicolon, .choice afterSeparator) ::
    [kwBegin, kwLoop, kwDo, kwThen, kwElse].map fun x => (x, .phrase statementList)

/-- A goal may stand before another: a list begins behind a token only, and behind the right one. -/
def Goal.MayPrecede (a b : Goal) : Prop :=
  b ∈ listGoals → ∃ o ∈ listOpenings, a = .token o.1 ∧ b = o.2

instance : DecidableRel Goal.MayPrecede := fun a b => by
  unfold Goal.MayPrecede
  infer_instance

/-- Lists only begin where they may. -/
abbrev Guarded (gs : List Goal) : Prop := gs.IsChain Goal.MayPrecede

variable {k : Kind} {n : Nonterminal} {c : Choice} {a : Goal} {gs gs' new : List Goal}

lemma mem_of_select (hs : Grammar.language.select c k = .ok new) : new ∈ c.taken ++ c.bypass := by
  rcases select_cases hs with ⟨-, -, -, -, hnew⟩ | hnew
  · exact List.mem_append_left _ hnew
  · exact List.mem_append_right _ hnew

lemma not_mem_of_guarded (h : Guarded (a :: gs)) (ha : ∀ x, a ≠ .token x) :
    ∀ b ∈ gs.head?, b ∉ listGoals := by
  intro b hb hmem
  obtain ⟨o, -, ho, -⟩ := (List.isChain_cons.1 h).1 b hb hmem
  exact ha _ ho

lemma guarded_append (hnew : Guarded new) (hgs : Guarded gs)
    (h : ∀ b ∈ gs.head?, b ∉ listGoals) : Guarded (new ++ gs) :=
  List.isChain_append.2 ⟨hnew, hgs, fun _ _ b hb hmem => absurd hmem (h b hb)⟩

lemma guarded_expand (h : Guarded (.phrase n :: gs)) :
    Guarded (Grammar.language.body n ++ .leave n :: gs) := by
  have hbody : Guarded (Grammar.language.body n) := by
    cases n <;> decide
  have hhead := not_mem_of_guarded h nofun
  refine guarded_append hbody (List.isChain_cons.2 ⟨fun b hb hmem => ?_, h.tail⟩) ?_
  · exact absurd hmem (hhead b hb)
  · rintro b ⟨⟩ hmem
    simp [listGoals] at hmem

lemma guarded_chosen (hs : Grammar.language.select c k = .ok new)
    (h : Guarded (.choice c :: gs)) : Guarded (new ++ gs) := by
  refine guarded_append ?_ h.tail (not_mem_of_guarded h nofun)
  have hall : ∀ new ∈ c.taken ++ c.bypass, Guarded new := by
    cases c <;> decide
  exact hall new (mem_of_select hs)

theorem Course.guarded {ts : List Token} {es : List Event}
    (h : Course Grammar.language k gs ts es gs') (hg : Guarded gs) : Guarded gs' := by
  induction h with
  | refl => exact hg
  | token _ _ ih => exact ih hg.tail
  | phrase _ ih => exact ih (guarded_expand hg)
  | leave _ ih => exact ih hg.tail
  | choice hs _ ih => exact ih (guarded_chosen hs hg)

lemma Course.head_mem_listGoals {ts : List Token} {es : List Event}
    (h : Course Grammar.language k gs ts es gs') (hts : ts = [])
    (hgs' : gs'.head? = some (.choice statementForm)) (hg : Guarded gs) :
    ∃ b ∈ gs.head?, b ∈ listGoals := by
  -- Without a token, goals are only opened, one inside the other, from the first one on.
  induction h with
  | refl => exact ⟨_, hgs', by decide⟩
  | token => cases hts
  | @phrase n gs _ _ _ _ ih =>
    obtain ⟨b, hb, hmem⟩ := ih hts hgs' (guarded_expand hg)
    have hbody : ∀ b ∈ (Grammar.language.body n).head?, b ∈ listGoals → .phrase n ∈ listGoals := by
      cases n <;> decide
    have hhead : b ∈ (Grammar.language.body n).head? := by
      cases n <;> exact hb
    exact ⟨_, rfl, hbody b hhead hmem⟩
  | leave _ ih =>
    obtain ⟨b, hb, hmem⟩ := ih hts hgs' hg.tail
    exact absurd hmem (not_mem_of_guarded hg nofun b hb)
  | @choice c gs _ new _ _ hs _ ih =>
    obtain ⟨b, hb, hmem⟩ := ih hts hgs' (guarded_chosen hs hg)
    rcases new with _ | ⟨a, new⟩
    · exact absurd hmem (not_mem_of_guarded hg nofun b hb)
    · obtain rfl : a = b := Option.some.inj hb
      have hall : ∀ new ∈ c.taken ++ c.bypass, ∀ b ∈ new.head?, b ∈ listGoals →
          .choice c ∈ listGoals := by
        cases c <;> decide
      exact ⟨_, rfl, hall _ (mem_of_select hs) a rfl hmem⟩

/-! ### What closes a list -/

/-- What is left behind the lists that end before it. -/
def closing : List Goal → List Goal
  | .choice moreStatements :: gs => closing gs
  | .leave statementList :: gs => closing gs
  | gs => gs

/-- The innermost phrase that is neither a statement nor a list, of some phrases innermost first. -/
def enclosing (ns : List Nonterminal) : Option Nonterminal :=
  (ns.dropWhile (· ∈ [statement, statementList])).head?

/-- The block around goals is an until statement, or another block. -/
def inUntil (gs : List Goal) : Bool := enclosing (Goal.openPhrases gs) = some untilStatement

/-- Behind the lists that end here comes the word that closes the block around them. -/
def Closes (gs : List Goal) : Bool :=
  match closing gs with
  | .token kwUntil :: _ => inUntil gs
  | .token kwEnd :: _ => !inUntil gs
  | .choice elseBranch :: .token kwEnd :: _ => !inUntil gs
  | _ => false

/-- Every list, and every choice to go on with one, is closed by the word for its block. -/
def Enclosed : List Goal → Bool
  | [] => true
  | .phrase statementList :: gs => Closes gs && Enclosed gs
  | .choice moreStatements :: gs => Closes gs && Enclosed gs
  | .choice afterSeparator :: gs => Closes gs && Enclosed gs
  | .choice elseBranch :: gs => Closes gs && Enclosed gs
  | _ :: gs => Enclosed gs

@[simp] lemma closes_moreStatements : Closes (.choice moreStatements :: gs) = Closes gs := rfl

@[simp] lemma closes_leave : Closes (.leave statementList :: gs) = Closes gs := by
  simp [Closes, closing, inUntil, Goal.openPhrases, enclosing]

lemma enclosed_expand (h : Enclosed (.phrase n :: gs)) :
    Enclosed (Grammar.language.body n ++ .leave n :: gs) := by
  change Enclosed (body n ++ .leave n :: gs)
  cases n <;> simp_all [Enclosed, body, Closes, closing, inUntil, Goal.openPhrases, enclosing]

lemma enclosed_chosen (hs : Grammar.language.select c k = .ok new)
    (h : Enclosed (.choice c :: gs)) : Enclosed (new ++ gs) := by
  have hall : ∀ new ∈ c.taken ++ c.bypass, Enclosed (new ++ gs) := by
    cases c <;>
      simp_all [Enclosed, Choice.taken, Choice.bypass, addingOperators, multiplyingOperators]
  exact hall new (mem_of_select hs)

theorem Course.enclosed {ts : List Token} {es : List Event}
    (h : Course Grammar.language k gs ts es gs') (hg : Enclosed gs) : Enclosed gs' := by
  induction h with
  | refl => exact hg
  | token _ _ ih => exact ih hg
  | phrase _ ih => exact ih (enclosed_expand hg)
  | @leave n gs _ _ _ _ ih => exact ih hg
  | choice hs _ ih => exact ih (enclosed_chosen hs hg)

lemma course_closing (gs : List Goal) :
    ∃ es, Course Grammar.language (.known kwUntil) gs [] es (closing gs) := by
  fun_induction closing gs with
  | case1 gs ih =>
    obtain ⟨es, h⟩ := ih
    have hs : Grammar.language.select moreStatements (.known kwUntil) = .ok [] := rfl
    exact ⟨es, .choice hs h⟩
  | case2 gs ih =>
    obtain ⟨es, h⟩ := ih
    exact ⟨_, .leave h⟩
  | case3 gs => exact ⟨[], .refl gs⟩

lemma course_of_closes (h : Closes gs) :
    ∃ es rest, Course Grammar.language (.known kwUntil) gs [] es
      (.token (if inUntil gs then kwUntil else kwEnd) :: rest) := by
  obtain ⟨es, hc⟩ := course_closing gs
  unfold Closes at h
  split at h
  · next rest hrest =>
    rw [if_pos h]
    exact ⟨es, rest, hrest ▸ hc⟩
  · next rest hrest =>
    rw [if_neg (by simpa using h)]
    exact ⟨es, rest, hrest ▸ hc⟩
  · next rest hrest =>
    rw [hrest] at hc
    rw [if_neg (by simpa using h)]
    have hs : Grammar.language.select elseBranch (.known kwUntil) = .ok [] := rfl
    have hend : Course Grammar.language (.known kwUntil)
        (.choice elseBranch :: .token kwEnd :: rest) [] [] (.token kwEnd :: rest) :=
      .choice hs (.refl _)
    exact ⟨es ++ [], rest, Course.trans hc hend⟩
  · cases h

/-! ### The last token before a statement -/

lemma Course.split_last {g : Grammar} {us : List Token} {t : Token} {es : List Event}
    (h : Course g k gs (us ++ [t]) es gs') :
    ∃ x es₁ es₂ gs₁, t.kind = .known x ∧ Course g t.kind gs us es₁ (.token x :: gs₁) ∧
      Course g k gs₁ [] es₂ gs' := by
  generalize hts : us ++ [t] = ts at h
  induction h generalizing us with
  | refl => simp at hts
  | @token x t₀ gs gs' ts es ht h ih =>
    rcases us with _ | ⟨u, us⟩
    · cases hts
      exact ⟨x, [], es, gs, ht, .refl _, h⟩
    · cases hts
      obtain ⟨y, es₁, es₂, gs₁, hk, h₁, h₂⟩ := ih rfl
      exact ⟨y, _, es₂, gs₁, hk, .token ht h₁, h₂⟩
  | phrase _ ih =>
    obtain ⟨y, es₁, es₂, gs₁, hk, h₁, h₂⟩ := ih hts
    exact ⟨y, _, es₂, gs₁, hk, .phrase h₁, h₂⟩
  | leave _ ih =>
    obtain ⟨y, es₁, es₂, gs₁, hk, h₁, h₂⟩ := ih hts
    exact ⟨y, _, es₂, gs₁, hk, .leave h₁, h₂⟩
  | choice hc _ ih =>
    obtain ⟨y, es₁, es₂, gs₁, hk, h₁, h₂⟩ := ih hts
    rw [← hts, ahead_append, ahead_cons] at hc
    exact ⟨y, es₁, es₂, gs₁, hk, .choice hc h₁, h₂⟩

lemma Course.eq_of_statementForm {es : List Event} {e : Expectation}
    (h : Course Grammar.language k (.choice statementForm :: gs) [] es gs')
    (hr : Grammar.language.select statementForm k = .error e) :
    gs' = .choice statementForm :: gs := by
  cases h with
  | refl => rfl
  | choice hs =>
    rw [ahead_nil, hr] at hs
    cases hs

lemma Course.eq_of_statementList {es : List Event} {e : Expectation}
    (h : Course Grammar.language k (.phrase statementList :: gs) [] es
      (.choice statementForm :: gs'))
    (hr : Grammar.language.select statementForm k = .error e) :
    gs' = .leave statement :: .choice moreStatements :: .leave statementList :: gs := by
  obtain _ | _ | h := h
  obtain _ | _ | h := h
  exact List.tail_eq_of_cons_eq (h.eq_of_statementForm hr)

lemma Course.eq_of_afterSeparator {es : List Event} {e : Expectation}
    (h : Course Grammar.language k (.choice afterSeparator :: gs) [] es
      (.choice statementForm :: gs'))
    (hr : Grammar.language.select statementForm k = .error e)
    (hg : Guarded (.choice afterSeparator :: gs)) :
    gs' = .leave statement :: .choice moreStatements :: .leave statementList ::
      .choice moreStatements :: gs := by
  cases h with
  | @choice _ _ _ new _ _ hs h =>
    have hnew : new = [] ∨ new = [.phrase statementList, .choice moreStatements] := by
      simpa [Choice.taken, Choice.bypass] using mem_of_select hs
    rcases hnew with rfl | rfl
    · obtain ⟨b, hb, hmem⟩ := h.head_mem_listGoals rfl rfl hg.tail
      exact absurd hmem (not_mem_of_guarded hg nofun b hb)
    · exact h.eq_of_statementList hr

/-- **What comes of the closing word of an until statement where a statement is expected**: behind a
separator, and in the block of an until statement, it is wanted; anywhere else another word is. -/
theorem until_ahead {ts : List Token} {es : List Event} {e : Expectation}
    (h : Course Grammar.language k Session.programGoals ts es (.choice statementForm :: gs'))
    (hr : Grammar.language.select statementForm k = .error e) :
    ∃ fs x rest, Course Grammar.language (.known kwUntil) Session.programGoals ts fs
        (.token x :: rest) ∧
      (x = kwUntil ↔ (∃ us t, ts = us ++ [t] ∧ t.kind = .known semicolon) ∧ inUntil gs') := by
  have hguard : Guarded Session.programGoals := by decide
  have hencl : Enclosed Session.programGoals := rfl
  rcases List.eq_nil_or_concat' ts with rfl | ⟨us, t, rfl⟩
  · obtain ⟨b, hb, hmem⟩ := h.head_mem_listGoals rfl rfl hguard
    cases hb
    simp [listGoals] at hmem
  obtain ⟨x, es₁, es₂, gs₁, hk, h₁, h₂⟩ := h.split_last
  have hguard := h₁.guarded hguard
  have hencl : Enclosed gs₁ := h₁.enclosed hencl
  -- with the last token taken, what is behind it decides
  have hjoin {fs : List Event} {y : Symbol} {rest : List Goal}
      (h₃ : Course Grammar.language (.known kwUntil) gs₁ [] fs (.token y :: rest)) :
      Course Grammar.language (.known kwUntil) Session.programGoals (us ++ [t])
        (es₁ ++ .ofToken t :: fs) (.token y :: rest) :=
    Course.trans h₁ (.token hk h₃)
  obtain ⟨b, hb, hmem⟩ := h₂.head_mem_listGoals rfl rfl hguard.tail
  obtain ⟨rest, rfl⟩ := List.head?_eq_some_iff.1 hb
  obtain ⟨o, ho, hx, rfl⟩ := (List.isChain_cons.1 hguard).1 b hb hmem
  obtain rfl : x = o.1 := Goal.token.inj hx
  rcases List.mem_cons.1 ho with rfl | ho
  · -- behind a separator the list ends
    have hcloses : Closes rest ∧ Enclosed rest := by simpa [Enclosed] using hencl
    obtain ⟨fs, rest', hcourse⟩ := course_of_closes hcloses.1
    have hs : Grammar.language.select afterSeparator (.known kwUntil) = .ok [] := rfl
    refine ⟨_, _, _, hjoin (.choice hs hcourse), ?_⟩
    have hin : inUntil gs' = inUntil rest := by
      rw [h₂.eq_of_afterSeparator hr hguard.tail]
      simp [inUntil, Goal.openPhrases, enclosing]
    rw [hin]
    by_cases hu : inUntil rest
    · rw [if_pos hu]
      exact iff_of_true rfl ⟨⟨us, t, rfl, hk⟩, hu⟩
    · rw [if_neg hu]
      exact iff_of_false (by decide) fun h => hu h.2
  · -- behind a word that opens a list, an until statement is begun
    obtain ⟨y, hy, rfl⟩ := List.mem_map.1 ho
    have hs : Grammar.language.select statementForm (.known kwUntil) =
        .ok [.phrase untilStatement] := rfl
    refine ⟨_, kwDo, _, hjoin (.phrase (.phrase (.choice hs (.phrase (.refl _))))), ?_⟩
    refine iff_of_false (by decide) ?_
    rintro ⟨⟨vs, u, hvs, hu⟩, -⟩
    obtain ⟨-, rfl⟩ := List.append_singleton_inj.1 hvs
    rw [hk, Kind.known.injEq] at hu
    subst hu
    simp at hy

end StatementLang
