import StatementLang.Proofs.Derivation
import StatementLang.Proofs.EarlyErrors
import StatementLang.Proofs.Edges

/-!
Where a separator may be left out.

Directly before a word that closes a list of statements, the list ends, however deep it lies in the
tree (`Forest.Derives.exists_around`). A list may take one separator behind it that has no statement
behind it, and nothing around the list changes by that (`Around.fill`). So before such a word one
separator may stand or not; and nowhere do two separators stand side by side.
-/

namespace StatementLang

open StatementLang.Symbol StatementLang.Nonterminal Forest TokenQueue Session

/-- What stands around a list of statements, in trees that stand for some parts: the tokens before
and behind the list, and the events. -/
inductive Around : List Part → List Token → List Token → List Event → List Event → Prop
  | list {ps : List Part} {rest : Forest} (h : Derives ps rest) :
    Around (.phrase statementList :: ps) [] rest.tokens [.ofEnter statementList.name]
      (.ofLeave statementList.name :: rest.walk)
  | inside {n : Nonterminal} {qs ps : List Part} {rest : Forest} {pre post : List Token}
    {as bs : List Event} (hq : qs ∈ productions n) (hc : Around qs pre post as bs)
    (h : Derives ps rest) :
    Around (.phrase n :: ps) pre (post ++ rest.tokens) (.ofEnter n.name :: as)
      (bs ++ .ofLeave n.name :: rest.walk)
  | behindToken {s : Symbol} {t : Token} {ps : List Part} {pre post : List Token}
    {as bs : List Event} (ht : t.kind = .known s) (h : Around ps pre post as bs) :
    Around (.symbol s :: ps) (t :: pre) post (.ofToken t :: as) bs
  | behindPhrase {n : Nonterminal} {c : Forest} {ps : List Part} {pre post : List Token}
    {as bs : List Event} (hc : IsBody n c) (h : Around ps pre post as bs) :
    Around (.phrase n :: ps) (c.tokens ++ pre) post
      (.ofEnter n.name :: (c.walk ++ .ofLeave n.name :: as)) bs

variable {ps : List Part} {pre post us vs : List Token} {as bs es es' : List Event}
  {f c c' : Forest} {s t : Token}

theorem Around.fill (h : Around ps pre post as bs) (hc : IsBody statementList c) :
    ∃ f, Derives ps f ∧ f.tokens = pre ++ c.tokens ++ post ∧ f.walk = as ++ c.walk ++ bs := by
  induction h with
  | @list ps rest h =>
    obtain ⟨qs, hq, hd⟩ := hc
    exact ⟨.node statementList c rest, .phrase hq hd h, rfl, by simp [walk]⟩
  | @inside n qs ps rest pre post as bs hq _ h ih =>
    obtain ⟨d, hd, htokens, hwalk⟩ := ih
    refine ⟨.node n d rest, .phrase hq hd h, ?_, ?_⟩
    · rw [tokens_node, htokens, List.append_assoc]
    · rw [walk, hwalk]
      simp
  | @behindToken s t ps pre post as bs ht _ ih =>
    obtain ⟨rest, hd, htokens, hwalk⟩ := ih
    refine ⟨.leaf t rest, .symbol ht hd, ?_, ?_⟩
    · rw [tokens_leaf, htokens]
      rfl
    · rw [walk, hwalk]
      rfl
  | @behindPhrase n d ps pre post as bs hb _ ih =>
    obtain ⟨qs, hq, hd⟩ := hb
    obtain ⟨rest, hd', htokens, hwalk⟩ := ih
    refine ⟨.node n d rest, .phrase hq hd hd', ?_, ?_⟩
    · rw [tokens_node, htokens]
      simp
    · rw [walk, hwalk]
      simp

/-- Only behind a list does a part begin with a word that closes one. -/
def ClosesList (p q : Part) : Prop := (∃ s ∈ listClosers, s ∈ q.first) → p = .phrase statementList

instance : DecidableRel ClosesList := fun p q =>
  inferInstanceAs (Decidable ((∃ s ∈ listClosers, s ∈ q.first) → p = .phrase statementList))

lemma closesList_productions {n : Nonterminal} {qs : List Part} (h : qs ∈ productions n) :
    qs.IsChain ClosesList := by
  have : ∀ qs ∈ productions n, qs.IsChain ClosesList := by cases n <;> decide
  exact this qs h

lemma eq_list_of_closes {p : Part} {rest : Forest} (hps : (p :: ps).IsChain ClosesList)
    (h : Derives ps rest) (ht : t.kind ∈ listClosers.map Kind.known)
    (hrest : rest.tokens = t :: vs) : p = .phrase statementList := by
  obtain ⟨q, hq, hk⟩ := h.head t (by rw [hrest]; rfl)
  exact (List.isChain_cons.1 hps).1 q hq (exists_mem_both ht hk)

theorem Forest.Derives.exists_around (h : Derives ps f) (hps : ps.IsChain ClosesList)
    (ht : t.kind ∈ listClosers.map Kind.known) (hus : us ≠ []) (hf : f.tokens = us ++ t :: vs) :
    ∃ c pre as bs, IsBody statementList c ∧ Around ps pre (t :: vs) as bs ∧
      us = pre ++ c.tokens := by
  induction h generalizing us vs with
  | nil =>
    have := congrArg List.length hf
    simp at this
  | @symbol x u ps rest hu h ih =>
    obtain ⟨v, us, rfl⟩ := List.exists_cons_of_ne_nil hus
    rw [tokens_leaf, List.cons_append, List.cons.injEq] at hf
    obtain ⟨rfl, hf⟩ := hf
    have hne : us ≠ [] := by
      rintro rfl
      exact absurd (eq_list_of_closes hps h ht hf) nofun
    obtain ⟨c, pre, as, bs, hc, haround, rfl⟩ := ih (List.isChain_cons.1 hps).2 hne hf
    exact ⟨c, u :: pre, _, bs, hc, .behindToken hu haround, rfl⟩
  | @phrase n qs ps children rest hq hc h ihc ih =>
    have hbody : IsBody n children := ⟨qs, hq, hc⟩
    have hbehind : ∀ us', us = children.tokens ++ us' → rest.tokens = us' ++ t :: vs →
        ∃ c pre as bs, IsBody statementList c ∧ Around (.phrase n :: ps) pre (t :: vs) as bs ∧
          us = pre ++ c.tokens := by
      rintro us' rfl hrest
      by_cases hus' : us' = []
      · -- the word is the first token behind the phrase, which is the list
        subst hus'
        obtain rfl : n = statementList := Part.phrase.inj (eq_list_of_closes hps h ht hrest)
        rw [← List.nil_append (t :: vs), ← hrest]
        exact ⟨children, [], _, _, hbody, .list h, List.append_nil _⟩
      · obtain ⟨c, pre, as, bs, hc', haround, rfl⟩ := ih (List.isChain_cons.1 hps).2 hus' hrest
        exact ⟨c, children.tokens ++ pre, _, bs, hc', .behindPhrase hbody haround,
          (List.append_assoc ..).symm⟩
    rcases List.append_eq_append_iff.1 hf with ⟨us', hus', hrest⟩ | ⟨ws, hchildren, hws⟩
    · exact hbehind us' hus' hrest
    · cases ws with
      | nil => exact hbehind [] (by simpa using hchildren.symm) (by simpa using hws.symm)
      | cons w ws =>
        rw [List.cons_append, List.cons.injEq] at hws
        obtain ⟨rfl, rfl⟩ := hws
        obtain ⟨c, pre, as, bs, hc', haround, rfl⟩ :=
          ihc (closesList_productions hq) hus hchildren
        exact ⟨c, pre, _, _, hc', .inside hq haround h, rfl⟩

/-! ### A separator behind a list -/

/-- The events `es'` are the events `es` and, directly behind the end of a statement, the separator
`s`. -/
def DifferBy (s : Token) (es es' : List Event) : Prop :=
  ∃ as bs, es = as ++ .ofLeave statement.name :: bs ∧
    es' = as ++ .ofLeave statement.name :: .ofToken s :: bs

lemma DifferBy.around (h : DifferBy s es es') (as bs : List Event) :
    DifferBy s (as ++ es ++ bs) (as ++ es' ++ bs) := by
  obtain ⟨as', bs', rfl, rfl⟩ := h
  exact ⟨as ++ as', bs' ++ bs, by simp, by simp⟩

/-- The list `c'` is the list `c` with the separator `s` behind it. -/
structure AddsSeparator (s : Token) (c c' : Forest) : Prop where
  isSeparator : s.kind = .known semicolon
  isBody : IsBody statementList c
  isBody' : IsBody statementList c'
  tokens_eq : c'.tokens = c.tokens ++ [s]
  differBy : DifferBy s c.walk c'.walk

lemma isBody_statementList_iff : IsBody statementList c ↔
    (∃ d, c = .node statement d .nil ∧ IsBody statement d) ∨
    (∃ d s, c = .node statement d (.leaf s .nil) ∧ IsBody statement d ∧
      s.kind = .known semicolon) ∨
    ∃ d s e, c = .node statement d (.leaf s (.node statementList e .nil)) ∧ IsBody statement d ∧
      s.kind = .known semicolon ∧ IsBody statementList e := by
  rw [IsBody]
  simp [productions]

lemma addsSeparator_statement {d : Forest} (hd : IsBody statement d)
    (hs : s.kind = .known semicolon) :
    AddsSeparator s (.node statement d .nil) (.node statement d (.leaf s .nil)) where
  isSeparator := hs
  isBody := isBody_statementList_iff.2 (.inl ⟨d, rfl, hd⟩)
  isBody' := isBody_statementList_iff.2 (.inr (.inl ⟨d, s, rfl, hd, hs⟩))
  tokens_eq := by simp
  differBy := ⟨.ofEnter statement.name :: d.walk, [], rfl, rfl⟩

lemma AddsSeparator.cons {d e e' : Forest} {u : Token} (h : AddsSeparator s e e')
    (hd : IsBody statement d) (hu : u.kind = .known semicolon) :
    AddsSeparator s (.node statement d (.leaf u (.node statementList e .nil)))
      (.node statement d (.leaf u (.node statementList e' .nil))) where
  isSeparator := h.isSeparator
  isBody := isBody_statementList_iff.2 (.inr (.inr ⟨d, u, e, rfl, hd, hu, h.isBody⟩))
  isBody' := isBody_statementList_iff.2 (.inr (.inr ⟨d, u, e', rfl, hd, hu, h.isBody'⟩))
  tokens_eq := by simp [h.tokens_eq]
  differBy := by
    have hwalk : ∀ r : Forest,
        (Forest.node statement d (.leaf u (.node statementList r .nil))).walk =
          (.ofEnter statement.name :: d.walk ++ [.ofLeave statement.name, .ofToken u,
            .ofEnter statementList.name]) ++ r.walk ++ [.ofLeave statementList.name] := by
      intro r
      simp [walk]
    rw [hwalk, hwalk]
    exact h.differBy.around _ _

/-- **A list takes one separator behind it**, unless it has one there. -/
theorem Forest.IsBody.adds_or_added (h : IsBody statementList c) :
    (∃ s c', AddsSeparator s c' c) ∨
      ((∀ t ∈ c.tokens.getLast?, t.kind ≠ .known semicolon) ∧
        ∀ s, s.kind = .known semicolon → ∃ c', AddsSeparator s c c') := by
  -- A separator at the end belongs to the innermost list, so the induction is on the nesting.
  induction hk : c.size using Nat.strongRecOn generalizing c with
  | ind k ih =>
    rcases isBody_statementList_iff.1 h with ⟨d, rfl, hd⟩ | ⟨d, u, rfl, hd, hu⟩ |
      ⟨d, u, e, rfl, hd, hu, he⟩
    · refine .inr ⟨fun t ht hsemi => ?_, fun s hs => ⟨_, addsSeparator_statement hd hs⟩⟩
      rw [tokens_node, tokens_nil, List.append_nil] at ht
      have hmem := hd.ends.getLast t ht
      rw [hsemi] at hmem
      exact absurd hmem (by decide)
    · exact .inl ⟨u, _, addsSeparator_statement hd hu⟩
    · have hlt : e.size < k := by
        simp only [← hk, size]
        omega
      rcases ih e.size hlt he rfl with ⟨s, e', hadds⟩ | ⟨hlast, hadds⟩
      · exact .inl ⟨s, _, hadds.cons hd hu⟩
      · refine .inr ⟨fun t ht => ?_, fun s hs => ?_⟩
        · obtain ⟨ts, v, hv, -⟩ := he.ends
          have htokens : (Forest.node statement d (.leaf u (.node statementList e .nil))).tokens =
              d.tokens ++ u :: ts ++ [v] := by simp [hv]
          rw [htokens, List.getLast?_concat] at ht
          exact hlast t (by rw [hv, List.getLast?_concat]; exact ht)
        · obtain ⟨e', he'⟩ := hadds s hs
          exact ⟨_, he'.cons hd hu⟩

namespace TokenQueue

variable {ws : List Token}

lemma closingOf_append (us : List Token) (hws : ws ≠ []) :
    closingOf (us ++ ws) = closingOf ws := by
  rw [closingOf, closingOf, List.getLast?_append_of_ne_nil us hws]

lemma padded_append (us : List Token) (hws : ws ≠ []) (i : Nat) :
    padded (us ++ ws) (us.length + i) = padded ws i := by
  rw [padded, padded, closingOf_append us hws, List.getElem?_append_right (Nat.le_add_right _ i),
    Nat.add_sub_cancel_left]

lemma firstOf_append (us : List Token) (hws : ws ≠ []) (i : Nat) :
    firstOf (us ++ ws) (us.length + i) = us ++ firstOf ws i := by
  have hus : firstOf (us ++ ws) us.length = us := by
    rw [firstOf_eq_take (by simp), List.take_left]
  have hbehind : (padded (us ++ ws)) ∘ (us.length + ·) = padded ws :=
    funext fun i => padded_append us hws i
  rw [firstOf, List.range_add, List.map_append, ← firstOf, hus, List.map_map, hbehind, firstOf]

lemma exists_add_of_isEnd (hus : ∀ u ∈ us, ¬ u.IsEnd) {ws : List Token} {k : Nat}
    (hk : (padded (us ++ ws) k).IsEnd) : ∃ j, k = us.length + j := by
  refine Nat.exists_eq_add_of_le (Nat.le_of_not_lt fun hlt => ?_)
  have hget : padded (us ++ ws) k = us[k] := by
    rw [padded_of_lt (by rw [List.length_append]; omega), List.getElem_append_left]
  exact hus _ (List.getElem_mem hlt) (hget ▸ hk)

end TokenQueue

/-- A fresh session over the tokens derives a program, whatever its sink, and tells a trace of the
events. -/
def Derived (ts : List Token) (es : List Event) : Prop :=
  ∀ sink, ∃ s', (fresh ts sink).parseProgram Grammar.language = (.ok (), s') ∧
    ∀ tr, sink.trace? = some tr →
      ∃ tr', s'.sink.trace? = some tr' ∧ tr'.eventsSince tr = es

lemma derived_of_tree {ws : List Token} {j : Nat} (hws : ws ≠ []) (hf : f.IsStatementPart)
    (hts : f.tokens = us ++ firstOf ws j) (hend : (padded ws j).IsEnd) :
    Derived (us ++ ws) (f.walk ++ [.ofToken (padded ws j)]) := by
  intro sink
  have hc : Course Grammar.language (padded (us ++ ws) (us.length + j + 1)).kind programGoals
      (firstOf (us ++ ws) (us.length + j + 1)) (f.walk ++ [.ofToken (padded ws j)]) [] := by
    rw [firstOf_succ, firstOf_append us hws, padded_append us hws, ← hts]
    exact course_program_iff.2 ⟨f, _, hf, hend, rfl, rfl⟩
  obtain ⟨s', hs', htrace⟩ := parseProgram_of_course sink hc
  refine ⟨s', hs', fun tr htr => ⟨_, htrace tr htr, ?_⟩⟩
  rw [Trace.eventsSince_succeed, Trace.eventsSince_recordAll]

lemma exists_tree {sink : Sink} {ws : List Token} (hws : ws ≠ []) (hus : ∀ u ∈ us, ¬ u.IsEnd)
    (h : Accepted sink (us ++ ws)) :
    ∃ j f, IsStatementPart f ∧ f.tokens = us ++ firstOf ws j ∧ (padded ws j).IsEnd := by
  obtain ⟨k, f, es, hf, htokens, hend, -⟩ := exists_walk_of_parseProgram (Prod.ext h rfl)
  obtain ⟨j, rfl⟩ := exists_add_of_isEnd hus hend
  rw [firstOf_append us hws] at htokens
  rw [padded_append us hws] at hend
  exact ⟨j, f, hf, htokens, hend⟩

lemma exists_firstOf_cons {j : Nat} (ht : ¬ t.IsEnd) (hend : (padded (t :: vs) j).IsEnd) :
    ∃ vs', firstOf (t :: vs) j = t :: vs' := by
  cases j with
  | zero => exact absurd hend ht
  | succ j =>
    obtain ⟨rest, hrest⟩ := TokenQueue.exists_firstOf (t :: vs) (Nat.succ_pos j)
    exact ⟨rest, hrest⟩

lemma derives_statementPart_iff : Derives [.phrase statementPart] f ↔ f.IsStatementPart := by
  simp only [derives_phrase_iff, derives_nil_iff]
  constructor
  · rintro ⟨c, rest, rfl, hc, rfl⟩
    exact ⟨c, rfl, hc⟩
  · rintro ⟨c, rfl, hc⟩
    exact ⟨c, .nil, rfl, hc, rfl⟩

lemma Forest.IsStatementPart.exists_around (h : f.IsStatementPart)
    (ht : t.kind ∈ listClosers.map Kind.known) (hf : f.tokens = us ++ t :: vs) :
    ∃ c pre as bs, IsBody statementList c ∧
      Around [.phrase statementPart] pre (t :: vs) as bs ∧ us = pre ++ c.tokens := by
  have hd := derives_statementPart_iff.2 h
  refine hd.exists_around (.singleton _) ht ?_ hf
  rintro rfl
  -- the first word of a program closes nothing
  obtain ⟨p, hp, hk⟩ := hd.head t (by rw [hf]; rfl)
  cases hp
  obtain ⟨s, hs, hs'⟩ := exists_mem_both ht hk
  have hno : ∀ s ∈ listClosers, s ∉ (Part.phrase statementPart).first := by decide
  exact hno s hs hs'

lemma Around.derived_both {ws : List Token} {j : Nat} (hws : ws ≠ [])
    (hend : (padded ws j).IsEnd)
    (h : Around [.phrase statementPart] pre (firstOf ws j) as bs) (hadds : AddsSeparator s c c') :
    ∃ es es', Derived (pre ++ c.tokens ++ ws) es ∧ Derived (pre ++ c.tokens ++ s :: ws) es' ∧
      DifferBy s es es' := by
  obtain ⟨f, hf, htokens, hwalk⟩ := h.fill hadds.isBody
  obtain ⟨f', hf', htokens', hwalk'⟩ := h.fill hadds.isBody'
  have hderived := derived_of_tree hws (derives_statementPart_iff.1 hf) htokens hend
  have hderived' := derived_of_tree hws (derives_statementPart_iff.1 hf') htokens' hend
  have htokens_eq : pre ++ c'.tokens ++ ws = pre ++ c.tokens ++ s :: ws := by
    simp [hadds.tokens_eq]
  rw [htokens_eq] at hderived'
  refine ⟨_, _, hderived, hderived', ?_⟩
  rw [hwalk, hwalk']
  have hdiffer := hadds.differBy.around as (bs ++ [.ofToken (padded ws j)])
  simpa using hdiffer

/-! ### Optional separators -/

lemma not_isEnd_of_closes (ht : t.kind ∈ listClosers.map Kind.known) : ¬ t.IsEnd := by
  intro hend
  rw [hend] at ht
  exact absurd ht (by decide)

lemma not_isEnd_of_separator (hs : s.kind = .known semicolon) : ¬ s.IsEnd := by
  rw [Token.IsEnd, hs]
  decide

lemma not_isEnd_snoc (hus : ∀ u ∈ us, ¬ u.IsEnd) (hs : s.kind = .known semicolon) :
    ∀ u ∈ us ++ [s], ¬ u.IsEnd := by
  intro u hu
  rcases List.mem_append.1 hu with hu | hu
  · exact hus u hu
  · exact List.mem_singleton.1 hu ▸ not_isEnd_of_separator hs

lemma Accepted.exists_list {sink : Sink} (h : Accepted sink (us ++ t :: vs))
    (hus : ∀ u ∈ us, ¬ u.IsEnd) (ht : t.kind ∈ listClosers.map Kind.known) :
    ∃ c pre as bs j, IsBody statementList c ∧ (padded (t :: vs) j).IsEnd ∧
      Around [.phrase statementPart] pre (firstOf (t :: vs) j) as bs ∧ us = pre ++ c.tokens := by
  obtain ⟨j, f, hf, htokens, hend⟩ := exists_tree (List.cons_ne_nil t vs) hus h
  obtain ⟨vs', hvs'⟩ := exists_firstOf_cons (not_isEnd_of_closes ht) hend
  rw [hvs'] at htokens
  obtain ⟨c, pre, as, bs, hc, haround, hpre⟩ := hf.exists_around ht htokens
  rw [← hvs'] at haround
  exact ⟨c, pre, as, bs, j, hc, hend, haround, hpre⟩

theorem Accepted.add_separator {sink : Sink} (h : Accepted sink (us ++ t :: vs))
    (hus : ∀ u ∈ us, ¬ u.IsEnd) (ht : t.kind ∈ listClosers.map Kind.known)
    (hlast : ∀ u ∈ us.getLast?, u.kind ≠ .known semicolon) (hs : s.kind = .known semicolon) :
    ∃ es es', Derived (us ++ t :: vs) es ∧ Derived (us ++ s :: t :: vs) es' ∧
      DifferBy s es es' := by
  obtain ⟨c, pre, as, bs, j, hc, hend, haround, rfl⟩ := h.exists_list hus ht
  rcases hc.adds_or_added with ⟨s', d, hadds⟩ | ⟨-, hadds⟩
  · have hs' : s' ∈ (pre ++ c.tokens).getLast? := by
      rw [hadds.tokens_eq, ← List.append_assoc, List.getLast?_concat]
      rfl
    exact absurd hadds.isSeparator (hlast s' hs')
  · obtain ⟨c', hadds⟩ := hadds s hs
    exact haround.derived_both (List.cons_ne_nil t vs) hend hadds

theorem Accepted.remove_separator {sink : Sink} (h : Accepted sink (us ++ s :: t :: vs))
    (hus : ∀ u ∈ us, ¬ u.IsEnd) (ht : t.kind ∈ listClosers.map Kind.known)
    (hs : s.kind = .known semicolon) :
    ∃ es es', Derived (us ++ t :: vs) es ∧ Derived (us ++ s :: t :: vs) es' ∧
      DifferBy s es es' := by
  have h' : Accepted sink (us ++ [s] ++ t :: vs) := by
    rwa [List.append_assoc, List.singleton_append]
  obtain ⟨c, pre, as, bs, j, hc, hend, haround, hpre⟩ := h'.exists_list (not_isEnd_snoc hus hs) ht
  rcases hc.adds_or_added with ⟨s', d, hadds⟩ | ⟨hlast, -⟩
  · rw [hadds.tokens_eq, ← List.append_assoc] at hpre
    obtain ⟨rfl, hs'⟩ := List.append_inj' hpre rfl
    obtain rfl := List.singleton_inj.1 hs'
    exact haround.derived_both (List.cons_ne_nil t vs) hend hadds
  · -- the list has the separator as its last token
    obtain ⟨ts, u, hu, -⟩ := hc.ends
    rw [hu, ← List.append_assoc] at hpre
    obtain rfl := List.singleton_inj.1 (List.append_inj' hpre rfl).2
    exact absurd hs (hlast s (by rw [hu, List.getLast?_concat]; rfl))

theorem not_accepted_separators {sink : Sink} {s' : Token} (hus : ∀ u ∈ us, ¬ u.IsEnd)
    (hs : s.kind = .known semicolon) (hs' : s'.kind = .known semicolon) :
    ¬ Accepted sink (us ++ s :: s' :: vs) := by
  intro h
  have h' : Accepted sink (us ++ [s] ++ s' :: vs) := by
    rwa [List.append_assoc, List.singleton_append]
  obtain ⟨j, f, ⟨c, rfl, hc⟩, htokens, hend⟩ :=
    exists_tree (List.cons_ne_nil s' vs) (not_isEnd_snoc hus hs) h'
  obtain ⟨vs', hvs'⟩ := exists_firstOf_cons (not_isEnd_of_separator hs') hend
  refine hc.not_separators us vs' hs hs' ?_
  simpa [hvs'] using htokens

/-- **Separators are optional just before a closing word.** In a program that is accepted, one that
is missing before a word that closes a list may be added, and one that stands there may be left
out; then the events differ by the separator alone, which is told of directly behind the end of a
statement. Behind a separator, no other one may be added. -/
theorem separators_are_optional_before_closers {sink : Sink} (us vs : List Token) {s t : Token}
    (hus : ∀ u ∈ us, ¬ u.IsEnd) (hs : s.kind = .known semicolon) :
    (t.kind ∈ listClosers.map Kind.known →
      (Accepted sink (us ++ t :: vs) → (∀ u ∈ us.getLast?, u.kind ≠ .known semicolon) →
        ∃ es es', Derived (us ++ t :: vs) es ∧ Derived (us ++ s :: t :: vs) es' ∧
          DifferBy s es es') ∧
      (Accepted sink (us ++ s :: t :: vs) →
        ∃ es es', Derived (us ++ t :: vs) es ∧ Derived (us ++ s :: t :: vs) es' ∧
          DifferBy s es es')) ∧
    ∀ s', s'.kind = .known semicolon → ¬ Accepted sink (us ++ s :: s' :: vs) :=
  ⟨fun ht => ⟨fun h hlast => h.add_separator hus ht hlast hs,
    fun h => h.remove_separator hus ht hs⟩, fun _ hs' => not_accepted_separators hus hs hs'⟩

lemma Derived.accepted {ts : List Token} (h : Derived ts es) (sink : Sink) :
    Accepted sink ts := by
  obtain ⟨s', hs', -⟩ := h sink
  exact congrArg Prod.fst hs'

theorem separators_are_optional_before_closers_assigningString :
    ∃ us t s es es', us ++ [t] = assigningString ∧ Derived (us ++ [t]) es ∧
      Derived (us ++ [s, t]) es' ∧ DifferBy s es es' ∧
      ¬ Accepted ⟨"", .trace .empty⟩ (us ++ [s, s, t]) := by
  let us := assigningString.take 4
  let t : Token := ⟨.known kwEnd, "", 1, 0⟩
  let s : Token := ⟨.known semicolon, ";", 1, 0⟩
  obtain ⟨s', hacc⟩ := parseProgram_assigningString ⟨"", .trace .empty⟩
  have hus : ∀ u ∈ us, ¬ u.IsEnd := by decide
  have hlast : ∀ u ∈ us.getLast?, u.kind ≠ .known semicolon := by decide
  obtain ⟨hclose, -⟩ :=
    separators_are_optional_before_closers us [] (s := s) (t := t) hus rfl
  obtain ⟨hadd, hremove⟩ := hclose (by decide)
  obtain ⟨-, es', -, h', -⟩ := hadd (congrArg Prod.fst hacc) hlast
  obtain ⟨es, es', h, h', hdiffer⟩ := hremove (h'.accepted _)
  refine ⟨us, t, s, es, es', rfl, h, h', hdiffer, ?_⟩
  obtain ⟨-, hnot⟩ :=
    separators_are_optional_before_closers us [t] (s := s) (t := t) hus rfl
  exact hnot s rfl

end StatementLang
