import StatementLang.Proofs.Completion
import StatementLang.Proofs.Edges
import StatementLang.Proofs.Traversal

/-!
A phrase that is asked for takes the longest word that it can.

The next token stops a phrase unless some word of the phrase goes on with it. If it does not stop
the trees of a phrase, more parts may be added at their right edge (`Forest.Derives.extends`); there
is one exception, a list that has ended with a separator, which only a closing word may follow. So
the trees that are stopped are those of the longest words (`Forest.IsBody.stops_iff_longest`), and
these decide what comes of a call on a session (`phrases_take_the_longest_word`).
-/

namespace StatementLang

open StatementLang.Symbol StatementLang.Nonterminal Forest Session

variable {n : Nonterminal} {k : Kind} {ps qs : List Part} {f f' : Forest}

namespace Forest

def append : Forest → Forest → Forest
  | nil, f' => f'
  | leaf t rest, f' => leaf t (rest.append f')
  | node n children rest, f' => node n children (rest.append f')

@[simp] lemma tokens_append (f f' : Forest) : (f.append f').tokens = f.tokens ++ f'.tokens := by
  induction f with
  | nil => rfl
  | leaf t rest ih => simp [append, ih]
  | node n children rest _ ih => simp [append, ih]

lemma Derives.append (h : Derives ps f) (h' : Derives qs f') :
    Derives (ps ++ qs) (f.append f') := by
  induction h with
  | nil => exact h'
  | symbol ht _ ih => exact .symbol ht ih
  | phrase hq hc _ _ ih => exact .phrase hq hc ih

lemma Derives.node (h : IsBody n f) : Derives [.phrase n] (.node n f .nil) :=
  derives_phrase_iff.2 ⟨f, .nil, rfl, h, .nil⟩

end Forest

lemma exists_derives (ps : List Part) : ∃ f, Derives ps f := by
  induction ps with
  | nil => exact ⟨.nil, .nil⟩
  | cons p ps ih =>
    obtain ⟨rest, hrest⟩ := ih
    cases p with
    | symbol s => exact ⟨.leaf ⟨.known s, "", 0, 0⟩ rest, .symbol rfl hrest⟩
    | phrase n =>
      obtain ⟨w, hw⟩ := exists_word n
      obtain ⟨c, ⟨qs, hq, hc⟩, -⟩ := hw.exists_isBody
      exact ⟨.node n c rest, .phrase hq hc hrest⟩

theorem exists_longer_production (h : qs ∈ productions n) (hk : ¬ halts n qs.length k) :
    (∃ s ps, k = .known s ∧ qs ++ .symbol s :: ps ∈ productions n) ∨
      (qs.getLast? = some (.symbol semicolon) ∧ k ∉ listClosers.map Kind.known) := by
  generalize hl : qs.length = l at hk
  -- The cases of `halts` are the phrases that can go on when they could end; for each of them, the
  -- production that goes on is looked up.
  unfold halts at hk
  split at hk
  · have hadd : ∀ qs ∈ productions statementList, qs.length = 1 →
        qs ++ [.symbol semicolon] ∈ productions statementList := by decide
    simp only [ne_eq, decide_not, Bool.not_eq_true', decide_eq_false_iff_not, not_not] at hk
    exact .inl ⟨semicolon, [], hk, hadd qs h hl⟩
  · have hlast : ∀ qs ∈ productions statementList, qs.length = 2 →
        qs.getLast? = some (.symbol semicolon) := by decide
    rw [decide_eq_true_eq] at hk
    exact .inr ⟨hlast qs h hl, hk⟩
  · have hadd : ∀ qs ∈ productions expression, qs.length = 1 → ∀ s ∈ addingOperators,
        qs ++ [.symbol s, .phrase expression] ∈ productions expression := by decide
    rw [decide_eq_true_eq, not_not] at hk
    obtain ⟨s, hs, rfl⟩ := List.mem_map.1 hk
    exact .inl ⟨s, _, rfl, hadd qs h hl s hs⟩
  · have hadd : ∀ qs ∈ productions term, qs.length = 1 → ∀ s ∈ multiplyingOperators,
        qs ++ [.symbol s, .phrase term] ∈ productions term := by decide
    rw [decide_eq_true_eq, not_not] at hk
    obtain ⟨s, hs, rfl⟩ := List.mem_map.1 hk
    exact .inl ⟨s, _, rfl, hadd qs h hl s hs⟩
  · have hadd : ∀ qs ∈ productions argumentList, qs.length = 1 →
        qs ++ [.symbol comma, .phrase argumentList] ∈ productions argumentList := by decide
    simp only [ne_eq, decide_not, Bool.not_eq_true', decide_eq_false_iff_not, not_not] at hk
    exact .inl ⟨comma, _, hk, hadd qs h hl⟩
  · exact absurd rfl hk

def Forest.EndsWithSeparator (f : Forest) : Prop :=
  ∃ t ∈ f.tokens.getLast?, t.kind = .known semicolon

namespace Forest.EndsWithSeparator

variable {t : Token} {children rest : Forest}

lemma leaf_iff (h : rest.tokens ≠ []) :
    (Forest.leaf t rest).EndsWithSeparator ↔ rest.EndsWithSeparator := by
  rw [EndsWithSeparator, EndsWithSeparator, tokens_leaf, ← List.singleton_append,
    List.getLast?_append_of_ne_nil _ h]

lemma node_iff (h : rest.tokens ≠ []) :
    (Forest.node n children rest).EndsWithSeparator ↔ rest.EndsWithSeparator := by
  rw [EndsWithSeparator, EndsWithSeparator, tokens_node, List.getLast?_append_of_ne_nil _ h]

lemma node_nil_iff :
    (Forest.node n children .nil).EndsWithSeparator ↔ children.EndsWithSeparator := by
  rw [EndsWithSeparator, EndsWithSeparator, tokens_node, tokens_nil, List.append_nil]

end Forest.EndsWithSeparator

lemma Forest.Derives.tokens_ne_nil {p : Part} (h : Derives (p :: ps) f) : f.tokens ≠ [] := by
  obtain ⟨t, ts, ht, -⟩ := h.begins
  rw [ht]
  exact List.cons_ne_nil t ts

theorem Forest.Derives.extends (h : Derives ps f) (hk : ¬ f.Ended k) :
    (∃ f' t us, Derives ps f' ∧ f'.tokens = f.tokens ++ t :: us ∧ t.kind = k) ∨
      (f.EndsWithSeparator ∧ k ∉ listClosers.map Kind.known) := by
  induction h with
  | nil => exact absurd (ended_nil k) hk
  | @symbol s t ps rest ht h ih =>
    cases ps with
    | nil =>
      obtain rfl := derives_nil_iff.1 h
      exact absurd (ended_nil k) hk
    | cons p ps =>
      rcases ih hk with ⟨f', u, us, hf', htokens, hu⟩ | ⟨hends, hclosers⟩
      · refine .inl ⟨.leaf t f', u, us, .symbol ht hf', ?_, hu⟩
        rw [tokens_leaf, tokens_leaf, htokens, List.cons_append]
      · exact .inr ⟨(EndsWithSeparator.leaf_iff h.tokens_ne_nil).2 hends, hclosers⟩
  | @phrase n qs ps children rest hq hc h ihc ih =>
    cases ps with
    | nil =>
      obtain rfl := derives_nil_iff.1 h
      rw [ended_node_nil, Stops, hc.length_eq, not_and_or] at hk
      by_cases hended : children.Ended k
      · have hhalts : ¬ halts n qs.length k := hk.resolve_right (not_not.2 hended)
        rcases exists_longer_production hq hhalts with ⟨s, ps, rfl, hq'⟩ | ⟨hlast, hclosers⟩
        · -- the parts of the longer production are added behind the children
          obtain ⟨more, hmore⟩ := exists_derives (.symbol s :: ps)
          obtain ⟨t, rest, rfl, ht, -⟩ := derives_symbol_iff.1 hmore
          refine .inl ⟨.node n (children.append (.leaf t rest)) .nil, t, rest.tokens,
            .phrase hq' (hc.append hmore) .nil, ?_, ht⟩
          simp
        · obtain ⟨ts, t, ht, hk⟩ := hc.ends _ hlast
          refine .inr ⟨EndsWithSeparator.node_nil_iff.2 ⟨t, ?_, List.mem_singleton.1 hk⟩, hclosers⟩
          rw [ht, List.getLast?_concat]
          rfl
      · rcases ihc hended with ⟨f', u, us, hf', htokens, hu⟩ | ⟨hends, hclosers⟩
        · refine .inl ⟨.node n f' .nil, u, us, .phrase hq hf' .nil, ?_, hu⟩
          simp [htokens]
        · exact .inr ⟨EndsWithSeparator.node_nil_iff.2 hends, hclosers⟩
    | cons p ps =>
      have hne : rest ≠ .nil := by
        rintro rfl
        exact h.tokens_ne_nil rfl
      rw [ended_node hne] at hk
      rcases ih hk with ⟨f', u, us, hf', htokens, hu⟩ | ⟨hends, hclosers⟩
      · refine .inl ⟨.node n children f', u, us, .phrase hq hc hf', ?_, hu⟩
        rw [tokens_node, tokens_node, htokens, List.append_assoc]
      · exact .inr ⟨(EndsWithSeparator.node_iff h.tokens_ne_nil).2 hends, hclosers⟩

lemma halts_of_separator (h : qs ∈ productions n) (hlast : qs.getLast? = some (.symbol semicolon))
    (hk : halts n qs.length k) : k ∈ listClosers.map Kind.known := by
  have hall : ∀ qs ∈ productions n, qs.getLast? = some (.symbol semicolon) →
      n = statementList ∧ qs.length = 2 := by cases n <;> decide
  obtain ⟨rfl, hlength⟩ := hall qs h hlast
  rw [hlength] at hk
  exact of_decide_eq_true hk

theorem Forest.Derives.closes (h : Derives ps f) (hk : f.Ended k) (hf : f.EndsWithSeparator) :
    ps.getLast? = some (.symbol semicolon) ∨ k ∈ listClosers.map Kind.known := by
  induction h with
  | nil =>
    obtain ⟨t, ht, -⟩ := hf
    cases ht
  | @symbol s t ps rest ht h ih =>
    cases ps with
    | nil =>
      obtain rfl := derives_nil_iff.1 h
      obtain ⟨u, hu, husemi⟩ := hf
      cases hu
      obtain rfl : s = semicolon := Kind.known.inj (ht.symm.trans husemi)
      exact .inl rfl
    | cons p ps =>
      rw [List.getLast?_cons_cons]
      exact ih hk ((EndsWithSeparator.leaf_iff h.tokens_ne_nil).1 hf)
  | @phrase n qs ps children rest hq hc h ihc ih =>
    cases ps with
    | nil =>
      obtain rfl := derives_nil_iff.1 h
      obtain ⟨hhalts, hended⟩ := ended_node_nil.1 hk
      rw [hc.length_eq] at hhalts
      -- If the production of the last tree ends with the separator, it is that of a list, which
      -- halts only before a closing word.
      rcases ihc hended (EndsWithSeparator.node_nil_iff.1 hf) with hlast | hclosers
      · exact .inr (halts_of_separator hq hlast hhalts)
      · exact .inr hclosers
    | cons p ps =>
      have hne : rest ≠ .nil := by
        rintro rfl
        exact h.tokens_ne_nil rfl
      rw [List.getLast?_cons_cons]
      exact ih ((ended_node hne).1 hk) ((EndsWithSeparator.node_iff h.tokens_ne_nil).1 hf)

/-! ### Longest words -/

/-- The kinds `w` spell a word of the phrase that no word goes on from with the kind `k`. A list
that ends with a separator must be closed by it. -/
structure Longest (n : Nonterminal) (w : List Kind) (k : Kind) : Prop where
  word : ∃ v, Word n v ∧ w = v.map Kind.known
  longest : ∀ v, Word n v → ¬ w ++ [k] <+: v.map Kind.known
  closed : n = statementList → w.getLast? = some (.known semicolon) → k ∈ listClosers.map Kind.known

lemma course_body (h : IsBody n f) (hk : f.Stops n k) :
    Course Grammar.language k (Grammar.language.body n) f.tokens f.walk [] :=
  (parsed_iff.2 ⟨h, hk⟩).course

theorem Forest.IsBody.not_prefix (h : IsBody n f) (hk : f.Stops n k) {v : List Symbol}
    (hv : Word n v) : ¬ f.tokens.map Token.kind ++ [k] <+: v.map Kind.known := by
  rintro ⟨r, hr⟩
  let plain (k : Kind) : Token := ⟨k, "", 0, 0⟩
  have hkinds : (r.map plain).map Token.kind = r := by
    rw [List.map_map]
    exact List.map_id r
  obtain ⟨g, hg, hspells⟩ := hv.exists_isBody
  obtain ⟨s, hs⟩ := exists_mem_follow n
  have hlonger : (f.tokens ++ plain k :: r.map plain).map Token.kind = g.tokens.map Token.kind := by
    rw [hspells, ← hr, List.map_append, List.map_cons, hkinds, List.append_assoc]
    rfl
  obtain ⟨es, hes⟩ := (course_body hg (hg.stops hs)).of_kinds hlonger
  have hlong : Course Grammar.language (plain (.known s)).kind _ _ es [] := hes
  have hshort : Course Grammar.language (plain k).kind _ _ f.walk [] := course_body h hk
  -- both are courses over the longer word and a token behind it
  have htokens : f.tokens ++ plain k :: (r.map plain ++ [plain (.known s)]) =
      (f.tokens ++ plain k :: r.map plain) ++ plain (.known s) :: [] := by simp
  obtain ⟨heq, -⟩ := hshort.unique .reached hlong .reached htokens
  have hlength := congrArg List.length heq
  simp at hlength

theorem Forest.IsBody.stops_iff_longest (h : IsBody n f) :
    f.Stops n k ↔ Longest n (f.tokens.map Token.kind) k := by
  constructor
  · intro hk
    obtain ⟨v, hv, hspells⟩ := h.exists_word
    refine ⟨⟨v, hv, hspells⟩, fun v hv => h.not_prefix hk hv, fun _ hlast => ?_⟩
    rw [List.getLast?_map, Option.map_eq_some_iff] at hlast
    have hends : (Forest.node n f .nil).EndsWithSeparator := EndsWithSeparator.node_nil_iff.2 hlast
    exact ((Derives.node h).closes (ended_node_nil.2 hk) hends).resolve_left nofun
  · intro hlongest
    by_contra hk
    have hk' : ¬ (Forest.node n f .nil).Ended k := hk
    -- A token that does not stop the trees makes a longer word, or comes behind a separator and
    -- does not close the list.
    rcases (Derives.node h).extends hk' with ⟨f', t, us, hf', htokens, rfl⟩ | ⟨hends, hclosers⟩
    · obtain ⟨g, rest, rfl, hg, hrest⟩ := derives_phrase_iff.1 hf'
      obtain rfl := derives_nil_iff.1 hrest
      obtain ⟨v, hv, hspells⟩ := hg.exists_word
      refine hlongest.longest v hv ⟨us.map Token.kind, ?_⟩
      simp only [tokens_node, tokens_nil, List.append_nil] at htokens
      rw [← hspells, htokens]
      simp
    · obtain ⟨t, ht, hsemi⟩ := EndsWithSeparator.node_nil_iff.1 hends
      have hmem : Kind.known semicolon ∈ (last n).map Kind.known := hsemi ▸ h.ends.getLast t ht
      have hlist : n = statementList := by
        revert hmem
        cases n <;> decide
      refine hclosers (hlongest.closed hlist ?_)
      rw [List.getLast?_map, ht, Option.map_some, hsemi]

/-- **The longest words are what the courses of a phrase take.** -/
theorem longest_iff_course {w : List Token} :
    Longest n (w.map Token.kind) k ↔ ∃ es, Course Grammar.language k [.phrase n] w es [] := by
  constructor
  · intro h
    obtain ⟨v, hv, hw⟩ := h.word
    obtain ⟨f, hf, hspells⟩ := hv.exists_isBody
    have hkinds : w.map Token.kind = f.tokens.map Token.kind := hw.trans hspells.symm
    rw [hkinds] at h
    have hbody := course_body hf (hf.stops_iff_longest.2 h)
    have hcourse : Course Grammar.language k [.phrase n] f.tokens _ [] :=
      .phrase (by simpa using (hbody.frame [.leave n]).trans (.leave (.refl [])))
    exact hcourse.of_kinds hkinds
  · rintro ⟨es, h⟩
    obtain ⟨f, hf, rfl, -⟩ := (Course.reaches_end_iff Grammar.language_plain rfl).1 h
    obtain ⟨c, rest, rfl, hc, hrest⟩ := Builds.phrase_iff.1 hf
    obtain rfl := Builds.nil_iff.1 hrest
    obtain ⟨hbody, hstops⟩ := parsed_iff.1 hc
    simpa using hbody.stops_iff_longest.1 hstops

/-! ### Sessions -/

namespace Session

variable {s s' : Session} {w w' : List Token} {p : Token} {es : List Event} {q : TokenQueue}

/-- The session has taken just the tokens `w`, from the one that it looked at on. -/
structure Accepts (s : Session) (w : List Token) (s' : Session) : Prop where
  ahead : s.HasAhead (w ++ [s'.lookahead])
  source_eq : s'.source = s.source.after w.length
  told : ∀ tr, s.sink.trace? = some tr →
    ∃ tr', s'.sink.trace? = some tr' ∧ Trace.terminals (tr'.eventsSince tr) = w

lemma Advances.accepts {k : Kind} {gs gs' : List Goal} (ha : s.Advances w es s')
    (hc : Course Grammar.language k gs w es gs') : s.Accepts w s' where
  ahead := ha.hasAhead
  source_eq := ha.source_eq
  told tr htr := by
    refine ⟨_, ha.trace? htr, ?_⟩
    rw [Trace.eventsSince_recordAll]
    exact hc.terminals_eq

lemma HasAhead.eq_of_length {us vs : List Token} (hus : s.HasAhead us) (hvs : s.HasAhead vs)
    (h : us.length = vs.length) : us = vs := by
  refine List.ext_getElem h fun i hi hi' => ?_
  have hu := hus i _ (List.getElem?_eq_getElem hi)
  have hv := hvs i _ (List.getElem?_eq_getElem hi')
  exact Except.ok.inj (hu.symm.trans hv)

lemma Faces.hasAhead {ts : List Token} (h : s.Faces ts) : s.HasAhead ts := by
  intro i t ht
  rw [h i, TokenQueue.padded, ht, Option.getD_some]

lemma Accepts.unique (hq : s.source = .queue q) (h : s.Accepts w s') (h' : s.Accepts w' s') :
    w = w' := by
  have hsource : s.source.after w.length = s.source.after w'.length :=
    h.source_eq.symm.trans h'.source_eq
  obtain ⟨q₁, hq₁, hasked₁⟩ := TokenQueue.exists_after_queue q w.length
  obtain ⟨q₂, hq₂, hasked₂⟩ := TokenQueue.exists_after_queue q w'.length
  rw [hq, hq₁, hq₂] at hsource
  obtain rfl : q₁ = q₂ := TokenSource.queue.inj hsource
  have hlength : (w ++ [s'.lookahead]).length = (w' ++ [s'.lookahead]).length := by
    rw [List.length_append, List.length_append]
    omega
  exact List.append_cancel_right (h.ahead.eq_of_length h'.ahead hlength)

lemma exists_accepts (hw : s.HasAhead (w ++ [p])) (h : Longest n (w.map Token.kind) p.kind) :
    ∃ s', s.parsePhrase Grammar.language n = (.ok (), s') ∧ s.Accepts w s' := by
  obtain ⟨es, hc⟩ := longest_iff_course.1 h
  obtain ⟨s', hrun, -, ha, -⟩ := run_of_reached hc hw
  exact ⟨s', hrun, ha.accepts hc⟩

lemma parsePhrase_cases (n : Nonterminal) (hq : s.source = .queue q) :
    (∃ w s', s.parsePhrase Grammar.language n = (.ok (), s') ∧ s.Accepts w s' ∧
      Longest n (w.map Token.kind) s'.lookahead.kind) ∨
    ∃ e, (s.parsePhrase Grammar.language n).1 = .error (.grammar e) := by
  have houtcome := run_outcome (g := Grammar.language) [.phrase n] s
  rw [parsePhrase]
  generalize run Grammar.language [.phrase n] s = r at houtcome ⊢
  cases houtcome with
  | @reached w es s' hc ha =>
    exact .inl ⟨w, s', rfl, ha.accepts hc, longest_iff_course.2 ⟨es, hc⟩⟩
  | rejected => exact .inr ⟨_, rfl⟩
  | @fault w es gs' s' t x e hc ha hk he =>
    -- tokens hold no fault
    obtain ⟨q', hq', -⟩ := TokenQueue.exists_after_queue q w.length
    rw [ha.source_eq, hq, hq', TokenQueue.answer_queue] at he
    cases he

end Session

/-- **A phrase takes the longest word, or fails.** A session over tokens that is asked for a phrase,
whatever it has been asked for before, returns with just the tokens `w` taken if and only if they
spell a word of the phrase that no word goes on from with the token after it; and a list that ends
with a separator is closed by that token. There is at most one such word ahead, and without one the
call is an error in the form of the program. -/
theorem phrases_take_the_longest_word (n : Nonterminal) {s : Session} {q : TokenQueue}
    (hq : s.source = .queue q) :
    (∀ w p, s.HasAhead (w ++ [p]) →
      ((∃ s', s.parsePhrase Grammar.language n = (.ok (), s') ∧ s.Accepts w s') ↔
        Longest n (w.map Token.kind) p.kind)) ∧
    (∀ w w' p p', s.HasAhead (w ++ [p]) → s.HasAhead (w' ++ [p']) →
      Longest n (w.map Token.kind) p.kind → Longest n (w'.map Token.kind) p'.kind → w = w') ∧
    ((¬ ∃ w p, s.HasAhead (w ++ [p]) ∧ Longest n (w.map Token.kind) p.kind) →
      ∃ e, (s.parsePhrase Grammar.language n).1 = .error (.grammar e)) := by
  refine ⟨fun w p hw => ⟨?_, exists_accepts hw⟩, fun w w' p p' hw hw' h h' => ?_, fun hnone => ?_⟩
  · rintro ⟨s', hs', haccepts⟩
    rcases parsePhrase_cases n hq with ⟨w₁, s₁, hs₁, haccepts₁, hlongest⟩ | ⟨e, he⟩
    · obtain ⟨-, rfl⟩ := Prod.mk.inj (hs'.symm.trans hs₁)
      obtain rfl := haccepts.unique hq haccepts₁
      have hlast := List.append_cancel_left (hw.eq_of_length haccepts.ahead (by simp))
      rwa [List.singleton_inj.1 hlast]
    · rw [hs'] at he
      cases he
  · obtain ⟨s₁, hs₁, haccepts₁⟩ := exists_accepts hw h
    obtain ⟨s₂, hs₂, haccepts₂⟩ := exists_accepts hw' h'
    obtain ⟨-, rfl⟩ := Prod.mk.inj (hs₁.symm.trans hs₂)
    exact haccepts₁.unique hq haccepts₂
  · rcases parsePhrase_cases n hq with ⟨w, s', -, haccepts, hlongest⟩ | he
    · exact absurd ⟨w, _, haccepts.ahead, hlongest⟩ hnone
    · exact he

def stringThenPlus : List Token :=
  [.identifier, .becomes, .string, .plus].map fun s => ⟨.known s, "", 1, 0⟩

theorem phrases_take_the_longest_word_stringThenPlus :
    ∃ s', (fresh stringThenPlus ⟨"", .silent⟩).parsePhrase Grammar.language assignment =
        (.ok (), s') ∧
      (fresh stringThenPlus ⟨"", .silent⟩).Accepts (stringThenPlus.take 3) s' := by
  obtain ⟨htakes, -⟩ := phrases_take_the_longest_word assignment
    (s := fresh stringThenPlus ⟨"", .silent⟩) rfl
  have hahead : (fresh stringThenPlus ⟨"", .silent⟩).HasAhead
      (stringThenPlus.take 3 ++ [⟨.known plus, "", 1, 0⟩]) :=
    (faces_fresh stringThenPlus _).hasAhead
  refine (htakes _ _ hahead).2 (longest_iff_course.2 ?_)
  exact ⟨_, .phrase (.token rfl (.token rfl (.choice rfl (.token rfl (.leave (.refl _))))))⟩

end StatementLang
