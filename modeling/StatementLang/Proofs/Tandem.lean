import StatementLang.Proofs.Reports

/-!
Derivations in tandem.

Two sequences of answers go in tandem if they are tokens of the same kinds up to a fault in both
of them. Whatever else relates the tokens and the faults then relates what two derivations come to
(`deriveFrom_tandem`): both succeed, or both reject related tokens at the same point of the
derivation, or both meet related faults.
-/

namespace StatementLang

open Session

/-- Up to a fault, the first answers are tokens and the others related ones. Where the first answer
is a fault, so is the other, and they are related. -/
def InTandem (R : Token → Token → Prop) (F : LexError → LexError → Prop)
    (f f' : Nat → Except LexError Token) : Prop :=
  ∀ i, (∀ j < i, ∃ t, f j = .ok t) →
    (∃ t u, f i = .ok t ∧ f' i = .ok u ∧ R t u) ∨ ∃ e e', f i = .error e ∧ f' i = .error e' ∧ F e e'

variable {R : Token → Token → Prop} {F : LexError → LexError → Prop}
  {f f' : Nat → Except LexError Token} {us : List Token} {t : Token}

lemma answers_concat_iff : (∀ i u, (us ++ [t])[i]? = some u → f i = .ok u) ↔
    (∀ i u, us[i]? = some u → f i = .ok u) ∧ f us.length = .ok t := by
  constructor
  · intro h
    refine ⟨fun i u hu => h i u ?_, h _ t List.getElem?_concat_length⟩
    rw [List.getElem?_append_left (List.getElem?_eq_some_iff.1 hu).1, hu]
  · rintro ⟨h, ht⟩ i u hu
    rcases Nat.lt_or_ge i us.length with hlt | hge
    · rw [List.getElem?_append_left hlt] at hu
      exact h i u hu
    · have hlen := (List.getElem?_eq_some_iff.1 hu).1
      rw [List.length_append, List.length_singleton] at hlen
      obtain rfl : i = us.length := by omega
      rw [List.getElem?_concat_length] at hu
      cases hu
      exact ht

namespace InTandem

lemma before_of_answers (hus : ∀ i u, us[i]? = some u → f i = .ok u) :
    ∀ j < us.length, ∃ u, f j = .ok u := fun j hj =>
  ⟨us[j], hus j _ (List.getElem?_eq_getElem hj)⟩

lemma exists_token (h : InTandem R F f f') (hus : ∀ i u, us[i]? = some u → f i = .ok u)
    (ht : f us.length = .ok t) : ∃ u, f' us.length = .ok u ∧ R t u := by
  rcases h us.length (before_of_answers hus) with ⟨t', u, ht', hu, hrel⟩ | ⟨e, -, he, -⟩
  · obtain rfl := Except.ok.inj (ht'.symm.trans ht)
    exact ⟨u, hu, hrel⟩
  · rw [ht] at he
    cases he

lemma exists_fault (h : InTandem R F f f') (hus : ∀ i u, us[i]? = some u → f i = .ok u)
    {e : LexError} (he : f us.length = .error e) : ∃ e', f' us.length = .error e' ∧ F e e' := by
  rcases h us.length (before_of_answers hus) with ⟨t, -, ht, -⟩ | ⟨e₁, e', he₁, he', hrel⟩
  · rw [he] at ht
    cases ht
  · obtain rfl := Except.error.inj (he₁.symm.trans he)
    exact ⟨e', he', hrel⟩

lemma exists_kinds (h : InTandem R F f f') (hR : ∀ t u, R t u → u.kind = t.kind)
    (hus : ∀ i u, us[i]? = some u → f i = .ok u) :
    ∃ vs : List Token, vs.map Token.kind = us.map Token.kind ∧
      ∀ i u, vs[i]? = some u → f' i = .ok u := by
  induction us using List.reverseRecOn with
  | nil => exact ⟨[], rfl, nofun⟩
  | append_singleton us t ih =>
    obtain ⟨hus, ht⟩ := answers_concat_iff.1 hus
    obtain ⟨vs, hkinds, hvs⟩ := ih hus
    obtain ⟨v, hv, hrel⟩ := h.exists_token hus ht
    have hlen : vs.length = us.length := by simpa using congrArg List.length hkinds
    refine ⟨vs ++ [v], ?_, answers_concat_iff.2 ⟨hvs, hlen ▸ hv⟩⟩
    rw [List.map_append, List.map_append, hkinds, List.map_singleton, List.map_singleton,
      hR t v hrel]

lemma exists_ahead (h : InTandem R F f f') (hR : ∀ t u, R t u → u.kind = t.kind)
    (hus : ∀ i u, (us ++ [t])[i]? = some u → f i = .ok u) :
    ∃ vs u, vs.map Token.kind = us.map Token.kind ∧ R t u ∧
      ∀ i w, (vs ++ [u])[i]? = some w → f' i = .ok w := by
  obtain ⟨hus, ht⟩ := answers_concat_iff.1 hus
  obtain ⟨vs, hkinds, hvs⟩ := h.exists_kinds hR hus
  obtain ⟨u, hu, hrel⟩ := h.exists_token hus ht
  have hlen : vs.length = us.length := by simpa using congrArg List.length hkinds
  exact ⟨vs, u, hkinds, hrel, answers_concat_iff.2 ⟨hvs, hlen ▸ hu⟩⟩

end InTandem

/-! ### What two derivations come to -/

/-- The error is about a token, where the given phrases were open and something else was
expected. -/
structure GrammarError.IsAbout (e : GrammarError) (label : String) (phrases : List String)
    (expected : String) (t : Token) : Prop where
  nonterminals_eq : e.nonterminals = phrases
  chain_eq : e.chain = phrases.map (layer t.line) ++ [(Sink.mk label .silent).violation t expected]

/-- Both derivations reach their end; or both reject a token, inside the same phrases and with the
same expectation; or both meet a fault. -/
inductive SameEnd (R : Token → Token → Prop) (F : LexError → LexError → Prop)
    (label label' : String) : Except Failure Unit → Except Failure Unit → Prop
  | reached : SameEnd R F label label' (.ok ()) (.ok ())
  | rejected {t u : Token} {e e' : GrammarError} {phrases : List String} {expected : String}
    (hrel : R t u) (he : e.IsAbout label phrases expected t)
    (he' : e'.IsAbout label' phrases expected u) :
    SameEnd R F label label' (.error (.grammar e)) (.error (.grammar e'))
  | fault {e e' : LexError} (hrel : F e e') :
    SameEnd R F label label' (.error (.lexical e)) (.error (.lexical e'))

namespace Session

variable {g : Grammar} {s s' : Session}

lemma isAbout_rejection (s : Session) (gs : List Goal) (x : Expectation) :
    (s.rejection gs x).IsAbout s.sink.label
      ((Goal.openPhrases gs).reverse.map Nonterminal.name) x.text s.lookahead where
  nonterminals_eq := nonterminals_rejection s gs x
  chain_eq := by
    have hlabel : s.sink.label = (Sink.mk s.sink.label .silent).label := rfl
    rw [chain_rejection, List.map_map, Sink.violation_of_label hlabel]
    rfl

theorem run_tandem (h : InTandem R F s.upcoming s'.upcoming) (hR : ∀ t u, R t u → u.kind = t.kind)
    (gs : List Goal) :
    SameEnd R F s.sink.label s'.sink.label (run g gs s).1 (run g gs s').1 := by
  have ho := run_outcome (g := g) gs s
  generalize run g gs s = r at ho ⊢
  cases ho with
  | @reached us es s₁ hc ha =>
    obtain ⟨vs, u, hkinds, hrel, hvs⟩ := h.exists_ahead hR ha.hasAhead
    obtain ⟨fs, hcourse⟩ := hc.of_kinds hkinds
    rw [← hR _ u hrel] at hcourse
    obtain ⟨s₂, hrun, -⟩ := run_of_reached hcourse hvs
    rw [hrun]
    exact .reached
  | @rejected us es gs' s₁ x hc ha hr =>
    obtain ⟨vs, u, hkinds, hrel, hvs⟩ := h.exists_ahead hR ha.hasAhead
    obtain ⟨fs, hcourse⟩ := hc.of_kinds hkinds
    rw [← hR _ u hrel] at hcourse hr
    obtain ⟨s₂, hrun, rfl, ha', -⟩ := run_of_rejects hcourse hr hvs
    rw [hrun, reject_within]
    have he := isAbout_rejection s₁ gs' x
    have he' := isAbout_rejection s₂ gs' x
    rw [ha.label_eq] at he
    rw [ha'.label_eq] at he'
    exact .rejected hrel he he'
  | @fault us es gs' s₁ s₂ y e hc ha hk he =>
    obtain ⟨vs, u, hkinds, hrel, hvs⟩ := h.exists_ahead hR ha.hasAhead
    obtain ⟨fs, hcourse⟩ := hc.of_kinds hkinds
    rw [← hR _ u hrel] at hcourse hk
    have hlen : vs.length = us.length := by simpa using congrArg List.length hkinds
    have hfault : s.upcoming (us ++ [s₁.lookahead]).length = .error e := by
      rw [List.length_append, ← ha.upcoming_eq]
      exact he
    obtain ⟨e', he', hrel'⟩ := h.exists_fault ha.hasAhead hfault
    rw [List.length_append, List.length_singleton, ← hlen] at he'
    rw [run_of_fault hcourse hk hvs he']
    exact .fault hrel'

lemma deriveFrom_of_error {a : TokenSource} {e : LexError} (h : a.answer 0 = .error e)
    (sink : Sink) : (deriveFrom g a sink).1 = .error (.lexical e) := by
  have hnext : a.next = (.error e, a.next.2) := Prod.ext h rfl
  rw [deriveFrom, start, hnext]

lemma exists_run_of_ok {a : TokenSource} {t : Token} (h : a.answer 0 = .ok t) (sink : Sink) :
    ∃ s : Session, s.sink = sink ∧ s.upcoming = a.answer ∧
      (deriveFrom g a sink).1 = (run g programGoals s).1 := by
  have hnext : a.next = (.ok t, a.next.2) := Prod.ext h rfl
  obtain ⟨s, hs⟩ : ∃ s, start a sink = .ok s := ⟨_, by rw [start, hnext]⟩
  obtain ⟨hsink, hused, hupcoming⟩ := of_start hs
  refine ⟨s.claimed, hsink, funext fun i => (upcoming_claimed _ i).trans (hupcoming i), ?_⟩
  rw [deriveFrom, hs]
  exact fst_parseProgram hused

/-- **Derivations in tandem come to the same end**, whatever their sinks are. -/
theorem deriveFrom_tandem {a b : TokenSource} (h : InTandem R F a.answer b.answer)
    (hR : ∀ t u, R t u → u.kind = t.kind) (sink sink' : Sink) :
    SameEnd R F sink.label sink'.label (deriveFrom g a sink).1 (deriveFrom g b sink').1 := by
  rcases h 0 (fun j hj => absurd hj (Nat.not_lt_zero j)) with
    ⟨t, u, ht, hu, -⟩ | ⟨e, e', he, he', hrel⟩
  · obtain ⟨s, rfl, hs, hrun⟩ := exists_run_of_ok (g := g) ht sink
    obtain ⟨s', rfl, hs', hrun'⟩ := exists_run_of_ok (g := g) hu sink'
    rw [← hs, ← hs'] at h
    rw [hrun, hrun']
    exact run_tandem h hR programGoals
  · rw [deriveFrom_of_error he, deriveFrom_of_error he']
    exact .fault hrel

end Session

end StatementLang
