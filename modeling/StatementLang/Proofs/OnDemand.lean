import StatementLang.Proofs.EarlyErrors
import StatementLang.Proofs.Layout
import StatementLang.Proofs.Mirror

/-!
Reading on demand and reading in advance.

A text whose tokens are read one by one while a program is derived, and the list of all its tokens,
come to the same. If the text holds a fault, whichever comes first decides: a token that the
grammar rejects, or the fault.
-/

namespace StatementLang

open StatementLang.Symbol TokenQueue

namespace Reader

variable {r r' : Reader} {t : Token} {ts : List Token} {e : LexError}

lemma answer_succ (h : r.next = (.ok t, r')) (i : Nat) :
    (TokenSource.reader r).answer (i + 1) = (TokenSource.reader r').answer i := by
  rw [TokenSource.answer, TokenSource.after, TokenSource.next, h]
  rfl

lemma rest_of_end (h : r.next = (.ok t, r')) (ht : t.IsEnd) : r.skipBlanks.rest = [] := by
  rcases spelled_of_next h with ⟨hrest, -⟩ | ⟨s, value, raw, hspelling, -, -, -, rfl⟩
  · exact hrest
  · exact absurd (Kind.known.inj ht) hspelling.ne_endOfFile

lemma next_of_end (h : r.next = (.ok t, r')) (ht : t.IsEnd) : r'.next = (.ok t, r') := by
  have hrest := rest_of_end h ht
  have hstop : ∀ c ∈ r.skipBlanks.rest.head?, Lexeme.isBlank c = false := by simp [hrest]
  rw [next_of_nil rfl hrest] at h
  cases h
  exact next_of_nil (skipBlanks_of_stop hstop) hrest

lemma answer_of_end (h : r.next = (.ok t, r')) (ht : t.IsEnd) (i : Nat) :
    (TokenSource.reader r).answer i = .ok t := by
  induction i generalizing r with
  | zero => exact congrArg Prod.fst h
  | succ i ih =>
    rw [answer_succ h]
    exact ih (next_of_end h ht)

lemma padded_cons {us : List Token} (hus : us ≠ []) (t : Token) (i : Nat) :
    padded (t :: us) (i + 1) = padded us i := by
  have hlast : (t :: us).getLast? = us.getLast? := by
    rw [List.getLast?_cons_of_ne_nil hus]
  simp [padded, closingOf, hlast]

theorem answer_of_readAll (h : r.readAll = (ts, none)) :
    ts ≠ [] ∧ ∀ i, (TokenSource.reader r).answer i = .ok (padded ts i) := by
  fun_induction readAll r generalizing ts with
  | case1 r e r' hnext => cases h
  | case2 r t r' hnext ht =>
    cases h
    refine ⟨by simp, fun i => ?_⟩
    rw [answer_of_end hnext ht]
    rcases i with _ | i <;> simp [padded, closingOf, ht]
  | case3 r t r' hnext ht hlt us fault hall ih =>
    cases h
    obtain ⟨hne, hanswer⟩ := ih hall
    refine ⟨by simp, fun i => ?_⟩
    rcases i with _ | i
    · exact congrArg Prod.fst hnext
    · rw [answer_succ hnext, hanswer, padded_cons hne]

theorem answer_of_fault (h : r.readAll = (ts, some e)) :
    (∀ i t, ts[i]? = some t → (TokenSource.reader r).answer i = .ok t) ∧
      (TokenSource.reader r).answer ts.length = .error e ∧ ∀ t ∈ ts, ¬ t.IsEnd := by
  fun_induction readAll r generalizing ts with
  | case1 r e' r' hnext =>
    cases h
    exact ⟨by simp, congrArg Prod.fst hnext, by simp⟩
  | case2 => cases h
  | case3 r t r' hnext ht hlt us fault hall ih =>
    cases h
    obtain ⟨hanswer, hfault, hend⟩ := ih hall
    refine ⟨fun i u hu => ?_, ?_, ?_⟩
    · rcases i with _ | i
      · cases hu
        exact congrArg Prod.fst hnext
      · rw [answer_succ hnext]
        exact hanswer i u hu
    · rw [List.length_cons, answer_succ hnext]
      exact hfault
    · rintro u (_ | ⟨_, hu⟩)
      · exact ht
      · exact hend u hu

end Reader

namespace TokenSource

variable {r : Reader} {ts : List Token} {e : LexError}

lemma mirrors_of_readAll (h : r.readAll = (ts, none)) : (ofTokens ts).Mirrors (.reader r) :=
  fun i => ⟨_, answer_ofTokens ts i, fun _ => (Reader.answer_of_readAll h).2 i⟩

lemma mirrors_of_fault (h : r.readAll = (ts, some e)) : (ofTokens ts).Mirrors (.reader r) := by
  obtain ⟨hanswer, hfault, -⟩ := Reader.answer_of_fault h
  refine fun i => ⟨_, answer_ofTokens ts i, fun hok => ?_⟩
  have hi : i < ts.length := by
    by_contra hi
    obtain ⟨u, hu⟩ := hok ts.length (Nat.le_of_not_lt hi)
    rw [hfault] at hu
    cases hu
  rw [padded_of_lt hi]
  exact hanswer i ts[i] (List.getElem?_eq_getElem hi)

lemma not_faulty_of_readAll (h : r.readAll = (ts, none)) : ¬ (reader r).Faulty := by
  rintro ⟨i, e, he⟩
  rw [(Reader.answer_of_readAll h).2 i] at he
  cases he

end TokenSource

namespace Session

lemma start_mirrors {a b : TokenSource} (h : b.Mirrors a) (sink : Sink) :
    (∃ e, a.answer 0 = .error e ∧ start a sink = .error e) ∨
    ∃ s t, start a sink = .ok s ∧ start b sink = .ok t ∧ t.Mirrors s ∧ s.sink = sink ∧
      s.used = false ∧ ∀ i, s.upcoming i = a.answer i := by
  rcases h.next with ⟨e, a', ha⟩ | ⟨t, a', b', ha, hb, hm⟩
  · exact .inl ⟨e, congrArg Prod.fst ha, by rw [start, ha]⟩
  · right
    have hs : start a sink = .ok ⟨a', t, sink, false, []⟩ := by rw [start, ha]
    have ht : start b sink = .ok ⟨b', t, sink, false, []⟩ := by rw [start, hb]
    exact ⟨_, _, hs, ht, ⟨rfl, rfl, rfl, rfl, hm⟩, of_start hs⟩

/-! ### Runs up to a fault -/

/-- Before the session stand the tokens `ts` and then the fault `e`. -/
structure Breaks (s : Session) (ts : List Token) (e : LexError) : Prop where
  token_eq : ∀ i t, ts[i]? = some t → s.upcoming i = .ok t
  fault_eq : s.upcoming ts.length = .error e

/-- What a run comes to that meets a fault behind the tokens `ts`: it takes some first of them and
sees the next one, or it takes them all. -/
inductive Broken (g : Grammar) (ts : List Token) (e : LexError) (gs : List Goal) (s : Session) :
    Except Failure Unit × Session → Prop
  | reached {us : List Token} {es : List Event} {s' : Session}
    (hc : Course g s'.lookahead.kind gs us es []) (hus : us <+: ts) :
    Broken g ts e gs s (.ok (), s')
  | rejected {t : Token} {x : GrammarError} {s' : Session} (ht : t ∈ ts)
    (hx : x.root.token = some t) : Broken g ts e gs s (.error (.grammar x), s')
  | fault {es : List Event} {gs' : List Goal} {s' : Session}
    (hc : ∀ next, Course g next gs ts es gs') (hsink : s'.sink = s.sink.tellAll es) :
    Broken g ts e gs s (.error (.lexical e), s')

namespace Breaks

variable {g : Grammar} {s s' : Session} {ts us : List Token} {e : LexError} {es : List Event}

lemma isPrefix_of_map (h : s.Breaks ts e)
    (hus : us.map .ok = (List.range us.length).map s.upcoming) : us <+: ts := by
  have hget : ∀ i (hi : i < us.length), s.upcoming i = .ok us[i] := fun i hi => by
    have := congrArg (·[i]?) hus
    simpa [hi] using this.symm
  have hlen : us.length ≤ ts.length := by
    by_contra hlt
    have hok := hget ts.length (by omega)
    rw [h.fault_eq] at hok
    cases hok
  refine List.prefix_iff_getElem?.2 fun i hi => ?_
  have hi' : i < ts.length := by omega
  have hts := h.token_eq i ts[i] (List.getElem?_eq_getElem hi')
  rw [hget i hi] at hts
  rw [List.getElem?_eq_getElem hi', Except.ok.inj hts]

lemma taken (h : s.Breaks ts e) (ha : s.Advances us es s') : us ++ [s'.lookahead] <+: ts := by
  have hahead : Except.ok s'.lookahead = s.upcoming us.length := ha.upcoming_eq 0
  refine h.isPrefix_of_map ?_
  rw [List.map_append, ha.taken, List.length_append, List.length_singleton, List.range_succ,
    List.map_append, List.map_singleton, List.map_singleton, hahead]

/-- **A run up to a fault** comes to its end before the fault, or takes all the tokens. -/
theorem run (h : s.Breaks ts e) (gs : List Goal) : Broken g ts e gs s (run g gs s) := by
  have hends := run_ends (g := g) gs s
  generalize Session.run g gs s = r at hends ⊢
  cases hends with
  | done hreach =>
    obtain ⟨us, es, hc, ha, -⟩ := hreach.told
    exact .reached hc ((List.prefix_append us _).trans (h.taken ha))
  | @failed c f s₁ hreach hf =>
    obtain ⟨gs', s'⟩ := c
    obtain ⟨us, es, hc, ha, hs'⟩ := hreach.told
    have hsink : s'.sink = s.sink.tellAll es := by rw [hs', sink_replay]
    have hus := h.taken ha
    have hmem : s'.lookahead ∈ ts := hus.subset (by simp)
    have hroot (x : Expectation) : (s'.rejection gs' x).root.token = some s'.lookahead := by
      rw [root_rejection]
      rfl
    cases hf with
    | @token x gs' _ _ _ hf =>
      have ht := accept_taken s' x
      rw [hf] at ht
      cases ht with
      | @fault e' source sink hk htold hn =>
        -- the token ahead is taken, and what is asked for next is the fault
        have hnext : s.upcoming (us ++ [s'.lookahead]).length = .error e' := by
          rw [List.length_append, ← ha.upcoming_eq]
          exact congrArg Prod.fst hn
        have hlen : (us ++ [s'.lookahead]).length = ts.length := by
          refine Nat.le_antisymm hus.length_le (Nat.le_of_not_lt fun hlt => ?_)
          rw [h.token_eq _ _ (List.getElem?_eq_getElem hlt)] at hnext
          cases hnext
        obtain rfl := hus.eq_of_length hlen
        rw [h.fault_eq] at hnext
        cases hnext
        have hcourse : ∀ next, Course g next gs (us ++ [s'.lookahead])
            (es ++ [.ofToken s'.lookahead]) gs' := fun next =>
          Course.trans hc (.token hk (.refl gs'))
        refine .fault hcourse ?_
        rw [Sink.tellAll_append, ← hsink]
        exact (Sink.tell_ofToken htold).symm
      | rejected => exact .rejected hmem (hroot (.symbol x))
    | choice => exact .rejected hmem (hroot _)

end Breaks

/-! ### Programs -/

/-- What comes of deriving a program from a source, the first look at it included, and what the
sink has been told. -/
def deriveFrom (g : Grammar) (source : TokenSource) (sink : Sink) : Except Failure Unit × Sink :=
  match start source sink with
  | .error e => (.error (.lexical e), sink)
  | .ok s => Prod.map id (·.sink) (s.parseProgram g)

variable {text : String} {sink : Sink} {ts : List Token} {e : LexError}

lemma broken_parseProgram {s : Session} (h : s.Breaks ts e) (hused : s.used = false)
    (hend : ∀ t ∈ ts, ¬ t.IsEnd) :
    (∃ t ∈ ts, ∃ x, x.root.token = some t ∧
      (s.parseProgram Grammar.language).1 = .error (.grammar x)) ∨
    ∃ es gs', (∀ next, Course Grammar.language next programGoals ts es gs') ∧
      (s.parseProgram Grammar.language).1 = .error (.lexical e) ∧
      (s.parseProgram Grammar.language).2.sink = s.sink.tellAll es := by
  have hclaimed : s.claimed.Breaks ts e :=
    ⟨fun i t ht => by rw [← h.token_eq i t ht]; cases i <;> rfl,
      by rw [← h.fault_eq]; cases ts <;> rfl⟩
  have hrun := hclaimed.run (g := Grammar.language) programGoals
  obtain ⟨r, hr⟩ : ∃ r, run Grammar.language programGoals s.claimed = r := ⟨_, rfl⟩
  rw [hr] at hrun
  cases hrun with
  | reached hc hus =>
    -- a program would take the end of the text
    obtain ⟨f, t, -, ht, hts, -⟩ := course_program_iff.1 hc
    exact absurd ht (hend t (hus.subset (by simp [hts])))
  | @rejected t x s' ht hx =>
    rw [parseProgram_of_error hused hr]
    exact .inl ⟨t, ht, x, hx, rfl⟩
  | @fault es gs' s' hc hsink =>
    rw [parseProgram_of_error hused hr]
    exact .inr ⟨es, gs', hc, rfl, hsink⟩

lemma not_mem_of_course {es : List Event} {gs' : List Goal} {x : GrammarError} {t : Token}
    (hend : ∀ t ∈ ts, ¬ t.IsEnd)
    (hc : ∀ next, Course Grammar.language next programGoals ts es gs')
    (hx : ((fresh ts sink).parseProgram Grammar.language).1 = .error (.grammar x))
    (ht : x.root.token = some t) : t ∉ ts := by
  obtain ⟨k, fs, ⟨gs₂, y, hk, hreject⟩, htoken, -⟩ := exists_rejectedAt (Prod.ext hx rfl)
  have hall : Course Grammar.language (padded ts ts.length).kind programGoals
      (firstOf ts ts.length) es gs' := by
    rw [firstOf_length]
    exact hc _
  obtain ⟨hle, -⟩ := course_goes_on hall hk (.rejected hreject)
  have hisEnd : (padded ts k).IsEnd := by
    rw [padded, List.getElem?_eq_none hle, Option.getD_none]
    exact isEnd_closingOf ts
  rw [ht, Option.some.injEq] at htoken
  exact fun hmem => hend t hmem (htoken ▸ hisEnd)

variable {r : Reader}

lemma start_of_readAll (h : r.readAll = (ts, none)) (sink : Sink) :
    ∃ s, start (.reader r) sink = .ok s ∧ (fresh ts sink).Mirrors s ∧ ¬ s.source.Faulty := by
  have hfault := TokenSource.not_faulty_of_readAll h
  obtain ⟨e, he, -⟩ | ⟨s, t, hs, ht, hm, -, -, hupcoming⟩ :=
    start_mirrors (TokenSource.mirrors_of_readAll h) sink
  · exact absurd ⟨0, e, he⟩ hfault
  · obtain rfl : fresh ts sink = t := Except.ok.inj ((start_ofTokens ts sink).symm.trans ht)
    exact ⟨s, hs, hm, fun ⟨i, e, he⟩ => hfault ⟨i + 1, e, (hupcoming (i + 1)).symm.trans he⟩⟩

lemma perform_of_readAll (g : Grammar) (h : r.readAll = (ts, none)) (sink : Sink) :
    ∃ s t, start (.reader r) sink = .ok s ∧ start (.ofTokens ts) sink = .ok t ∧
      ∀ call, (s.perform g call).1 = (t.perform g call).1 ∧
        (s.perform g call).2.sink = (t.perform g call).2.sink ∧
        (s.perform g call).2.lookahead = (t.perform g call).2.lookahead := by
  obtain ⟨s, hs, hm, hfault⟩ := start_of_readAll h sink
  refine ⟨s, fresh ts sink, hs, start_ofTokens ts sink, fun call => ?_⟩
  obtain ⟨heq, hm⟩ := (hm.perform (g := g) call).resolve_left fun hf => hfault hf.1
  exact ⟨heq.symm, hm.sink_eq.symm, hm.lookahead_eq.symm⟩

lemma deriveFrom_of_readAll (g : Grammar) (h : r.readAll = (ts, none)) (sink : Sink) :
    deriveFrom g (.reader r) sink = deriveFrom g (.ofTokens ts) sink := by
  obtain ⟨s, hs, hm, hfault⟩ := start_of_readAll h sink
  obtain ⟨heq, hm⟩ := (hm.parseProgram (g := g)).resolve_left fun hf => hfault hf.1
  rw [deriveFrom, hs, deriveFrom, start_ofTokens]
  exact Prod.ext heq.symm hm.sink_eq.symm

lemma deriveFrom_of_fault (h : r.readAll = (ts, some e)) (sink : Sink) :
    (∃ t ∈ ts, ∃ x, x.root.token = some t ∧
        (deriveFrom Grammar.language (.reader r) sink).1 = .error (.grammar x)) ∧
      deriveFrom Grammar.language (.reader r) sink =
        deriveFrom Grammar.language (.ofTokens ts) sink ∨
    (∀ t x, (deriveFrom Grammar.language (.ofTokens ts) sink).1 = .error (.grammar x) →
        x.root.token = some t → t ∉ ts) ∧
      ∃ es, Trace.terminals es = ts ∧
        deriveFrom Grammar.language (.reader r) sink = (.error (.lexical e), sink.tellAll es) := by
  obtain ⟨hanswer, hfault, hend⟩ := Reader.answer_of_fault h
  obtain ⟨e', he, hs⟩ | ⟨s, t, hs, ht, hm, rfl, hused, hupcoming⟩ :=
    start_mirrors (TokenSource.mirrors_of_fault h) sink
  · -- the fault is the first thing that is seen
    obtain rfl : ts = [] := by
      rcases ts with _ | ⟨t, ts⟩
      · rfl
      · rw [hanswer 0 t rfl] at he
        cases he
    rw [List.length_nil, he] at hfault
    cases hfault
    exact .inr ⟨by simp, [], rfl, by rw [deriveFrom, hs]; rfl⟩
  · have hbreaks : s.Breaks ts e :=
      ⟨fun i u hu => (hupcoming i).trans (hanswer i u hu), (hupcoming _).trans hfault⟩
    have hderive : deriveFrom Grammar.language (.reader r) s.sink =
        Prod.map id (·.sink) (s.parseProgram Grammar.language) := by rw [deriveFrom, hs]
    have hderive' : deriveFrom Grammar.language (.ofTokens ts) s.sink =
        Prod.map id (·.sink) (t.parseProgram Grammar.language) := by rw [deriveFrom, ht]
    rw [hderive, hderive']
    rcases broken_parseProgram hbreaks hused hend with
      ⟨u, hu, x, hx, hresult⟩ | ⟨es, gs', hc, hresult, hsink⟩
    · left
      obtain ⟨-, y, hy⟩ | ⟨heq, hm⟩ := hm.parseProgram (g := Grammar.language)
      · rw [hresult] at hy
        cases hy
      · exact ⟨⟨u, hu, x, hx, hresult⟩, Prod.ext heq.symm hm.sink_eq.symm⟩
    · right
      obtain rfl : fresh ts s.sink = t := Except.ok.inj ((start_ofTokens ts s.sink).symm.trans ht)
      refine ⟨fun u x hx hu => not_mem_of_course hend hc hx hu, es, ?_, Prod.ext hresult hsink⟩
      exact (hc (.known endOfFile)).terminals_eq

/-- **Reading on demand agrees with reading in advance.** If a text has tokens, a session that
reads the text and one over its tokens answer every call alike, with the same events and the same
token ahead. If the text holds a fault, a program is rejected while the text is read just if it is
rejected over the tokens before the fault, at one of them, and then in the same way; otherwise the
fault is what comes of it, and just those tokens have been taken. -/
theorem reading_on_demand_agrees (text : String) (sink : Sink) :
    match (Reader.ofText text).readAll with
    | (ts, none) => tokenize text = .ok ts ∧
      ∃ s t, start (.ofText text) sink = .ok s ∧ start (.ofTokens ts) sink = .ok t ∧
        ∀ call, (s.perform Grammar.language call).1 = (t.perform Grammar.language call).1 ∧
          (s.perform Grammar.language call).2.sink = (t.perform Grammar.language call).2.sink ∧
          (s.perform Grammar.language call).2.lookahead =
            (t.perform Grammar.language call).2.lookahead
    | (ts, some e) => tokenize text = .error e ∧
      ((∃ x, (deriveFrom Grammar.language (.ofText text) sink).1 = .error (.grammar x)) ↔
        ∃ t ∈ ts, ∃ x, x.root.token = some t ∧
          (deriveFrom Grammar.language (.ofTokens ts) sink).1 = .error (.grammar x)) ∧
      ((∃ x, (deriveFrom Grammar.language (.ofText text) sink).1 = .error (.grammar x)) →
        deriveFrom Grammar.language (.ofText text) sink =
          deriveFrom Grammar.language (.ofTokens ts) sink) ∧
      ((¬ ∃ x, (deriveFrom Grammar.language (.ofText text) sink).1 = .error (.grammar x)) →
        ∃ es, Trace.terminals es = ts ∧
          deriveFrom Grammar.language (.ofText text) sink =
            (.error (.lexical e), sink.tellAll es)) := by
  rcases h : (Reader.ofText text).readAll with ⟨ts, _ | e⟩
  · exact ⟨tokenize_eq_ok_iff_readAll.2 h, perform_of_readAll _ h sink⟩
  · refine ⟨tokenize_of_fault h, ?_⟩
    rcases deriveFrom_of_fault h sink with ⟨⟨t, ht, x, hx, hresult⟩, heq⟩ | ⟨hnot, es, hes, heq⟩
    · refine ⟨iff_of_true ⟨x, hresult⟩ ⟨t, ht, x, hx, ?_⟩, fun _ => heq, fun hn => ?_⟩
      · rw [← heq]
        exact hresult
      · exact absurd ⟨x, hresult⟩ hn
    · have hlexical : ¬ ∃ x, (deriveFrom Grammar.language (.ofText text) sink).1 =
          .error (.grammar x) := by
        rintro ⟨x, hx⟩
        rw [TokenSource.ofText, heq] at hx
        cases hx
      refine ⟨iff_of_false hlexical ?_, fun hx => absurd hx hlexical, fun _ => ⟨es, hes, heq⟩⟩
      rintro ⟨t, ht, x, hx, hresult⟩
      exact hnot t x hresult hx ht

end Session

end StatementLang
