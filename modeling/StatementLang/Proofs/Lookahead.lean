import StatementLang.Proofs.EarlyErrors
import StatementLang.Proofs.Layout
import StatementLang.Proofs.Traversal

/-!
A rejection depends only on what has been read.

A session that rejects a token has read the tokens up to that one, and nothing else of its source.
So whatever begins with these tokens is rejected in the same way (`rejection_of_beginsWith`). A
reader stands right behind the last lexeme that it has read, and of the characters there it has
looked at the first one only (`Reader.beginsWith_of_after`).
-/

namespace StatementLang

open TokenQueue Session

/-- The first answers of a source are the given tokens. -/
def TokenSource.BeginsWith (a : TokenSource) (ts : List Token) : Prop :=
  ∀ i t, ts[i]? = some t → a.answer i = .ok t

namespace Session

variable {g : Grammar} {a : TokenSource} {sink : Sink} {s s' : Session} {us : List Token}
  {es : List Event} {e : GrammarError}

lemma exists_start {t : Token} {ts : List Token} (h : a.BeginsWith (t :: ts)) (sink : Sink) :
    ∃ s, start a sink = .ok s := by
  have hnext : a.next.1 = .ok t := h 0 t rfl
  rcases hn : a.next with ⟨e | u, a'⟩
  · rw [hn] at hnext
    cases hnext
  · exact ⟨_, by rw [start, hn]⟩

lemma hasAhead_of_start (hs : start a sink = .ok s) {ts : List Token} :
    s.claimed.HasAhead ts ↔ a.BeginsWith ts := by
  obtain ⟨-, -, hupcoming⟩ := of_start hs
  unfold HasAhead TokenSource.BeginsWith
  simp only [upcoming_claimed, hupcoming]

lemma run_of_parseProgram_error {f : Failure} (hs : s.used = false)
    (h : s.parseProgram g = (.error f, s')) : run g programGoals s.claimed = (.error f, s') := by
  rcases hr : run g programGoals s.claimed with ⟨f' | _, s₁⟩
  · rw [parseProgram_of_error hs hr] at h
    exact h
  · rw [parseProgram_of_ok hs hr] at h
    cases h

lemma exists_rejected {gs : List Goal} (h : run g gs s = (.error (.grammar e), s')) :
    ∃ us es gs' x p, Course g p.kind gs us es gs' ∧ g.Rejects p.kind gs' x ∧
      s.HasAhead (us ++ [p]) := by
  have ho := run_outcome (g := g) gs s
  rw [h] at ho
  generalize hr : (Except.error (.grammar e) : Except Failure Unit) = r at ho
  cases ho with
  | reached | fault => cases hr
  | rejected hc ha hreject => exact ⟨_, _, _, _, _, hc, hreject, ha.hasAhead⟩

theorem rejection_of_beginsWith (hs : start a sink = .ok s)
    (h : s.parseProgram g = (.error (.grammar e), s')) :
    ∃ us p, a.BeginsWith (us ++ [p]) ∧ s'.source = a.after (us.length + 1) ∧
      (∀ tr, sink.trace? = some tr → ∃ tr', s'.sink.trace? = some tr' ∧
        Trace.terminals (tr'.eventsSince tr) = us) ∧
      ∀ b : TokenSource, b.BeginsWith (us ++ [p]) →
        ∃ t t', start b sink = .ok t ∧ t.parseProgram g = (.error (.grammar e), t') ∧
          t'.sink = s'.sink := by
  obtain ⟨rfl, hused, -⟩ := of_start hs
  have hrun := run_of_parseProgram_error hused h
  obtain ⟨us, es, gs', x, p, hc, hr, hahead⟩ := exists_rejected hrun
  obtain ⟨s₁, hrun₁, hlook, ha, hs₁⟩ := run_of_rejects hc hr hahead
  obtain ⟨he, rfl⟩ := Prod.mk.inj (hrun.symm.trans hrun₁)
  obtain rfl : e = s₁.rejection gs' x := Failure.grammar.inj (Except.error.inj he)
  refine ⟨us, p, (hasAhead_of_start hs).1 hahead, ?_, fun tr htr => ?_, fun b hb => ?_⟩
  · rw [Nat.add_comm, TokenSource.after_add, ← source_of_start hs]
    exact ha.source_eq
  · refine ⟨tr.recordAll es, ha.trace? htr, ?_⟩
    rw [Trace.eventsSince_recordAll, hc.terminals_eq]
  · -- every session with these tokens before it goes along the same course
    obtain ⟨t, ht⟩ : ∃ t, start b s.sink = .ok t := by
      obtain ⟨u, vs, hus⟩ := List.exists_cons_of_ne_nil (l := us ++ [p]) (by simp)
      exact exists_start (hus ▸ hb) s.sink
    obtain ⟨htsink, htused, -⟩ := of_start ht
    obtain ⟨t₁, hrun', hlook', -, ht₁⟩ := run_of_rejects hc hr ((hasAhead_of_start ht).2 hb)
    have hsinks : t₁.sink = s₁.sink := by
      rw [ht₁, hs₁, sink_replay, sink_replay]
      exact congrArg (Sink.tellAll · es) htsink
    rw [rejection_congr (hlook'.trans hlook.symm) (congrArg Sink.label hsinks)] at hrun'
    exact ⟨t, _, ht, parseProgram_of_error htused hrun', hsinks⟩

end Session

/-! ### Texts that begin alike -/

namespace Reader

open Lexeme

lemma rest_next_suffix (r : Reader) : r.next.2.rest <:+ r.rest := by
  have hskip : r.skipBlanks.rest <:+ r.rest := List.dropWhile_suffix _
  rcases hrest : r.skipBlanks.rest with _ | ⟨c, cs⟩
  · rw [next_of_nil rfl hrest]
    exact hskip
  · rw [next_of_cons rfl hrest]
    have hscan : (scan c cs).rest <:+ c :: cs := ⟨_, raw_append_rest_scan c cs⟩
    exact hscan.trans (hrest ▸ hskip)

lemma exists_after (r : Reader) (n : Nat) :
    ∃ r', TokenSource.after n (.reader r) = .reader r' ∧ r'.rest <:+ r.rest := by
  induction n generalizing r with
  | zero => exact ⟨r, rfl, List.suffix_refl _⟩
  | succ n ih =>
    obtain ⟨r', hr', hsuffix⟩ := ih r.next.2
    exact ⟨r', hr', hsuffix.trans r.rest_next_suffix⟩

/-- **A reader looks at one more character than it has read.** Where it has stopped before the end
of the text, its answers stay the same whatever stands behind the next character. -/
theorem beginsWith_of_after {r r' : Reader} {ts : List Token} {before cs : List Char} {d : Char}
    (hplace : r.place = .behind before) (h : (TokenSource.reader r).BeginsWith ts)
    (hafter : TokenSource.after ts.length (.reader r) = .reader r') (hrest : r'.rest = d :: cs) :
    ∃ read, r.rest = read ++ d :: cs ∧
      ∀ cs', (TokenSource.reader ⟨read ++ d :: cs', r.place⟩).BeginsWith ts := by
  induction ts generalizing r before with
  | nil =>
    obtain rfl : r = r' := TokenSource.reader.inj hafter
    exact ⟨[], hrest, fun cs' i t ht => by simp at ht⟩
  | cons t ts ih =>
    have hnext : r.next = (.ok t, r.next.2) := Prod.ext (h 0 t rfl) rfl
    have htail : (TokenSource.reader r.next.2).BeginsWith ts := fun i u hu => h (i + 1) u hu
    obtain ⟨-, -, hblank⟩ | ⟨p, -, htoken, hsplit, hplace', hstops⟩ := next_cases hplace hnext
    · -- the end of the text has been read, so nothing is left
      have hskip : r.skipBlanks.rest = [] := List.dropWhile_eq_nil_iff.2 hblank
      have hnil : r.next.2.rest = [] := by rw [next_of_nil rfl hskip, hskip]
      obtain ⟨r₁, hr₁, hsuffix⟩ := exists_after r.next.2 ts.length
      obtain rfl := TokenSource.reader.inj (hr₁.symm.trans hafter)
      rw [hnil, hrest] at hsuffix
      cases List.suffix_nil.1 hsuffix
    · obtain ⟨read, hread, hall⟩ := ih hplace' htail hafter
      refine ⟨p.chars ++ read, by rw [hsplit, hread, List.append_assoc], fun cs' i u hu => ?_⟩
      have hstops' : Stops p.symbol p.raw (read ++ d :: cs') := by
        rw [hread] at hstops
        rcases read with _ | ⟨c, read⟩ <;> exact hstops
      have hfirst : next ⟨p.chars ++ (read ++ d :: cs'), .behind before⟩ =
          (.ok (p.token before), ⟨read ++ d :: cs', .behind (before ++ p.chars)⟩) :=
        next_of_piece p hstops'
      rw [← hplace, ← List.append_assoc, ← htoken, ← hplace'] at hfirst
      rcases i with _ | i
      · obtain rfl : t = u := Option.some.inj hu
        exact congrArg Prod.fst hfirst
      · rw [TokenSource.answer, TokenSource.after, TokenSource.next, hfirst]
        exact hall cs' i u hu

end Reader

/-! ### What a rejection hangs on -/

lemma TokenSource.beginsWith_of_take {ts us vs : List Token} (h : (ofTokens ts).BeginsWith vs)
    (hlen : vs.length ≤ ts.length) (htake : us.take vs.length = ts.take vs.length) :
    (ofTokens us).BeginsWith vs := by
  intro i t ht
  have hi : i < vs.length := (List.getElem?_eq_some_iff.1 ht).1
  have hget : us[i]? = ts[i]? := by
    rw [← List.getElem?_take_of_lt hi, htake, List.getElem?_take_of_lt hi]
  have hts : ts[i]? = some ts[i] := List.getElem?_eq_getElem (by omega)
  rw [← h i t ht, answer_ofTokens, answer_ofTokens, padded, padded, hget, hts]
  rfl

/-- **A rejection depends only on what has been read.** Over tokens, these are the terminals and
the token behind them: every list that begins so is rejected with the same error and the same
events. In a text, they are the characters up to where the reader stands and the next one: every
text that begins so is rejected in the same way, whatever follows, be it text or not. -/
theorem rejection_depends_on_what_was_read (sink : Sink) :
    (∀ ts e s', (fresh ts sink).parseProgram Grammar.language = (.error (.grammar e), s') →
      ∃ q k, s'.source = .queue q ∧ q.asked = k + 1 ∧
        (∀ tr, sink.trace? = some tr → ∃ tr', s'.sink.trace? = some tr' ∧
          (Trace.terminals (tr'.eventsSince tr)).length = k) ∧
        (k + 1 ≤ ts.length → ∀ us, us.take (k + 1) = ts.take (k + 1) →
          ∃ s'', (fresh us sink).parseProgram Grammar.language = (.error (.grammar e), s'') ∧
            s''.sink = s'.sink)) ∧
    ∀ text s e s', start (.ofText text) sink = .ok s →
      s.parseProgram Grammar.language = (.error (.grammar e), s') →
      ∃ p place, p ≤ text.length ∧ s'.source = .reader ⟨text.toList.drop p, place⟩ ∧
        (p < text.length → ∀ text', text'.toList.take (p + 1) = text.toList.take (p + 1) →
          ∃ t t', start (.ofText text') sink = .ok t ∧
            t.parseProgram Grammar.language = (.error (.grammar e), t') ∧
            t'.sink = s'.sink) := by
  refine ⟨fun ts e s' h => ?_, fun text s e s' hs h => ?_⟩
  · have hs := start_ofTokens ts sink
    obtain ⟨vs, p, hbegin, hsource, htrace, hall⟩ := rejection_of_beginsWith hs h
    obtain ⟨q, hq, hasked⟩ := exists_after_queue (.ofList ts) (vs.length + 1)
    have hlen : (vs ++ [p]).length = vs.length + 1 := List.length_append
    refine ⟨q, vs.length, hsource.trans hq, hasked.trans (Nat.zero_add _), fun tr htr => ?_,
      fun hle us hus => ?_⟩
    · obtain ⟨tr', htr', hterminals⟩ := htrace tr htr
      exact ⟨tr', htr', congrArg _ hterminals⟩
    · rw [← hlen] at hle hus
      obtain ⟨t, t', ht, ht', hsink⟩ := hall _ (TokenSource.beginsWith_of_take hbegin hle hus)
      obtain rfl := Except.ok.inj ((start_ofTokens us sink).symm.trans ht)
      exact ⟨t', ht', hsink⟩
  · obtain ⟨vs, p, hbegin, hsource, -, hall⟩ := rejection_of_beginsWith hs h
    obtain ⟨r, hr, read, hread⟩ := (Reader.ofText text).exists_after (vs.length + 1)
    have htext : text.toList = read ++ r.rest := hread.symm
    have hlen : text.length = read.length + r.rest.length := by
      rw [← String.length_toList, htext, List.length_append]
    refine ⟨read.length, r.place, by omega, ?_, fun hlt text' htext' => hall _ ?_⟩
    · rw [htext, List.drop_left]
      exact hsource.trans hr
    · obtain ⟨d, cs, hrest⟩ : ∃ d cs, r.rest = d :: cs :=
        List.exists_cons_of_length_pos (by omega)
      have hafter : TokenSource.after (vs ++ [p]).length (.ofText text) = .reader r := by
        rw [List.length_append]
        exact hr
      obtain ⟨read', hread', hall'⟩ :=
        Reader.beginsWith_of_after Place.behind_nil.symm hbegin hafter hrest
      obtain rfl : read = read' := by
        rw [hrest, hread'] at hread
        exact List.append_cancel_right hread
      -- the other text goes on behind the same characters
      have hfirst : text'.toList.take (read.length + 1) = read ++ [d] := by
        rw [htext', htext, hrest, List.append_cons]
        exact List.take_left' List.length_append
      have hsplit : read ++ d :: text'.toList.drop (read.length + 1) = text'.toList := by
        rw [List.append_cons, ← hfirst, List.take_append_drop]
      have hbegin' := hall' (text'.toList.drop (read.length + 1))
      rw [hsplit] at hbegin'
      exact hbegin'

theorem rejection_depends_on_what_was_read_brokenAssignment :
    (∃ e s', (fresh brokenAssignment ⟨"", .trace .empty⟩).parseProgram Grammar.language =
        (.error (.grammar e), s') ∧
      ∀ us, us.take 3 = brokenAssignment →
        ∃ s'', (fresh us ⟨"", .trace .empty⟩).parseProgram Grammar.language =
          (.error (.grammar e), s'') ∧ s''.sink = s'.sink) ∧
    ∃ s e s', start (.ofText "x y") ⟨"", .trace .empty⟩ = .ok s ∧
      s.parseProgram Grammar.language = (.error (.grammar e), s') ∧
      ∀ text', text'.toList.take 2 = ['x', ' '] →
        ∃ t t', start (.ofText text') ⟨"", .trace .empty⟩ = .ok t ∧
          t.parseProgram Grammar.language = (.error (.grammar e), t') ∧ t'.sink = s'.sink := by
  obtain ⟨htokens, htext⟩ := rejection_depends_on_what_was_read ⟨"", .trace .empty⟩
  constructor
  · obtain ⟨es, gs', hc, hr⟩ := rejects_brokenAssignment
    obtain ⟨s₁, hrun, ha, -⟩ := (faces_fresh brokenAssignment _).claimed.run_of_rejected hc hr
    have h := parseProgram_of_error rfl hrun
    obtain ⟨q, k, hq, hasked, -, hall⟩ := htokens _ _ _ h
    obtain rfl := TokenSource.queue.inj (ha.source_eq.symm.trans hq)
    obtain rfl : k = 2 := (Nat.succ.inj hasked).symm
    exact ⟨_, _, h, hall (by decide)⟩
  · obtain ⟨s, r, hs, hkind, hsource, hrest⟩ :
        ∃ s r, start (.ofText "x y") ⟨"", .trace .empty⟩ = .ok s ∧
          s.lookahead.kind = .known .identifier ∧ s.source = .reader r ∧ r.rest = [' ', 'y'] :=
      ⟨_, _, rfl, rfl, rfl, rfl⟩
    obtain ⟨es, gs', hc⟩ : ∃ es gs', Course Grammar.language s.lookahead.kind programGoals [] es
        (.token .kwBegin :: gs') := ⟨_, _, .phrase (.refl _)⟩
    have hr : Grammar.language.Rejects s.lookahead.kind (.token .kwBegin :: gs')
        (.symbol .kwBegin) := .token (by rw [hkind]; decide) gs'
    have hahead : s.claimed.HasAhead [s.lookahead] := (Advances.refl s.claimed).hasAhead
    obtain ⟨s₁, hrun, -, ha, -⟩ := run_of_rejects hc hr hahead
    have h := parseProgram_of_error (of_start hs).2.1 hrun
    obtain ⟨p, place, hp, hq, hall⟩ := htext _ s _ _ hs h
    have hdrop : r = _ := TokenSource.reader.inj (hsource.symm.trans (ha.source_eq.symm.trans hq))
    obtain rfl : p = 1 := by
      have hlen := congrArg List.length (hrest.symm.trans (congrArg Reader.rest hdrop))
      rw [List.length_drop] at hlen
      have htwo : [' ', 'y'].length = 2 := rfl
      have hthree : "x y".toList.length = 3 := rfl
      omega
    exact ⟨s, _, _, hs, h, hall (by decide)⟩

end StatementLang
