import StatementLang.Proofs.Course
import StatementLang.Proofs.Steps

/-!
What a session has before it, and what it leaves behind.

A source determines all of its answers in advance. Every step of a run lets a session advance along
them: it takes tokens from the front, and its sink is told of the events. So every run has a course
over the tokens it takes (`run_outcome`), and what it has made of the session is the replay of the
events of that course (`Reaches.told`).
-/

namespace StatementLang

namespace TokenSource

def after : Nat → TokenSource → TokenSource
  | 0, s => s
  | i + 1, s => after i s.next.2

/-- The answer to a request after `i` others. -/
def answer (s : TokenSource) (i : Nat) : Except LexError Token := (after i s).next.1

lemma after_add (i j : Nat) (s : TokenSource) : after (i + j) s = after j (after i s) := by
  induction i generalizing s with
  | zero => simp [after]
  | succ i ih => rw [Nat.succ_add, after, ih, after]

end TokenSource

namespace TokenQueue

/-- The tokens that a list of tokens stands for, which go on forever. -/
def padded (ts : List Token) (i : Nat) : Token := ts[i]?.getD (closingOf ts)

def firstOf (ts : List Token) (k : Nat) : List Token := (List.range k).map (padded ts)

@[simp] lemma length_firstOf (ts : List Token) (k : Nat) : (firstOf ts k).length = k := by
  simp [firstOf]

/-- The token that a queue answers with after `i` others. -/
def nth (q : TokenQueue) (i : Nat) : Token := q.pending[i]?.getD q.closing

lemma nth_zero (q : TokenQueue) : q.nth 0 = q.next.1 := by
  rcases h : q.pending with _ | ⟨t, ts⟩ <;> simp [nth, next, h]

lemma nth_succ (q : TokenQueue) (i : Nat) : q.nth (i + 1) = q.next.2.nth i := by
  rcases h : q.pending with _ | ⟨t, ts⟩ <;> simp [nth, next, h]

lemma answer_queue (q : TokenQueue) (i : Nat) : (TokenSource.queue q).answer i = .ok (q.nth i) := by
  induction i generalizing q with
  | zero => rw [nth_zero]; rfl
  | succ i ih => rw [nth_succ]; exact ih q.next.2

lemma exists_after_queue (q : TokenQueue) (n : Nat) :
    ∃ q', TokenSource.after n (.queue q) = .queue q' ∧ q'.asked = q.asked + n := by
  induction n generalizing q with
  | zero => exact ⟨q, rfl, rfl⟩
  | succ n ih =>
    obtain ⟨q', hq', hasked⟩ := ih q.next.2
    refine ⟨q', hq', ?_⟩
    have hnext : q.next.2.asked = q.asked + 1 := by
      unfold next
      split <;> rfl
    omega

end TokenQueue

def Trace.recordAll (t : Trace) (es : List Event) : Trace := es.foldl record t

namespace Trace

@[simp] lemma recordAll_nil (t : Trace) : t.recordAll [] = t := rfl

@[simp] lemma recordAll_cons (t : Trace) (e : Event) (es : List Event) :
    t.recordAll (e :: es) = (t.record e).recordAll es := rfl

@[simp] lemma events_recordAll (t : Trace) (es : List Event) :
    (t.recordAll es).events = t.events ++ es := by
  induction es generalizing t with
  | nil => simp
  | cons e es ih => simp [ih]

@[simp] lemma succeeded_recordAll (t : Trace) (es : List Event) :
    (t.recordAll es).succeeded = t.succeeded := by
  induction es generalizing t with
  | nil => rfl
  | cons e es ih => simp [ih, record]

end Trace

lemma Sink.label_token {sink sink' : Sink} {t : Token}
    (h : sink.token t = .ok sink') : sink'.label = sink.label := by
  unfold Sink.token at h
  split at h
  · cases h; rfl
  · cases h; rfl
  · split at h <;> cases h
    rfl

namespace Sink

def tell (s : Sink) (e : Event) : Sink :=
  match e.tag, e.token with
  | .enter, _ => s.enter e.name
  | .leave, _ => s.leave e.name
  | .terminal, some t => (s.token t).toOption.getD s
  | _, _ => s

def tellAll (s : Sink) (es : List Event) : Sink := es.foldl tell s

@[simp] lemma tellAll_nil (s : Sink) : s.tellAll [] = s := rfl

@[simp] lemma tellAll_cons (s : Sink) (e : Event) (es : List Event) :
    s.tellAll (e :: es) = (s.tell e).tellAll es := rfl

lemma tellAll_append (s : Sink) (es fs : List Event) :
    s.tellAll (es ++ fs) = (s.tellAll es).tellAll fs := by
  simp [tellAll, List.foldl_append]

lemma tell_ofToken {s s' : Sink} {t : Token} (h : s.token t = .ok s') :
    s.tell (.ofToken t) = s' := by
  simp [tell, Event.ofToken, h, Except.toOption]

end Sink

/-! ### What events make of a session -/

/-- The entry of the log for an event, when the token ahead stands on a line. -/
def Event.record? (line : Int) (e : Event) : Option Record :=
  match e.tag with
  | .enter => some (.entering e.name line)
  | .leave => some (.leaving e.name)
  | .terminal => e.token.map .accepted
  | .custom _ => none

namespace Session

/-- Looks at the next token. If a fault stands there, the same token stays ahead. -/
def pull (s : Session) : Session :=
  match s.source.next with
  | (.ok t, source) => { s with source := source, lookahead := t }
  | (.error _, source) => { s with source := source }

@[simp] lemma sink_pull (s : Session) : s.pull.sink = s.sink := by
  unfold pull
  split <;> rfl

/-- The session with its sink and its log told of an event. -/
def hear (s : Session) (e : Event) : Session :=
  { s with
    sink := s.sink.tell e
    latest := (e.record? s.lookahead.line).toList ++ s.latest }

/-- The session after an event. A token that is taken makes way for the next one. -/
def happen (s : Session) (e : Event) : Session :=
  if e.tag = .terminal then (s.hear e).pull else s.hear e

def replay (s : Session) (es : List Event) : Session := es.foldl happen s

@[simp] lemma replay_nil (s : Session) : s.replay [] = s := rfl

@[simp] lemma replay_cons (s : Session) (e : Event) (es : List Event) :
    s.replay (e :: es) = (s.happen e).replay es := rfl

lemma replay_append (s : Session) (es fs : List Event) :
    s.replay (es ++ fs) = (s.replay es).replay fs := List.foldl_append

@[simp] lemma sink_happen (s : Session) (e : Event) : (s.happen e).sink = s.sink.tell e := by
  unfold happen
  split
  · exact sink_pull _
  · rfl

@[simp] lemma sink_replay (s : Session) (es : List Event) :
    (s.replay es).sink = s.sink.tellAll es := by
  induction es generalizing s with
  | nil => rfl
  | cons e es ih => rw [replay_cons, ih, sink_happen, Sink.tellAll_cons]

lemma eq_happen_of_taken {s s' : Session} {x : Symbol} {r : Except Failure Token}
    (h : s.accept (.known x) = (r, s')) (hk : s.lookahead.kind = .known x) :
    s' = s.happen (.ofToken s.lookahead) := by
  have hhappen : s.happen (.ofToken s.lookahead) = (s.hear (.ofToken s.lookahead)).pull := rfl
  have ht := accept_taken s x
  rw [h] at ht
  rw [hhappen, pull, hear]
  cases ht with
  | taken _ hsink hn | fault _ hsink hn =>
    rw [hn, Sink.tell_ofToken hsink]
    rfl
  | rejected hne => exact absurd hk hne

end Session

/-! ### Sessions that advance -/

namespace Session

/-- The tokens that the session has before it, from the one that it looks at. -/
def upcoming (s : Session) : Nat → Except LexError Token
  | 0 => .ok s.lookahead
  | i + 1 => s.source.answer i

lemma of_start {source : TokenSource} {sink : Sink} {s : Session}
    (h : start source sink = .ok s) :
    s.sink = sink ∧ s.used = false ∧ ∀ i, s.upcoming i = source.answer i := by
  unfold start at h
  split at h
  · next t source' hn =>
    cases h
    refine ⟨rfl, rfl, fun i => ?_⟩
    cases i with
    | zero => exact (congrArg Prod.fst hn).symm
    | succ i =>
      rw [TokenSource.answer, TokenSource.after, hn]
      rfl
  · cases h

lemma source_of_start {source : TokenSource} {sink : Sink} {s : Session}
    (h : start source sink = .ok s) : s.source = source.after 1 := by
  unfold start at h
  split at h
  · next hn =>
    cases h
    exact (congrArg Prod.snd hn).symm
  · cases h

/-- What the tokens `ts` and the events `es` make of a session. -/
structure Advances (s : Session) (ts : List Token) (es : List Event) (s' : Session) : Prop where
  taken : ts.map .ok = (List.range ts.length).map s.upcoming
  upcoming_eq : ∀ i, s'.upcoming i = s.upcoming (ts.length + i)
  source_eq : s'.source = s.source.after ts.length
  label_eq : s'.sink.label = s.sink.label
  used_eq : s'.used = s.used
  /-- A trace records just the events. -/
  trace_eq : ∀ l tr, s.sink = ⟨l, .trace tr⟩ → s'.sink = ⟨l, .trace (tr.recordAll es)⟩

namespace Advances

variable {s s' s'' : Session} {ts us : List Token} {es fs : List Event}

lemma refl (s : Session) : s.Advances [] [] s :=
  ⟨rfl, fun i => by simp, rfl, rfl, rfl, fun _ _ h => h⟩

lemma trans (h : s.Advances ts es s') (h' : s'.Advances us fs s'') :
    s.Advances (ts ++ us) (es ++ fs) s'' where
  taken := by
    rw [List.map_append, h.taken, h'.taken, List.length_append, List.range_add, List.map_append,
      List.map_map]
    congr 1
    exact List.map_congr_left fun i _ => h.upcoming_eq i
  upcoming_eq i := by
    rw [h'.upcoming_eq, h.upcoming_eq, List.length_append, Nat.add_assoc]
  source_eq := by
    rw [h'.source_eq, h.source_eq, List.length_append, TokenSource.after_add]
  label_eq := h'.label_eq.trans h.label_eq
  used_eq := h'.used_eq.trans h.used_eq
  trace_eq l tr hs := by
    rw [h'.trace_eq l _ (h.trace_eq l tr hs)]
    simp [Trace.recordAll]

lemma enter (s : Session) (n : Nonterminal) : s.Advances [] [.ofEnter n.name] (s.enter n) where
  taken := rfl
  upcoming_eq i := by cases i <;> simp [upcoming, Session.enter, note]
  source_eq := rfl
  label_eq := by simp [Session.enter, note]
  used_eq := rfl
  trace_eq l tr hs := by simp [Session.enter, note, Sink.enter, hs]

lemma leave (s : Session) (n : Nonterminal) : s.Advances [] [.ofLeave n.name] (s.leave n) where
  taken := rfl
  upcoming_eq i := by cases i <;> simp [upcoming, Session.leave, note]
  source_eq := rfl
  label_eq := by simp [Session.leave, note]
  used_eq := rfl
  trace_eq l tr hs := by simp [Session.leave, note, Sink.leave, hs]

lemma accept {s s' : Session} {k : Kind} {t : Token} (h : s.accept k = (.ok t, s')) :
    s.Advances [s.lookahead] [.ofToken s.lookahead] s' := by
  unfold Session.accept at h
  split at h
  · rcases hsink : s.sink.token s.lookahead with unknown | sink
    · rw [hsink] at h
      cases h
    · rcases hn : s.source.next with ⟨e | u, source⟩
      · rw [hsink, hn] at h
        cases h
      · rw [hsink, hn] at h
        cases h
        refine ⟨by simp [upcoming], fun i => ?_, ?_, Sink.label_token hsink, rfl, fun l tr hs => ?_⟩
        · rw [List.length_singleton, Nat.add_comm]
          cases i <;> simp [upcoming, TokenSource.answer, TokenSource.after, hn]
        · simp [TokenSource.after, hn]
        · rw [hs] at hsink
          cases hsink
          rfl
  · split at h <;> cases h

lemma token {s s' : Session} {x : Symbol} {t : Token}
    (h : s.accept (.known x) = (.ok t, s')) :
    s.lookahead.kind = .known x ∧ s.Advances [s.lookahead] [.ofToken s.lookahead] s' :=
  ⟨(of_accept h).1, accept h⟩

lemma ahead_eq (h : s.Advances ts es s') : ahead s'.lookahead.kind ts = s.lookahead.kind := by
  rcases ts with _ | ⟨t, ts⟩
  · have := h.upcoming_eq 0
    simp only [upcoming, List.length_nil, Nat.add_zero, Except.ok.injEq] at this
    rw [ahead_nil, this]
  · have := congrArg List.head? h.taken
    simp only [List.map_cons, List.head?_cons, List.length_cons, List.range_succ_eq_map,
      upcoming, Option.some.injEq, Except.ok.injEq] at this
    rw [ahead_cons, this]

end Advances

variable {g : Grammar}

theorem Reaches.told {c : Config} {gs' : List Goal} {s' : Session}
    (h : Reaches g c (gs', s')) :
    ∃ ts es, Course g s'.lookahead.kind c.1 ts es gs' ∧ c.2.Advances ts es s' ∧
      s' = c.2.replay es := by
  induction h using Relation.ReflTransGen.head_induction_on with
  | refl => exact ⟨[], [], .refl _, .refl _, rfl⟩
  | head hstep _ ih =>
    obtain ⟨ts, es, hc, ha, hs'⟩ := ih
    cases hstep with
    | token h =>
      obtain ⟨hk, hadvances⟩ := Advances.token h
      rw [eq_happen_of_taken h hk, ← replay_cons] at hs'
      exact ⟨_, _, .token hk hc, hadvances.trans ha, hs'⟩
    | phrase n gs s => exact ⟨_, _, .phrase hc, (Advances.enter s n).trans ha, hs'⟩
    | leave n gs s => exact ⟨_, _, .leave hc, (Advances.leave s n).trans ha, hs'⟩
    | choice h => exact ⟨_, _, .choice (by rwa [ha.ahead_eq]) hc, ha, hs'⟩

theorem Reaches.course {c : Config} {gs' : List Goal} {s' : Session}
    (h : Reaches g c (gs', s')) :
    ∃ ts es, Course g s'.lookahead.kind c.1 ts es gs' ∧ c.2.Advances ts es s' := by
  obtain ⟨ts, es, hc, ha, -⟩ := h.told
  exact ⟨ts, es, hc, ha⟩

/-- What a run returns, with its course over the tokens that it takes. -/
inductive Outcome (g : Grammar) (gs : List Goal) (s : Session) :
    Except Failure Unit × Session → Prop
  | reached {ts : List Token} {es : List Event} {s' : Session}
    (hc : Course g s'.lookahead.kind gs ts es []) (ha : s.Advances ts es s') :
    Outcome g gs s (.ok (), s')
  | rejected {ts : List Token} {es : List Event} {gs' : List Goal} {s' : Session} {e : Expectation}
    (hc : Course g s'.lookahead.kind gs ts es gs') (ha : s.Advances ts es s')
    (hr : g.Rejects s'.lookahead.kind gs' e) :
    Outcome g gs s
      (.error ((s'.reject e.text).1.within (Goal.openPhrases gs') s'.lookahead.line),
        (s'.reject e.text).2)
  | fault {ts : List Token} {es : List Event} {gs' : List Goal} {s' t : Session} {x : Symbol}
    {e : LexError} (hc : Course g s'.lookahead.kind gs ts es (.token x :: gs'))
    (ha : s.Advances ts es s') (hk : s'.lookahead.kind = .known x)
    (he : s'.source.answer 0 = .error e) : Outcome g gs s (.error (.lexical e), t)

/-- **A run follows a course** to its end, unless a fault of the text stops it. -/
theorem run_outcome (gs : List Goal) (s : Session) : Outcome g gs s (run g gs s) := by
  obtain ⟨r, hr⟩ : ∃ r, run g gs s = r := ⟨_, rfl⟩
  have hends := run_ends (g := g) gs s
  rw [hr] at hends ⊢
  cases hends with
  | done h =>
    obtain ⟨ts, es, hc, ha⟩ := h.course
    exact .reached hc ha
  | failed h hf =>
    obtain ⟨ts, es, hc, ha⟩ := h.course
    cases hf with
    | @token x _ s₁ _ _ hf =>
      have ht := accept_taken s₁ x
      rw [hf] at ht
      cases ht with
      | fault hk _ hn =>
        exact .fault hc ha hk (by simp [TokenSource.answer, TokenSource.after, hn])
      | rejected hk =>
        have := Outcome.rejected hc ha (.token hk _)
        rwa [Expectation.text_symbol] at this
    | choice hf => exact .rejected hc ha (.choice hf _)

end Session

end StatementLang
