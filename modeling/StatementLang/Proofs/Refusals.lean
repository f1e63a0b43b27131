import StatementLang.Proofs.Accounting
import StatementLang.Proofs.Observation

/-!
Sessions that are asked for a token.

A session that is asked for a token of some kind takes the token ahead, or refuses, or comes to a
fault behind the token (`Session.accept_asked`). A refusal leaves nothing but entries in the log,
however often it is repeated (`Session.Refused.performAll_replicate`). A fault is different: the
sink is told of the token before the next one is read, so it has been told of a token that is still
ahead (`refusals_leave_no_mark`).
-/

namespace StatementLang

namespace Kind

variable {k : Kind} {name : String} {u : UnknownKind}

lemma name?_of_name (h : k.name = .ok name) : k.name? = some name := by
  unfold Kind.name at h
  split at h
  · next hname => rw [hname, Except.ok.inj h]
  · cases h

lemma of_name_error (h : k.name = .error u) : k.name? = none ∧ u = ⟨k.code⟩ := by
  unfold Kind.name at h
  split at h
  · cases h
  · next hname => exact ⟨hname, (Except.error.inj h).symm⟩

end Kind

/-! ### Sinks that are told of a token -/

namespace Sink

open Printer

/-- What a sink is once it has been told of the token `t`: a trace has one event more, a printer has
one line more, and nothing else is changed. -/
inductive Told (t : Token) : Sink → Sink → Prop
  | silent (label : String) : Told t ⟨label, .silent⟩ ⟨label, .silent⟩
  | trace {label : String} {tr tr' : Trace} (hevents : tr'.events = tr.events ++ [.ofToken t])
    (hsucceeded : tr'.succeeded = tr.succeeded) : Told t ⟨label, .trace tr⟩ ⟨label, .trace tr'⟩
  | printer {label line : String} {p p' : Printer} (hline : (Event.ofToken t).line? = some line)
    (hlines : p'.lines = p.lines ++ [indented p.indent p.depth line])
    (hindent : p'.indent = p.indent) (hdepth : p'.depth = p.depth) :
    Told t ⟨label, .printer p⟩ ⟨label, .printer p'⟩

variable {s s' : Sink} {t : Token}

lemma told_of_token (h : s.token t = .ok s') : Told t s s' := by
  obtain ⟨label, _ | tr | p⟩ := s
  · cases h
    exact .silent label
  · cases h
    exact .trace (Trace.events_record tr _) rfl
  · rw [token] at h
    rcases hname : t.kind.name with u | name <;> rw [hname] at h <;> cases h
    refine .printer ?_ (lines_write p _) rfl rfl
    rw [Event.line?, Event.ofToken]
    simp only [Option.bind_eq_bind, Option.bind_some, Kind.name?_of_name hname]
    rfl

lemma name_of_token_error {u : UnknownKind} (h : s.token t = .error u) :
    t.kind.name = .error u := by
  obtain ⟨label, _ | tr | p⟩ := s
  · cases h
  · cases h
  · rw [token] at h
    rcases hname : t.kind.name with u' | name <;> rw [hname] at h <;> cases h
    rfl

lemma exists_token_again (h : s.token t = .ok s') : ∃ s'', s'.token t = .ok s'' := by
  obtain ⟨label, _ | tr | p⟩ := s
  · cases h
    exact ⟨_, rfl⟩
  · cases h
    exact ⟨_, rfl⟩
  · rw [token] at h
    rcases hname : t.kind.name with u | name <;> rw [hname] at h <;> cases h
    rw [token, hname]
    exact ⟨_, rfl⟩

end Sink

/-! ### Requests for a token -/

namespace Session

/-- The session refuses a token of the kind `k`, with these entries in the log. -/
inductive Refused (s : Session) (k : Kind) : Failure → List Record → Prop
  /-- The token ahead is of another kind. -/
  | rejected {name : String} {v : Violation} (hk : s.lookahead.kind ≠ k) (hname : k.name = .ok name)
    (hv : v = s.sink.violation s.lookahead ("<" ++ name ++ ">")) :
    Refused s k (.grammar (.ofViolation v)) [.violation v.message]
  /-- The kind has no name, which is needed for the complaint. -/
  | unknown {u : UnknownKind} (hk : s.lookahead.kind ≠ k) (hname : k.name = .error u) :
    Refused s k (.unknownKind u) []
  /-- The kind has no name, which is needed for the printout. -/
  | nameless {u : UnknownKind} (hk : s.lookahead.kind = k)
    (hsink : s.sink.token s.lookahead = .error u) : Refused s k (.unknownKind u) []

/-- What comes of asking a session for a token of the kind `k`. -/
inductive Asked (s : Session) (k : Kind) : Except Failure Token × Session → Prop
  | taken {t : Token} {source : TokenSource} {sink : Sink} (hk : s.lookahead.kind = k)
    (hsink : s.sink.token s.lookahead = .ok sink) (hn : s.source.next = (.ok t, source)) :
    Asked s k (.ok s.lookahead, ⟨source, t, sink, s.used, .accepted s.lookahead :: s.latest⟩)
  | fault {e : LexError} {source : TokenSource} {sink : Sink} (hk : s.lookahead.kind = k)
    (hsink : s.sink.token s.lookahead = .ok sink) (hn : s.source.next = (.error e, source)) :
    Asked s k (.error (.lexical e),
      ⟨source, s.lookahead, sink, s.used, .accepted s.lookahead :: s.latest⟩)
  | refused {f : Failure} {notes : List Record} (h : Refused s k f notes) :
    Asked s k (.error f, s.noteAll notes)

variable {s s' : Session} {k : Kind} {f : Failure} {notes : List Record}

theorem accept_asked (s : Session) (k : Kind) : Asked s k (s.accept k) := by
  unfold accept
  by_cases hk : s.lookahead.kind = k
  · rw [if_pos hk]
    rcases hsink : s.sink.token s.lookahead with u | sink
    · exact .refused (.nameless hk hsink)
    · rcases hn : s.source.next with ⟨e | t, source⟩
      · exact .fault hk hsink hn
      · exact .taken hk hsink hn
  · rw [if_neg hk]
    rcases hname : k.name with u | name
    · exact .refused (.unknown hk hname)
    · exact .refused (.rejected hk hname rfl)

namespace Refused

lemma ne_lexical (h : Refused s k f notes) (e : LexError) : f ≠ .lexical e := by
  cases h <;> nofun

lemma accept_eq (h : Refused s k f notes) : s.accept k = (.error f, s.noteAll notes) := by
  unfold accept
  cases h with
  | rejected hk hname hv =>
    rw [if_neg hk, hname, hv]
    rfl
  | unknown hk hname =>
    rw [if_neg hk, hname]
    rfl
  | nameless hk hsink =>
    rw [if_pos hk, hsink]
    rfl

lemma failure_eq (h : Refused s k f notes) :
    s.lookahead.kind ≠ k ∧ (∃ v, f = .grammar (.ofViolation v)) ∨
      k.name? = none ∧ f = .unknownKind ⟨k.code⟩ := by
  cases h with
  | rejected hk => exact .inl ⟨hk, _, rfl⟩
  | unknown hk hname =>
    obtain ⟨hnone, rfl⟩ := Kind.of_name_error hname
    exact .inr ⟨hnone, rfl⟩
  | nameless hk hsink =>
    obtain ⟨hnone, rfl⟩ := Kind.of_name_error (Sink.name_of_token_error hsink)
    exact .inr (hk ▸ ⟨hnone, rfl⟩)

lemma noteAll (h : Refused s k f notes) (rs : List Record) :
    Refused (s.noteAll rs) k f notes := by
  cases h with
  | rejected hk hname hv => exact .rejected hk hname hv
  | unknown hk hname => exact .unknown hk hname
  | nameless hk hsink => exact .nameless hk hsink

/-- **Refusals that are repeated leave entries in the log, and nothing else.** -/
theorem performAll_replicate (g : Grammar) (h : Refused s k f notes) (n : Nat) :
    ∃ rs, performAll g s (.replicate n (.accept k)) = s.noteAll rs := by
  induction n generalizing s with
  | zero => exact ⟨[], rfl⟩
  | succ n ih =>
    obtain ⟨rs, hrs⟩ := ih (h.noteAll notes)
    refine ⟨notes ++ rs, ?_⟩
    have hperform : (s.perform g (.accept k)).2 = s.noteAll notes :=
      congrArg Prod.snd h.accept_eq
    rw [List.replicate_succ, performAll_cons, hperform, hrs]
    simp [Session.noteAll]

end Refused

lemma told_again {sink : Sink} {t : Token} (hsink : sink.token t = .ok s.sink)
    (ht : s.lookahead = t) (hk : t.kind = k) : Sink.Told t s.sink (s.accept k).2.sink := by
  subst ht
  have hasked := accept_asked s k
  generalize s.accept k = r at hasked ⊢
  cases hasked with
  | taken _ hsink' | fault _ hsink' => exact Sink.told_of_token hsink'
  | refused hr =>
    cases hr with
    | rejected hne | unknown hne => exact absurd hk hne
    | nameless _ herror =>
      obtain ⟨sink', hsink'⟩ := Sink.exists_token_again hsink
      rw [hsink'] at herror
      cases herror

end Session

open Session in
/-- **Refusals leave no mark; faults come too late.** Whatever a session has been asked for, and
whatever the kind that it is asked to take:

* if it takes a token, that is the token ahead, of which the sink is told once, and just one more
  token is read;
* if it comes to a fault, the token ahead is of the kind. It stays ahead, but the sink has been told
  of it, and is told of it again when the session is asked again;
* else there is no other change than entries in the log, also if the session is asked again any
  number of times; it always fails in the same way. -/
theorem refusals_leave_no_mark (s : Session) (k : Kind) :
    (∀ t s', s.accept k = (.ok t, s') →
      t = s.lookahead ∧ t.kind = k ∧ Sink.Told t s.sink s'.sink ∧
        s.source.next = (.ok s'.lookahead, s'.source)) ∧
    (∀ e s', s.accept k = (.error (.lexical e), s') →
      s.lookahead.kind = k ∧ s'.lookahead = s.lookahead ∧ Sink.Told s.lookahead s.sink s'.sink ∧
        s.source.next = (.error e, s'.source) ∧
        Sink.Told s.lookahead s'.sink (s'.accept k).2.sink) ∧
    ∀ f s', s.accept k = (.error f, s') → (∀ e, f ≠ .lexical e) →
      (s.lookahead.kind ≠ k ∧ (∃ v, f = .grammar (.ofViolation v)) ∨
        k.name? = none ∧ f = .unknownKind ⟨k.code⟩) ∧
      (∃ rs, s' = s.noteAll rs) ∧
      ∀ n, ∃ rs, performAll .language s (.replicate n (.accept k)) = s.noteAll rs ∧
        ((s.noteAll rs).accept k).1 = .error f := by
  have hasked := accept_asked s k
  refine ⟨fun t s' h => ?_, fun e s' h => ?_, fun f s' h hf => ?_⟩ <;> rw [h] at hasked
  · cases hasked with
    | taken hk hsink hn => exact ⟨rfl, hk, Sink.told_of_token hsink, hn⟩
  · cases hasked with
    | fault hk hsink hn =>
      exact ⟨hk, rfl, Sink.told_of_token hsink, hn, told_again hsink rfl hk⟩
    | refused hr => exact absurd rfl (hr.ne_lexical e)
  · cases hasked with
    | fault => exact absurd rfl (hf _)
    | refused hr =>
      refine ⟨hr.failure_eq, ⟨_, rfl⟩, fun n => ?_⟩
      obtain ⟨rs, hrs⟩ := hr.performAll_replicate .language n
      exact ⟨rs, hrs, congrArg Prod.fst (hr.noteAll rs).accept_eq⟩

/-- The first token of the text `x 1.`, in which a number ends with its point. -/
def nameToken : Token := ⟨.known .identifier, "x", 1, 1⟩

def nameAhead : Session :=
  ⟨.reader ⟨[' ', '1', '.'], ⟨1, 2⟩⟩, nameToken, ⟨"", .trace .empty⟩, false, []⟩

/-- When the name has been asked for. -/
def faultBehind : Session :=
  ⟨.reader ⟨['.'], ⟨1, 4⟩⟩, nameToken, ⟨"", .trace ⟨[.ofToken nameToken], false⟩⟩, false,
    [.accepted nameToken]⟩

lemma accept_nameAhead : nameAhead.accept (.known .identifier) =
    (.error (.lexical ⟨.malformedNumber, ⟨1, 3⟩⟩), faultBehind) := by
  rfl

lemma accept_faultBehind : ∃ s', faultBehind.accept (.known .identifier) = (.ok nameToken, s') ∧
    s'.sink.trace?.map Trace.events = some [.ofToken nameToken, .ofToken nameToken] := by
  exact ⟨_, rfl, rfl⟩

theorem refusals_leave_no_mark_nameAhead :
    Sink.Told nameToken nameAhead.sink faultBehind.sink ∧
    (∃ s', faultBehind.accept (.known .identifier) = (.ok nameToken, s') ∧
      Sink.Told nameToken faultBehind.sink s'.sink) ∧
    ∃ f s', nameAhead.accept (.known .becomes) = (.error f, s') ∧ (∀ e, f ≠ .lexical e) ∧
      ∃ rs, s' = nameAhead.noteAll rs := by
  refine ⟨?_, ?_, ?_⟩
  · obtain ⟨-, -, htold, -⟩ := (refusals_leave_no_mark _ _).2.1 _ _ accept_nameAhead
    exact htold
  · obtain ⟨s', hs', -⟩ := accept_faultBehind
    obtain ⟨-, -, htold, -⟩ := (refusals_leave_no_mark _ _).1 _ _ hs'
    exact ⟨s', hs', htold⟩
  · have hrejected : ∃ v s', nameAhead.accept (.known .becomes) =
        (.error (.grammar (.ofViolation v)), s') := ⟨_, _, rfl⟩
    obtain ⟨v, s', hs'⟩ := hrejected
    obtain ⟨-, hnotes, -⟩ := (refusals_leave_no_mark _ _).2.2 _ _ hs' nofun
    exact ⟨_, s', hs', nofun, hnotes⟩

/-- The sink is told of the name although it is not taken, and again when it is. -/
theorem fault_leaves_mark_nameAhead :
    Session.start (.ofText "x 1.") ⟨"", .trace .empty⟩ = .ok nameAhead ∧
    nameAhead.accept (.known .identifier) =
      (.error (.lexical ⟨.malformedNumber, ⟨1, 3⟩⟩), faultBehind) ∧
    nameAhead.sink.trace?.map Trace.events = some [] ∧
    faultBehind.sink.trace?.map Trace.events = some [.ofToken nameToken] ∧
    ∃ s', faultBehind.accept (.known .identifier) = (.ok nameToken, s') ∧
      s'.sink.trace?.map Trace.events = some [.ofToken nameToken, .ofToken nameToken] :=
  ⟨rfl, accept_nameAhead, rfl, rfl, accept_faultBehind⟩

end StatementLang
