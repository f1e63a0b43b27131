import StatementLang.Grammar
import StatementLang.Record
import StatementLang.Sink
import StatementLang.TokenSource

/-!
Sessions: a source of tokens with one token looked at in advance, a sink, and the log so far.

This module holds the single acts of a session: taking a token of a given kind, rejecting the
token ahead, entering and leaving a phrase. A token is taken only if the sink can be told of it,
and it stays ahead if the one after it cannot be read.
-/

namespace StatementLang

/-- Why a call on a session fails. -/
inductive Failure where
  | grammar (e : GrammarError)
  | lexical (e : LexError)
  | unknownKind (u : UnknownKind)
  | alreadyUsed
  deriving DecidableEq

namespace Failure

def message : Failure → String
  | grammar e => e.message
  | lexical e => e.message
  | unknownKind u => u.message
  | alreadyUsed => "Parser instances are single-use; create a new Parser"

/-- The failure as it leaves open phrases that stop on a line, the innermost first. Only an error
in the form of a program tells of them. -/
def within (f : Failure) (phrases : List Nonterminal) (line : Int) : Failure :=
  match f with
  | grammar e => grammar (phrases.foldl (fun e n => e.within n.name line) e)
  | f => f

end Failure

structure Session where
  source : TokenSource
  lookahead : Token
  sink : Sink
  /-- Whether a whole program has been asked for. -/
  used : Bool
  /-- The log, the last entry first. -/
  latest : List Record

namespace Session

/-- Looks at the first token. -/
def start (source : TokenSource) (sink : Sink) : Except LexError Session :=
  match source.next with
  | (.ok t, source) => .ok ⟨source, t, sink, false, []⟩
  | (.error e, _) => .error e

/-- The log in order. -/
def log (s : Session) : List Record := s.latest.reverse

/-- The entries of the log that came after an earlier state of the session. -/
def logSince (s earlier : Session) : List Record := s.log.drop earlier.log.length

def note (s : Session) (r : Record) : Session := { s with latest := r :: s.latest }

@[simp] theorem log_note (s : Session) (r : Record) : (s.note r).log = s.log ++ [r] := by
  simp [log, note]

/-! ### The acts of a session -/

def enter (s : Session) (n : Nonterminal) : Session :=
  { s with sink := s.sink.enter n.name }.note (.entering n.name s.lookahead.line)

def leave (s : Session) (n : Nonterminal) : Session :=
  { s with sink := s.sink.leave n.name }.note (.leaving n.name)

/-- Fails because of the token ahead, where something else is expected. -/
def reject (s : Session) (expected : String) : Failure × Session :=
  let v := s.sink.violation s.lookahead expected
  (.grammar (.ofViolation v), s.note (.violation v.message))

/-- Takes the token ahead if it is of the given kind, and looks at the next one. -/
def accept (s : Session) (k : Kind) : Except Failure Token × Session :=
  if s.lookahead.kind = k then
    match s.sink.token s.lookahead with
    | .error unknown => (.error (.unknownKind unknown), s)
    | .ok sink =>
      let told := { s with sink := sink }.note (.accepted s.lookahead)
      match s.source.next with
      | (.ok t, source) => (.ok s.lookahead, { told with source := source, lookahead := t })
      | (.error e, source) => (.error (.lexical e), { told with source := source })
  else
    match k.name with
    | .error unknown => (.error (.unknownKind unknown), s)
    | .ok name =>
      let (failure, s) := s.reject ("<" ++ name ++ ">")
      (.error failure, s)

/-! ### Distance to the end of the text -/

/-- A bound on the acts that take a token, where the end of the text can be taken for nothing. -/
def distance (s : Session) : Nat :=
  2 * s.source.remaining + (if s.lookahead.IsEnd then 0 else 1)

@[simp] theorem distance_enter (s : Session) (n : Nonterminal) :
    (s.enter n).distance = s.distance := rfl

@[simp] theorem distance_leave (s : Session) (n : Nonterminal) :
    (s.leave n).distance = s.distance := rfl

theorem distance_next {source source' : TokenSource} {t : Token}
    (h : source.next = (.ok t, source')) :
    2 * source'.remaining + (if t.IsEnd then 0 else 1) ≤ 2 * source.remaining := by
  have hle := source.remaining_next_le
  rw [h] at hle
  split
  · simp only at hle; omega
  · next ht =>
    have hlt := TokenSource.remaining_next (s := source) (t := t) (by rw [h]) ht
    rw [h] at hlt
    simp only at hlt
    omega

/-- What a token taken leaves of a session. -/
theorem of_accept {s s' : Session} {k : Kind} {t : Token} (h : s.accept k = (.ok t, s')) :
    s.lookahead.kind = k ∧ t = s.lookahead ∧
      s.source.next = (.ok s'.lookahead, s'.source) := by
  unfold accept at h
  split at h
  · next hk =>
    split at h
    · simp at h
    · split at h
      · next u source hn =>
        simp only [Prod.mk.injEq, Except.ok.injEq] at h
        obtain ⟨rfl, rfl⟩ := h
        exact ⟨hk, rfl, hn⟩
      · simp at h
  · split at h <;> simp at h

theorem distance_accept_le {s s' : Session} {k : Kind} {t : Token}
    (h : s.accept k = (.ok t, s')) : s'.distance ≤ s.distance := by
  have := distance_next (of_accept h).2.2
  simp only [distance] at this ⊢
  omega

/-- Taking a token that is not the end of the text leads closer to it. -/
theorem distance_accept {s s' : Session} {x : Symbol} {t : Token}
    (h : s.accept (.known x) = (.ok t, s')) (hx : x ≠ .endOfFile) : s'.distance < s.distance := by
  obtain ⟨hk, -, hn⟩ := of_accept h
  have hd := distance_next hn
  have : ¬ s.lookahead.IsEnd := fun he => by
    rw [Token.IsEnd, hk] at he
    exact hx (Kind.known.inj he)
  simp only [distance, this, if_false] at hd ⊢
  omega

end Session

end StatementLang
