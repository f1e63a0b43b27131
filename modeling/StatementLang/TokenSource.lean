import StatementLang.Reader

/-!
Sources of tokens: a text that is read on demand, or tokens that are there already.

A queue of tokens never runs dry. Once its tokens are taken it answers with its closing token: the
last of its tokens if that ends the text, and otherwise the end of the text on the line of the last
token. Every answer that does not end the text brings a source closer to its end
(`remaining_next`).
-/

namespace StatementLang

/-- Tokens waiting to be taken, and the one that follows them forever. -/
structure TokenQueue where
  pending : List Token
  /-- How many tokens there were at first. -/
  size : Nat
  /-- How many tokens have been asked for. -/
  asked : Nat
  closing : Token
  closing_isEnd : closing.IsEnd

namespace TokenQueue

/-- The token that follows a list of tokens forever. -/
def closingOf (ts : List Token) : Token :=
  match ts.getLast? with
  | some t => if t.IsEnd then t else .atEnd t.line 0
  | none => .atEnd 1 0

theorem isEnd_closingOf (ts : List Token) : (closingOf ts).IsEnd := by
  unfold closingOf
  split
  · split
    · assumption
    · rfl
  · rfl

def ofList (ts : List Token) : TokenQueue :=
  ⟨ts, ts.length, 0, closingOf ts, isEnd_closingOf ts⟩

/-- How many of the tokens have been taken. -/
def taken (q : TokenQueue) : Nat := min q.asked q.size

def next (q : TokenQueue) : Token × TokenQueue :=
  match q.pending with
  | t :: ts => (t, { q with pending := ts, asked := q.asked + 1 })
  | [] => (q.closing, { q with asked := q.asked + 1 })

end TokenQueue

inductive TokenSource where
  | queue (q : TokenQueue)
  | reader (r : Reader)

namespace TokenSource

def ofTokens (ts : List Token) : TokenSource := .queue (.ofList ts)
def ofText (text : String) : TokenSource := .reader (.ofText text)

/-- The next token. A source whose text holds a fault there moves on behind it. -/
def next : TokenSource → Except LexError Token × TokenSource
  | queue q => (.ok q.next.1, .queue q.next.2)
  | reader r => (r.next.1, .reader r.next.2)

/-- A bound on the number of answers that do not end the text. -/
def remaining : TokenSource → Nat
  | queue q => q.pending.length
  | reader r => r.rest.length

theorem remaining_next_le (s : TokenSource) : s.next.2.remaining ≤ s.remaining := by
  cases s with
  | queue q => unfold next TokenQueue.next remaining; dsimp only; split <;> simp_all
  | reader r => exact r.length_rest_next_le

theorem remaining_next {s : TokenSource} {t : Token} (h : s.next.1 = .ok t) (ht : ¬ t.IsEnd) :
    s.next.2.remaining < s.remaining := by
  cases s with
  | queue q =>
    unfold next TokenQueue.next at h
    dsimp only at h
    split at h
    · next hp => simp [next, TokenQueue.next, remaining, hp]
    · cases h
      exact absurd q.closing_isEnd ht
  | reader r =>
    refine Reader.length_rest_next fun u hu => ?_
    have : r.next.1 = .ok t := h
    rw [hu] at this
    cases this
    exact ht

end TokenSource

end StatementLang
