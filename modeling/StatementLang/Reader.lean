import StatementLang.Lexeme
import StatementLang.Place
import StatementLang.Token

/-!
Readers take the tokens off a text one by one.

A reader holds what is left of the text and the place where that begins. It goes on behind a faulty
lexeme, and once the text is used up it answers with the end of the text forever. Every other
answer, also a fault, makes the text left shorter (`length_rest_next`).
-/

namespace StatementLang

/-- A faulty lexeme and the place of its first character. -/
structure LexError where
  fault : Fault
  place : Place
  deriving DecidableEq

namespace LexError

def message (e : LexError) : String :=
  let what := match e.fault with
    | .malformedNumber => "Invalid number format"
    | .openString => "Unterminated string"
  s!"{what} at line {e.place.line}, col {e.place.column}"

end LexError

structure Reader where
  rest : List Char
  place : Place
  deriving DecidableEq

namespace Reader

def ofText (text : String) : Reader := ⟨text.toList, .start⟩

def skipBlanks (r : Reader) : Reader :=
  ⟨r.rest.dropWhile Lexeme.isBlank, r.place.advance (r.rest.takeWhile Lexeme.isBlank)⟩

/-- The token, or the fault, that a lexeme at the given place stands for. -/
def reading (place : Place) (l : Lexeme) : Except LexError Token :=
  match l.found with
  | .ok (s, value) => .ok ⟨.known s, String.ofList value, place.line, place.column⟩
  | .error fault => .error ⟨fault, place⟩

/-- The next token, and the reader behind its lexeme. -/
def next (r : Reader) : Except LexError Token × Reader :=
  let r := r.skipBlanks
  match r.rest with
  | [] => (.ok (.atEnd r.place.line r.place.column), r)
  | c :: cs =>
    let l := Lexeme.scan c cs
    (reading r.place l, ⟨l.rest, r.place.advance l.raw⟩)

/-! ### Progress -/

theorem length_rest_skipBlanks (r : Reader) : r.skipBlanks.rest.length ≤ r.rest.length := by
  have h := congrArg List.length
    (List.takeWhile_append_dropWhile (p := Lexeme.isBlank) (l := r.rest))
  simp only [List.length_append] at h
  simp only [skipBlanks]
  omega

theorem length_rest_next_le (r : Reader) : r.next.2.rest.length ≤ r.rest.length := by
  have hs := length_rest_skipBlanks r
  unfold next
  dsimp only
  split
  · exact hs
  · next c cs h =>
    have := Lexeme.length_rest_scan c cs
    simp only [h, List.length_cons] at hs
    simp only
    omega

/-- Only the end of the text leaves the text as long as it was. -/
theorem length_rest_next {r : Reader} (h : ∀ t, r.next.1 = .ok t → ¬ t.IsEnd) :
    r.next.2.rest.length < r.rest.length := by
  have hs := length_rest_skipBlanks r
  unfold next at h ⊢
  dsimp only at h ⊢
  split at h
  · exact absurd rfl (h _ rfl)
  · next c cs hc =>
    have := Lexeme.length_rest_scan c cs
    simp only [hc, List.length_cons] at hs ⊢
    omega

/-! ### All tokens -/

/-- The tokens up to the end of the text or the first fault, and that fault. -/
def readAll (r : Reader) : List Token × Option LexError :=
  match h : r.next with
  | (.error e, _) => ([], some e)
  | (.ok t, r') =>
    if ht : t.IsEnd then ([t], none)
    else
      have : r'.rest.length < r.rest.length := by
        simpa [h] using length_rest_next (r := r) (by simp [h, ht])
      let (ts, fault) := readAll r'
      (t :: ts, fault)
termination_by r.rest.length

end Reader

/-- The tokens of a text, the last of which stands for its end; or the first fault. -/
def tokenize (text : String) : Except LexError (List Token) :=
  match (Reader.ofText text).readAll with
  | (ts, none) => .ok ts
  | (_, some e) => .error e

end StatementLang
