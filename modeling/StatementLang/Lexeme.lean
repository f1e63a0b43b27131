import StatementLang.Symbol
import StatementLang.Text.Numeral

/-!
Lexemes: the shortest pieces of a text that mean something by themselves.

`scan` takes the lexeme off the front of a text that starts with no blank. It tells the characters
taken, those left, and what was found: a symbol and its value, or why the lexeme is not complete.
Nothing is lost (`raw_append_rest_scan`) and at least one character is taken (`raw_scan_ne_nil`),
also when the lexeme is faulty.
-/

namespace StatementLang

open Text

/-- Why a lexeme is not complete. -/
inductive Fault where
  | malformedNumber
  | openString
  deriving DecidableEq

structure Lexeme where
  /-- The characters taken. -/
  raw : List Char
  /-- The characters left. -/
  rest : List Char
  found : Except Fault (Symbol × List Char)

namespace Lexeme

def isBlank (c : Char) : Bool := c = ' ' || c = '\t' || c = '\r' || c = '\n' || c = '\x0c'

def isWordChar (c : Char) : Bool := isAlphanumeric c || c = '_'

/-! ### Words and numbers -/

/-- A keyword or an identifier: the longest run of word characters. -/
def word (c : Char) (cs : List Char) : Lexeme :=
  let raw := c :: cs.takeWhile isWordChar
  ⟨raw, cs.dropWhile isWordChar,
    .ok ((Symbol.ofLexeme? (String.ofList raw)).getD .identifier, raw)⟩

/-- Digits, and perhaps a point and more digits. A point that is not followed by a digit, or that
follows the second run of digits, makes the number malformed; such a point is not taken. -/
def number (c : Char) (cs : List Char) : Lexeme :=
  let whole := c :: cs.takeWhile isDigit
  match cs.dropWhile isDigit with
  | '.' :: d :: ds =>
    if isDigit d then
      let raw := whole ++ '.' :: d :: ds.takeWhile isDigit
      match ds.dropWhile isDigit with
      | '.' :: es => ⟨raw, '.' :: es, .error .malformedNumber⟩
      | rest => ⟨raw, rest, .ok (.number, raw)⟩
    else ⟨whole, '.' :: d :: ds, .error .malformedNumber⟩
  | ['.'] => ⟨whole, ['.'], .error .malformedNumber⟩
  | rest => ⟨whole, rest, .ok (.number, whole)⟩

/-! ### Strings -/

/-- The characters up to the closing quote, the end of the line or the end of the text, and what
follows them. A backslash and the character after it always belong to the former. -/
def stringBody (quote : Char) : List Char → List Char × List Char
  | [] => ([], [])
  | '\\' :: c :: cs =>
    let (body, rest) := stringBody quote cs
    ('\\' :: c :: body, rest)
  | c :: cs =>
    if c = quote ∨ c = '\n' then ([], c :: cs)
    else
      let (body, rest) := stringBody quote cs
      (c :: body, rest)

/-- A text between quotes, on one line unless a backslash stands before the line feed. Its value is
what stands between the quotes, backslashes included. -/
def string (quote : Char) (cs : List Char) : Lexeme :=
  match stringBody quote cs with
  | (body, c :: rest) =>
    if c = quote then ⟨quote :: (body ++ [quote]), rest, .ok (.string, body)⟩
    else ⟨quote :: body, c :: rest, .error .openString⟩
  | (body, []) => ⟨quote :: body, [], .error .openString⟩

/-! ### Operators -/

/-- The lexeme made of `raw`, if some symbol is spelled so. -/
def spelled? (raw rest : List Char) : Option Lexeme :=
  (Symbol.ofLexeme? (String.ofList raw)).map fun s => ⟨raw, rest, .ok (s, raw)⟩

/-- The symbol spelled by the first two characters, or else by the first one. -/
def operator? : List Char → Option Lexeme
  | [] => none
  | [c] => spelled? [c] []
  | c :: d :: cs => (spelled? [c, d] cs).or (spelled? [c] (d :: cs))

/-! ### Any lexeme -/

/-- The lexeme at the front of a text. A character that starts none is one by itself. -/
def scan (c : Char) (cs : List Char) : Lexeme :=
  if isLetter c then word c cs
  else if isDigit c then number c cs
  else if c = '"' ∨ c = '\'' then string c cs
  else (operator? (c :: cs)).getD ⟨[c], cs, .ok (.unknown, [c])⟩

/-! ### Nothing is lost -/

theorem raw_append_rest_word (c : Char) (cs : List Char) :
    (word c cs).raw ++ (word c cs).rest = c :: cs := by
  simp [word]

theorem raw_append_rest_number (c : Char) (cs : List Char) :
    (number c cs).raw ++ (number c cs).rest = c :: cs := by
  have hw := List.takeWhile_append_dropWhile (p := isDigit) (l := cs)
  unfold number
  split
  · next d ds h =>
    have hf := List.takeWhile_append_dropWhile (p := isDigit) (l := ds)
    rw [h] at hw
    split
    · split <;> simp_all
    · simpa using hw
  · next h => simpa [h] using hw
  · simp

theorem append_stringBody (quote : Char) (cs : List Char) :
    (stringBody quote cs).1 ++ (stringBody quote cs).2 = cs := by
  fun_induction stringBody quote cs with
  | case1 => rfl
  | case2 c cs body rest h ih => simpa [h] using ih
  | case3 => rfl
  | case4 c cs _ _ body rest h ih => simpa [h] using ih

theorem raw_append_rest_string (quote : Char) (cs : List Char) :
    (string quote cs).raw ++ (string quote cs).rest = quote :: cs := by
  have hb := append_stringBody quote cs
  unfold string
  split
  · next body c rest h =>
    rw [h] at hb
    split
    · next hc => simpa [hc] using hb
    · simpa using hb
  · next body h => simpa [h] using hb

theorem of_spelled? {raw rest : List Char} {l : Lexeme} (h : spelled? raw rest = some l) :
    l.raw = raw ∧ l.rest = rest := by
  obtain ⟨s, -, rfl⟩ := Option.map_eq_some_iff.1 h
  exact ⟨rfl, rfl⟩

theorem raw_append_rest_operator? {cs : List Char} {l : Lexeme} (h : operator? cs = some l) :
    l.raw ++ l.rest = cs ∧ l.raw ≠ [] := by
  match cs with
  | [c] =>
    obtain ⟨h₁, h₂⟩ := of_spelled? h
    simp [h₁, h₂]
  | c :: d :: cs =>
    rcases Option.or_eq_some_iff.1 h with h | ⟨-, h⟩ <;>
    · obtain ⟨h₁, h₂⟩ := of_spelled? h
      simp [h₁, h₂]

theorem raw_append_rest_scan (c : Char) (cs : List Char) :
    (scan c cs).raw ++ (scan c cs).rest = c :: cs := by
  unfold scan
  split
  · exact raw_append_rest_word c cs
  split
  · exact raw_append_rest_number c cs
  split
  · exact raw_append_rest_string c cs
  cases h : operator? (c :: cs) with
  | none => rfl
  | some l => exact (raw_append_rest_operator? h).1

theorem raw_scan_ne_nil (c : Char) (cs : List Char) : (scan c cs).raw ≠ [] := by
  unfold scan
  split
  · simp [word]
  split
  · unfold number
    split
    · split
      · split <;> simp
      · simp
    all_goals simp
  split
  · unfold string
    split
    · split <;> simp
    · simp
  cases h : operator? (c :: cs) with
  | none => simp
  | some l => exact (raw_append_rest_operator? h).2

theorem length_rest_scan (c : Char) (cs : List Char) :
    (scan c cs).rest.length ≤ cs.length := by
  have h₁ := congrArg List.length (raw_append_rest_scan c cs)
  have h₂ := List.length_pos_iff.2 (raw_scan_ne_nil c cs)
  simp only [List.length_append, List.length_cons] at h₁
  omega

end Lexeme

end StatementLang
