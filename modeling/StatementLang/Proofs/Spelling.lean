import Mathlib.Tactic.Lemma
import StatementLang.Lexeme

/-!
How lexemes are spelled.

`IsSpelling s value raw` says which characters may stand for a symbol with a value, one constructor
for each class of lexemes and without any scanning. `GoesOn s raw c` says that a lexeme could take
one more character, so that a scan must not stop before it.
-/

namespace StatementLang

open Text

namespace Lexeme

/-- What may stand between two quotes. A backslash makes a pair with the character after it, which
may then be a quote or a line feed. -/
inductive IsBody (quote : Char) : List Char → Prop
  | nil : IsBody quote []
  | pair {cs : List Char} (c : Char) (h : IsBody quote cs) : IsBody quote ('\\' :: c :: cs)
  | plain {c : Char} {cs : List Char} (hb : c ≠ '\\') (hq : c ≠ quote) (hn : c ≠ '\n')
    (h : IsBody quote cs) : IsBody quote (c :: cs)

/-- The character opens a string, and closes it. -/
abbrev IsQuote (c : Char) : Prop := c = '"' ∨ c = '\''

/-- The character begins no lexeme but itself. -/
structure IsStray (c : Char) : Prop where
  not_blank : isBlank c = false
  not_letter : isLetter c = false
  not_digit : isDigit c = false
  not_quote : ¬ IsQuote c
  not_operator : ∀ s : Symbol, s.operator? ≠ some (String.ofList [c])

/-- The characters that stand for a symbol with a value. -/
inductive IsSpelling : Symbol → List Char → List Char → Prop
  | keyword {s : Symbol} {raw : List Char} (h : s.keyword? = some (String.ofList raw)) :
    IsSpelling s raw raw
  | identifier {c : Char} {cs : List Char} (hc : isLetter c = true)
    (hcs : ∀ d ∈ cs, isWordChar d = true)
    (hk : ∀ s : Symbol, s.keyword? ≠ some (String.ofList (c :: cs))) :
    IsSpelling .identifier (c :: cs) (c :: cs)
  | whole {d : Char} {ds : List Char} (h : ∀ c ∈ d :: ds, isDigit c = true) :
    IsSpelling .number (d :: ds) (d :: ds)
  | decimal {d e : Char} {ds es : List Char} (hd : ∀ c ∈ d :: ds, isDigit c = true)
    (he : ∀ c ∈ e :: es, isDigit c = true) :
    IsSpelling .number (d :: ds ++ '.' :: e :: es) (d :: ds ++ '.' :: e :: es)
  | string {quote : Char} {body : List Char} (hq : IsQuote quote) (hb : IsBody quote body) :
    IsSpelling .string body (quote :: (body ++ [quote]))
  | operator {s : Symbol} {raw : List Char} (h : s.operator? = some (String.ofList raw)) :
    IsSpelling s raw raw
  | unknown {c : Char} (h : IsStray c) : IsSpelling .unknown [c] [c]

/-- A lexeme could take one more character. -/
inductive GoesOn : Symbol → List Char → Char → Prop
  | word {s : Symbol} {raw : List Char} {c : Char} (hs : s = .identifier ∨ s.keyword?.isSome)
    (hc : isWordChar c = true) : GoesOn s raw c
  | number {raw : List Char} {c : Char} (hc : isDigit c = true ∨ c = '.') : GoesOn .number raw c
  | operator {s t : Symbol} {raw : List Char} {c : Char}
    (h : t.operator? = some (String.ofList (raw ++ [c]))) : GoesOn s raw c

/-- A lexeme ends where the rest of the text begins. -/
def Stops (s : Symbol) (raw rest : List Char) : Prop := ∀ c ∈ rest.head?, ¬ GoesOn s raw c

lemma stops_nil (s : Symbol) (raw : List Char) : Stops s raw [] := nofun

/-! ### The tables of spellings -/

def spellings (table : Symbol → Option String) : List (List Char) :=
  (Symbol.all.filterMap table).map String.toList

lemma mem_spellings {table : Symbol → Option String} {s : Symbol} {raw : List Char}
    (h : table s = some (String.ofList raw)) : raw ∈ spellings table :=
  List.mem_map.2 ⟨_, List.mem_filterMap.2 ⟨s, s.mem_all, h⟩, String.toList_ofList⟩

lemma keyword_spellings : ∀ raw ∈ spellings Symbol.keyword?, ∃ c cs, raw = c :: cs ∧
    isLetter c = true ∧ ∀ d ∈ cs, isWordChar d = true := by
  have h : ∀ raw ∈ spellings Symbol.keyword?, raw ≠ [] ∧ raw.head?.all isLetter = true ∧
      raw.tail.all isWordChar = true := by decide
  intro raw hraw
  obtain ⟨hne, hc, hcs⟩ := h raw hraw
  obtain ⟨c, cs, rfl⟩ := List.exists_cons_of_ne_nil hne
  exact ⟨c, cs, rfl, hc, List.all_eq_true.1 hcs⟩

lemma operator_spellings : ∀ raw ∈ spellings Symbol.operator?,
    (raw.length = 1 ∨ raw.length = 2) ∧ ∀ c ∈ raw, isBlank c = false ∧ isLetter c = false ∧
      isDigit c = false ∧ c ≠ '"' ∧ c ≠ '\'' := by
  have h : ∀ raw ∈ spellings Symbol.operator?, (raw.length = 1 ∨ raw.length = 2) ∧
      raw.all (fun c => decide (isBlank c = false ∧ isLetter c = false ∧ isDigit c = false ∧
        c ≠ '"' ∧ c ≠ '\'')) = true := by decide
  intro raw hraw
  obtain ⟨hlen, hall⟩ := h raw hraw
  exact ⟨hlen, fun c hc => of_decide_eq_true (List.all_eq_true.1 hall c hc)⟩

lemma not_operator_of_head {c : Char} {cs : List Char}
    (hc : isLetter c = true ∨ isDigit c = true ∨ IsQuote c) (t : Symbol) :
    t.operator? ≠ some (String.ofList (c :: cs)) := by
  intro h
  obtain ⟨-, hl, hd, hq, hq'⟩ := (operator_spellings _ (mem_spellings h)).2 c List.mem_cons_self
  rcases hc with hc | hc | hc | hc
  · rw [hl] at hc; cases hc
  · rw [hd] at hc; cases hc
  · exact hq hc
  · exact hq' hc

lemma lexeme?_eq_some_iff {s : Symbol} {text : String} :
    s.lexeme? = some text ↔ s.keyword? = some text ∨ s.operator? = some text := by
  cases s <;> simp [Symbol.lexeme?, Symbol.keyword?, Symbol.operator?]

lemma ofLexeme?_eq_some_iff {s : Symbol} {text : String} :
    Symbol.ofLexeme? text = some s ↔ s.keyword? = some text ∨ s.operator? = some text := by
  rw [← lexeme?_eq_some_iff]
  exact ⟨Symbol.lexeme?_of_ofLexeme?, Symbol.ofLexeme?_of_lexeme?⟩

lemma ofLexeme?_of_letter {c : Char} {cs : List Char} (hc : isLetter c = true) (s : Symbol) :
    Symbol.ofLexeme? (String.ofList (c :: cs)) = some s ↔
      s.keyword? = some (String.ofList (c :: cs)) := by
  rw [ofLexeme?_eq_some_iff]
  exact or_iff_left (not_operator_of_head (.inl hc) s)

lemma ofLexeme?_of_not_letter {c : Char} {cs : List Char} (hc : isLetter c = false) (s : Symbol) :
    Symbol.ofLexeme? (String.ofList (c :: cs)) = some s ↔
      s.operator? = some (String.ofList (c :: cs)) := by
  rw [ofLexeme?_eq_some_iff]
  refine or_iff_right fun h => ?_
  obtain ⟨d, ds, hd, hl, -⟩ := keyword_spellings _ (mem_spellings h)
  cases hd
  rw [hc] at hl
  cases hl

/-! ### What goes on -/

lemma goesOn_word_iff {s : Symbol} {c d : Char} {cs : List Char} (hc : isLetter c = true)
    (hs : s = .identifier ∨ s.keyword?.isSome) : GoesOn s (c :: cs) d ↔ isWordChar d = true := by
  refine ⟨fun h => ?_, .word hs⟩
  cases h with
  | word _ hd => exact hd
  | number => simp [Symbol.keyword?] at hs
  | operator h => exact absurd h (not_operator_of_head (.inl hc) _)

lemma goesOn_number_iff {c d : Char} {ds : List Char} (hd : isDigit d = true) :
    GoesOn .number (d :: ds) c ↔ isDigit c = true ∨ c = '.' := by
  refine ⟨fun h => ?_, .number⟩
  cases h with
  | word hs => simp [Symbol.keyword?] at hs
  | number hc => exact hc
  | operator h => exact absurd h (not_operator_of_head (.inr (.inl hd)) _)

lemma not_goesOn_string {quote c : Char} {cs : List Char} (hq : IsQuote quote) :
    ¬ GoesOn .string (quote :: cs) c := by
  intro h
  cases h with
  | word hs => simp [Symbol.keyword?] at hs
  | operator h => exact not_operator_of_head (.inr (.inr hq)) _ h

lemma goesOn_mark_iff {s : Symbol} {raw : List Char} {c : Char}
    (hs : s.operator?.isSome ∨ s = .unknown) :
    GoesOn s raw c ↔ ∃ t : Symbol, t.operator? = some (String.ofList (raw ++ [c])) := by
  refine ⟨fun h => ?_, fun ⟨t, ht⟩ => .operator ht⟩
  cases h with
  | word hw =>
    cases s <;> simp [Symbol.operator?, Symbol.keyword?] at hs hw
  | number => simp [Symbol.operator?] at hs
  | operator h => exact ⟨_, h⟩

lemma not_goesOn_of_blank {s : Symbol} {raw : List Char} {c : Char} (hc : isBlank c = true) :
    ¬ GoesOn s raw c := by
  have hother : isWordChar c = false ∧ isDigit c = false ∧ c ≠ '.' := by
    simp only [isBlank, Bool.or_eq_true, decide_eq_true_eq] at hc
    rcases hc with (((rfl | rfl) | rfl) | rfl) | rfl <;> decide
  intro h
  cases h with
  | word _ hw => simp [hother.1] at hw
  | number hd => simp [hother.2] at hd
  | operator h =>
    have := (operator_spellings _ (mem_spellings h)).2 c (by simp)
    simp [this.1] at hc

lemma IsSpelling.ne_endOfFile {s : Symbol} {value raw : List Char} (h : IsSpelling s value raw) :
    s ≠ .endOfFile := by
  rintro rfl
  cases h with
  | keyword h => cases h
  | operator h => cases h

end Lexeme

end StatementLang
