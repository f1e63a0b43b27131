import Mathlib.Algebra.Group.Nat.Defs
import StatementLang.Proofs.Spelling
import StatementLang.Text.Quoted

/-!
What is quoted can be read back.

Every character that stands between quotes can be read from the front (`unescape_escape`), and none
of them is written with the quote first. So a quoted text shows where it ends, and it can be told
from every other one (`quotedChars_append_injective`). All that is written in it is printable, so it
stands on one line.
-/

namespace StatementLang.Text

open Lexeme (IsQuote)

def hexValue (c : Char) : Nat := if c.toNat < 58 then c.toNat - 48 else c.toNat - 87

/-- The number that hexadecimal digits stand for, the most significant first. -/
def ofHexDigits (cs : List Char) : Nat := cs.foldl (fun n c => 16 * n + hexValue c) 0

lemma hexValue_hexDigit {n : Nat} (h : n < 16) : hexValue (hexDigit n) = n := by
  have hall : ∀ n < 16, hexValue (hexDigit n) = n := by decide
  exact hall n h

lemma ofHexDigits_hexDigits {width n : Nat} (h : n < 16 ^ width) :
    ofHexDigits (hexDigits width n) = n := by
  induction width generalizing n with
  | zero =>
    obtain rfl : n = 0 := Nat.lt_one_iff.1 h
    rfl
  | succ width ih =>
    have hdiv : n / 16 < 16 ^ width := Nat.div_lt_of_lt_mul (by rwa [← Nat.pow_succ'])
    have hlast : hexValue (hexDigit (n % 16)) = n % 16 :=
      hexValue_hexDigit (Nat.mod_lt n (by decide))
    have hsnoc : ofHexDigits (hexDigits width (n / 16) ++ [hexDigit (n % 16)]) =
        16 * ofHexDigits (hexDigits width (n / 16)) + hexValue (hexDigit (n % 16)) := by
      simp [ofHexDigits]
    rw [hexDigits, hsnoc, ih hdiv, hlast, Nat.div_add_mod]

/-- The characters that have letters of their own behind a backslash. -/
def letters : List (Char × Char) := [('\n', 'n'), ('\r', 'r'), ('\t', 't')]

/-- The letters that tell how many digits of a code point follow. -/
def codeLetters : List (Char × Nat) := [('x', 2), ('u', 4), ('U', 8)]

/-- How a character can be written between quotes. -/
inductive Escaped (quote c : Char) : List Char → Prop
  | plain (hquote : c ≠ quote) (hslash : c ≠ '\\') (hc : isPrintable c) : Escaped quote c [c]
  | itself (h : c = quote ∨ c = '\\') : Escaped quote c ['\\', c]
  | letter {x : Char} (h : (c, x) ∈ letters) : Escaped quote c ['\\', x]
  | code {x : Char} {width : Nat} (h : (x, width) ∈ codeLetters) (hc : c.toNat < 16 ^ width) :
    Escaped quote c ('\\' :: x :: hexDigits width c.toNat)

lemma codePoint_lt (c : Char) : c.toNat < 0x110000 := by
  rcases c.valid with hlow | ⟨-, hhigh⟩
  · exact Nat.lt_trans hlow (by decide)
  · exact hhigh

lemma escaped_codePointEscape (quote c : Char) : Escaped quote c (codePointEscape c) := by
  unfold codePointEscape
  dsimp only
  split
  · next h => exact .code (show ('x', 2) ∈ codeLetters by decide) h
  · split
    · next h => exact .code (show ('u', 4) ∈ codeLetters by decide) h
    · have h : c.toNat < 16 ^ 8 := Nat.lt_trans (codePoint_lt c) (by decide)
      exact .code (show ('U', 8) ∈ codeLetters by decide) h

lemma escaped_escape (quote c : Char) : Escaped quote c (escape quote c) := by
  unfold escape
  split
  · next h => exact .itself h
  next h =>
  obtain ⟨hquote, hslash⟩ := not_or.1 h
  split
  · next h => exact .letter (h ▸ by decide)
  split
  · next h => exact .letter (h ▸ by decide)
  split
  · next h => exact .letter (h ▸ by decide)
  split
  · next h => exact .plain hquote hslash h
  · exact escaped_codePointEscape quote c

/-! ### Reading a character -/

/-- Reads a character that is given by so many digits of its code point. -/
def readCodePoint (width : Nat) (cs : List Char) : Char × List Char :=
  (.ofNat (ofHexDigits (cs.take width)), cs.drop width)

/-- Reads the first of the characters that stand between quotes. -/
def unescape : List Char → Option (Char × List Char)
  | '\\' :: x :: cs =>
    match codeLetters.lookup x, letters.find? (·.2 = x) with
    | some width, _ => some (readCodePoint width cs)
    | none, some (c, _) => some (c, cs)
    | none, none => some (x, cs)
  | c :: cs => some (c, cs)
  | [] => none

lemma isQuote_quoteFor (cs : List Char) : IsQuote (quoteFor cs) := by
  unfold quoteFor
  split
  · exact .inl rfl
  · exact .inr rfl

variable {q c : Char} {cs ds rest rest' : List Char}

lemma unescape_cons (h : c ≠ '\\') (cs : List Char) : unescape (c :: cs) = some (c, cs) := by
  unfold unescape
  split <;> simp_all

lemma readCodePoint_hexDigits {width : Nat} (h : c.toNat < 16 ^ width) (rest : List Char) :
    readCodePoint width (hexDigits width c.toNat ++ rest) = (c, rest) := by
  rw [readCodePoint, List.take_left' (length_hexDigits width _),
    List.drop_left' (length_hexDigits width _), ofHexDigits_hexDigits h, Char.ofNat_toNat]

theorem unescape_escape (hq : IsQuote q) (c : Char) (rest : List Char) :
    unescape (escape q c ++ rest) = some (c, rest) := by
  have hescaped := escaped_escape q c
  generalize escape q c = cs at hescaped ⊢
  cases hescaped with
  | plain _ hslash => exact unescape_cons hslash rest
  | itself h =>
    rcases h with rfl | rfl
    · rcases hq with rfl | rfl <;> rfl
    · rfl
  | @letter x h =>
    simp only [letters, List.mem_cons, Prod.mk.injEq, List.not_mem_nil, or_false] at h
    rcases h with ⟨rfl, rfl⟩ | ⟨rfl, rfl⟩ | ⟨rfl, rfl⟩ <;> rfl
  | @code x width h hc =>
    have hread : unescape ('\\' :: x :: (hexDigits width c.toNat ++ rest)) =
        some (readCodePoint width (hexDigits width c.toNat ++ rest)) := by
      simp only [codeLetters, List.mem_cons, Prod.mk.injEq, List.not_mem_nil, or_false] at h
      rcases h with ⟨rfl, rfl⟩ | ⟨rfl, rfl⟩ | ⟨rfl, rfl⟩ <;> rfl
    exact hread.trans (congrArg some (readCodePoint_hexDigits hc rest))

lemma escape_append_ne (hq : IsQuote q) (c : Char) (rest rest' : List Char) :
    escape q c ++ rest ≠ q :: rest' := by
  have hslash : '\\' ≠ q := by rcases hq with rfl | rfl <;> decide
  have hescaped := escaped_escape q c
  generalize escape q c = cs at hescaped ⊢
  intro h
  cases hescaped with
  | plain hquote => exact hquote (List.cons.inj h).1
  | itself | letter | code => exact hslash (List.cons.inj h).1

lemma exists_quoted_cons (text : String) : ∃ q cs, (quoted text).toList = q :: cs ∧ IsQuote q :=
  ⟨_, _, by rw [quoted, String.toList_ofList, quotedChars, List.cons_append], isQuote_quoteFor _⟩

lemma flatMap_escape_injective (hq : IsQuote q)
    (h : cs.flatMap (escape q) ++ q :: rest = ds.flatMap (escape q) ++ q :: rest') :
    cs = ds ∧ rest = rest' := by
  induction cs generalizing ds with
  | nil =>
    cases ds with
    | nil => exact ⟨rfl, (List.cons.inj h).2⟩
    | cons d ds =>
      rw [List.flatMap_cons, List.append_assoc] at h
      exact absurd h.symm (escape_append_ne hq d _ _)
  | cons c cs ih =>
    cases ds with
    | nil =>
      rw [List.flatMap_cons, List.append_assoc] at h
      exact absurd h (escape_append_ne hq c _ _)
    | cons d ds =>
      rw [List.flatMap_cons, List.flatMap_cons, List.append_assoc, List.append_assoc] at h
      have hread := congrArg unescape h
      rw [unescape_escape hq, unescape_escape hq, Option.some.injEq, Prod.mk.injEq] at hread
      obtain ⟨rfl, hrest⟩ := hread
      obtain ⟨rfl, rfl⟩ := ih hrest
      exact ⟨rfl, rfl⟩

/-- **A quoted text can be read off**, and so can what stands behind it. -/
theorem quotedChars_append_injective (h : quotedChars cs ++ rest = quotedChars ds ++ rest') :
    cs = ds ∧ rest = rest' := by
  simp only [quotedChars, List.cons_append, List.append_assoc, List.nil_append] at h
  obtain ⟨hquote, h⟩ := List.cons.inj h
  rw [← hquote] at h
  exact flatMap_escape_injective (isQuote_quoteFor cs) h

lemma quoted_append_injective {s t : String}
    (h : (quoted s).toList ++ rest = (quoted t).toList ++ rest') : s = t ∧ rest = rest' := by
  rw [quoted, quoted, String.toList_ofList, String.toList_ofList] at h
  obtain ⟨hchars, hrest⟩ := quotedChars_append_injective h
  exact ⟨String.toList_inj.1 hchars, hrest⟩

/-! ### Nothing but printable characters -/

lemma isPrintable_hexDigits (width n : Nat) : ∀ c ∈ hexDigits width n, isPrintable c := by
  have hdigit : ∀ n < 16, isPrintable (hexDigit n) := by decide
  induction width generalizing n with
  | zero => exact List.forall_mem_nil _
  | succ width ih =>
    rw [hexDigits]
    intro c hc
    rcases List.mem_append.1 hc with hc | hc
    · exact ih _ c hc
    · rw [List.mem_singleton.1 hc]
      exact hdigit _ (Nat.mod_lt n (by decide))

lemma isPrintable_escape (hq : IsQuote q) (c : Char) : ∀ d ∈ escape q c, isPrintable d := by
  have hslash {x : Char} {ds : List Char} (hx : isPrintable x) (hds : ∀ d ∈ ds, isPrintable d) :
      ∀ d ∈ '\\' :: x :: ds, isPrintable d :=
    List.forall_mem_cons.2 ⟨by decide, List.forall_mem_cons.2 ⟨hx, hds⟩⟩
  have hletters : ∀ p ∈ letters, isPrintable p.2 := by decide
  have hcodes : ∀ p ∈ codeLetters, isPrintable p.1 := by decide
  have hescaped := escaped_escape q c
  generalize escape q c = cs at hescaped ⊢
  cases hescaped with
  | plain _ _ hc => exact List.forall_mem_singleton.2 hc
  | itself h =>
    refine hslash ?_ (List.forall_mem_nil _)
    rcases h with rfl | rfl
    · rcases hq with rfl | rfl <;> decide
    · decide
  | letter h => exact hslash (hletters _ h) (List.forall_mem_nil _)
  | code h => exact hslash (hcodes _ h) (isPrintable_hexDigits _ _)

theorem isPrintable_quoted (text : String) : ∀ c ∈ (quoted text).toList, isPrintable c := by
  have hq := isQuote_quoteFor text.toList
  have hquote : isPrintable (quoteFor text.toList) := by
    rcases hq with h | h <;> rw [h] <;> decide
  intro c hc
  rw [quoted, String.toList_ofList, quotedChars, List.mem_append, List.mem_cons,
    List.mem_flatMap, List.mem_singleton] at hc
  rcases hc with (rfl | ⟨d, -, hc⟩) | rfl
  · exact hquote
  · exact isPrintable_escape hq d c hc
  · exact hquote

end StatementLang.Text
