import StatementLang.Proofs.Faults
import StatementLang.Text.Newline

/-!
Texts whose line ends are unified.

A carriage return is a blank between lexemes, and so is the line feed that it becomes. Inside a
string a line feed ends the line and a carriage return does not. So every lexeme of a text stays
what it is, and every faulty one stays faulty, as long as no string comes to be closed or open
(`StringsKept`). None does if every carriage return stands before a line feed and none behind a
backslash (`stringsKept_of_paired`).
-/

namespace StatementLang

open Lexeme Text

namespace Text

/-- No carriage return is cut off from the line feed behind it. -/
def Cut (as bs : List Char) : Prop := as.getLast? = some '\r' → bs.head? ≠ some '\n'

variable {c : Char} {cs as bs : List Char}

lemma cut_of_not_mem (h : '\r' ∉ as) (bs : List Char) : Cut as bs := fun hlast =>
  absurd (List.mem_of_getLast? hlast) h

lemma cut_of_head (h : ∀ c ∈ bs.head?, c ≠ '\n') (as : List Char) : Cut as bs := fun _ hhead =>
  h '\n' hhead rfl

lemma cut_nil (as : List Char) : Cut as [] := fun _ => nofun

lemma Cut.left (h : Cut as (bs ++ cs)) : Cut as bs := by
  rcases bs with _ | ⟨b, bs⟩
  · exact cut_nil as
  · exact h

lemma Cut.tail (h : Cut (c :: as) bs) : Cut as bs := fun hlast =>
  h (by rw [List.getLast?_cons, hlast, Option.getD_some])

lemma unifyNewlines_return (h : cs.head? ≠ some '\n') :
    unifyNewlines ('\r' :: cs) = '\n' :: unifyNewlines cs := by
  rw [unifyNewlines]
  rintro ds rfl
  exact h rfl

lemma exists_unifyNewlines_return (cs : List Char) :
    ∃ ds, unifyNewlines ('\r' :: cs) = '\n' :: ds := by
  by_cases h : cs.head? = some '\n'
  · obtain ⟨ds, rfl⟩ := List.head?_eq_some_iff.1 h
    exact ⟨_, by rw [unifyNewlines]⟩
  · exact ⟨_, unifyNewlines_return h⟩

lemma unifyNewlines_cons (h : c ≠ '\r') : unifyNewlines (c :: cs) = c :: unifyNewlines cs := by
  rw [unifyNewlines]
  · rintro ds rfl
    exact absurd rfl h
  · rintro rfl
    exact absurd rfl h

lemma unifyNewlines_append (h : Cut as bs) :
    unifyNewlines (as ++ bs) = unifyNewlines as ++ unifyNewlines bs := by
  fun_induction unifyNewlines as with
  | case1 cs ih =>
    rw [List.cons_append, List.cons_append, unifyNewlines, ih h.tail.tail]
    rfl
  | case2 cs hline ih =>
    have hhead : (cs ++ bs).head? ≠ some '\n' := by
      rcases cs with _ | ⟨c, cs⟩
      · exact h rfl
      · rintro ⟨⟩
        exact hline cs rfl
    rw [List.cons_append, unifyNewlines_return hhead, ih h.tail]
    rfl
  | case3 c cs _ hc ih =>
    rw [List.cons_append, unifyNewlines_cons fun h => hc h, ih h.tail]
    rfl
  | case4 => rfl

lemma unifyNewlines_append_of_not_mem (h : '\r' ∉ as) (bs : List Char) :
    unifyNewlines (as ++ bs) = as ++ unifyNewlines bs := by
  rw [unifyNewlines_append (cut_of_not_mem h bs), unifyNewlines_of_not_mem h]

lemma mem_unifyNewlines : c ∈ unifyNewlines cs → c ∈ cs ∨ c = '\n' := by
  fun_induction unifyNewlines cs with
  | case1 cs ih =>
    rintro (_ | ⟨_, h⟩)
    · exact .inr rfl
    · exact (ih h).imp_left fun h => by simp [h]
  | case2 cs _ ih =>
    rintro (_ | ⟨_, h⟩)
    · exact .inr rfl
    · exact (ih h).imp_left fun h => by simp [h]
  | case3 d cs _ _ ih =>
    rintro (_ | ⟨_, h⟩)
    · exact .inl List.mem_cons_self
    · exact (ih h).imp_left (List.mem_cons_of_mem _)
  | case4 => exact fun h => absurd h List.not_mem_nil

lemma head?_unifyNewlines : ∀ c ∈ (unifyNewlines cs).head?, c ∈ cs.head? ∨ c = '\n' := by
  unfold unifyNewlines
  split
  · rintro c ⟨⟩
    exact .inr rfl
  · rintro c ⟨⟩
    exact .inr rfl
  · rintro c ⟨⟩
    exact .inl rfl
  · nofun

/-- Every character and what stands directly behind it are in a relation. -/
def Followed (P : Char → Option Char → Prop) : List Char → Prop
  | [] => True
  | c :: cs => P c cs.head? ∧ Followed P cs

instance decidableFollowed (P : Char → Option Char → Prop) [∀ c d, Decidable (P c d)] :
    ∀ cs, Decidable (Followed P cs)
  | [] => .isTrue trivial
  | c :: cs =>
    have := decidableFollowed P cs
    inferInstanceAs (Decidable (P c cs.head? ∧ Followed P cs))

/-- Every carriage return stands directly before a line feed. -/
abbrev ReturnsPaired : List Char → Prop := Followed fun c d => c = '\r' → d = some '\n'

/-- No carriage return stands directly behind a backslash. -/
abbrev ReturnsUnescaped : List Char → Prop := Followed fun c d => c = '\\' → d ≠ some '\r'

lemma Followed.right {P : Char → Option Char → Prop} (h : Followed P (as ++ bs)) :
    Followed P bs := by
  induction as with
  | nil => exact h
  | cons a as ih => exact ih h.2

lemma ReturnsPaired.of_not_mem (h : '\r' ∉ cs) : ReturnsPaired cs := by
  induction cs with
  | nil => trivial
  | cons c cs ih =>
    rw [List.mem_cons, not_or] at h
    exact ⟨fun hc => absurd hc.symm h.1, ih h.2⟩

lemma ReturnsPaired.left (h : ReturnsPaired (as ++ bs)) (hcut : Cut as bs) : ReturnsPaired as := by
  induction as with
  | nil => trivial
  | cons a as ih =>
    refine ⟨fun ha => ?_, ih h.2 hcut.tail⟩
    rcases as with _ | ⟨b, as⟩
    · exact absurd (h.1 ha) (hcut (by rw [ha, List.getLast?_singleton]))
    · exact h.1 ha

end Text

lemma Place.advance_unifyNewlines {cs : List Char} (h : ReturnsPaired cs) (p : Place) :
    p.advance (unifyNewlines cs) = p.advance cs := by
  fun_induction unifyNewlines cs generalizing p with
  | case1 cs ih =>
    have hline : (p.after '\r').after '\n' = p.after '\n' := rfl
    rw [advance_cons, advance_cons, advance_cons, hline, ih h.2.2]
  | case2 cs hline =>
    obtain ⟨ds, rfl⟩ := List.head?_eq_some_iff.1 (h.1 rfl)
    exact absurd rfl (hline ds)
  | case3 c cs _ _ ih => rw [advance_cons, advance_cons, ih h.2]
  | case4 => rfl

/-! ### Lexemes -/

namespace Lexeme

variable {s : Symbol} {f : Fault} {c quote : Char} {value raw body rest : List Char}

lemma not_mem_of {p : Char → Bool} (hp : p c = false) (h : ∀ d ∈ raw, p d = true) : c ∉ raw :=
  fun hc => by
    rw [h _ hc] at hp
    cases hp

lemma not_wordChar_of_blank (h : isBlank c = true) :
    isLetter c = false ∧ isWordChar c = false ∧ isDigit c = false := by
  simp only [isBlank, Bool.or_eq_true, decide_eq_true_eq] at h
  rcases h with (((rfl | rfl) | rfl) | rfl) | rfl <;> decide

lemma IsSpelling.string_or_plain (h : IsSpelling s value raw) :
    (∃ quote, IsQuote quote ∧ IsBody quote value ∧ s = .string ∧
      raw = quote :: (value ++ [quote])) ∨ value = raw ∧ ∀ c, isBlank c = true → c ∉ raw := by
  have hword {d : Char} {ds : List Char} (hd : isLetter d = true)
      (hds : ∀ e ∈ ds, isWordChar e = true) : ∀ c, isBlank c = true → c ∉ d :: ds := by
    rintro c hc hmem
    obtain ⟨hletter, hword, -⟩ := not_wordChar_of_blank hc
    rcases List.mem_cons.1 hmem with rfl | hmem
    · rw [hd] at hletter
      cases hletter
    · exact not_mem_of hword hds hmem
  cases h with
  | keyword h =>
    obtain ⟨d, ds, rfl, hd, hds⟩ := keyword_spellings _ (mem_spellings h)
    exact .inr ⟨rfl, hword hd hds⟩
  | identifier hd hds hk => exact .inr ⟨rfl, hword hd hds⟩
  | whole h => exact .inr ⟨rfl, fun c hc => not_mem_of (not_wordChar_of_blank hc).2.2 h⟩
  | decimal hd he =>
    refine .inr ⟨rfl, fun c hc hmem => ?_⟩
    have hdigit := (not_wordChar_of_blank hc).2.2
    rcases List.mem_append.1 hmem with hmem | hmem
    · exact not_mem_of hdigit hd hmem
    · rcases List.mem_cons.1 hmem with rfl | hmem
      · exact absurd hc (by decide)
      · exact not_mem_of hdigit he hmem
  | string hq hb => exact .inl ⟨_, hq, hb, rfl, rfl⟩
  | operator h =>
    refine .inr ⟨rfl, fun c hc hmem => ?_⟩
    rw [((operator_spellings _ (mem_spellings h)).2 _ hmem).1] at hc
    cases hc
  | unknown h =>
    refine .inr ⟨rfl, fun c hc hmem => ?_⟩
    rw [List.mem_singleton.1 hmem, h.not_blank] at hc
    cases hc

lemma IsBody.head?_ne_line (hq : IsQuote quote) (h : IsBody quote body) :
    (body ++ quote :: rest).head? ≠ some '\n' := by
  cases h with
  | nil =>
    intro h
    obtain rfl : quote = '\n' := Option.some.inj h
    exact absurd hq (by decide)
  | pair => nofun
  | plain _ _ hn => exact fun h => hn (Option.some.inj h)

lemma IsBody.not_mem_return (hq : IsQuote quote) (h : IsBody quote body)
    (hp : ReturnsPaired (body ++ quote :: rest)) : '\r' ∉ body := by
  induction h with
  | nil => exact List.not_mem_nil
  | pair c h ih =>
    rintro (_ | ⟨_, _ | ⟨_, hr⟩⟩)
    · exact h.head?_ne_line hq (hp.2.1 rfl)
    · exact ih hp.2.2 hr
  | plain _ _ _ h ih =>
    rintro (_ | ⟨_, hr⟩)
    · exact h.head?_ne_line hq (hp.1 rfl)
    · exact ih hp.2 hr

lemma IsBody.unified (hq : IsQuote quote) (h : IsBody quote body) {after : List Char}
    (hclosed : IsClosed quote (unifyNewlines body ++ quote :: after)) :
    IsBody quote (unifyNewlines body) := by
  induction h with
  | nil =>
    rw [unifyNewlines_nil]
    exact .nil
  | @pair cs c hcs ih =>
    have hhead : cs.head? ≠ some '\n' := by
      rcases cs with _ | ⟨c, cs⟩
      · nofun
      · exact @IsBody.head?_ne_line quote (c :: cs) [] hq hcs
    rw [unifyNewlines_cons (by decide)] at hclosed ⊢
    by_cases hc : c = '\r'
    · subst hc
      rw [unifyNewlines_return hhead] at hclosed ⊢
      exact .pair _ (ih ((isClosed_pair_iff hq).1 hclosed))
    · rw [unifyNewlines_cons hc] at hclosed ⊢
      exact .pair _ (ih ((isClosed_pair_iff hq).1 hclosed))
  | @plain c cs hb hc hn hcs ih =>
    by_cases hr : c = '\r'
    · subst hr
      obtain ⟨ds, hds⟩ := exists_unifyNewlines_return cs
      rw [hds] at hclosed
      exact absurd hclosed (not_isClosed_line hq)
    · rw [unifyNewlines_cons hr] at hclosed ⊢
      exact .plain hb hc hn (ih ((isClosed_plain_iff hb hc hn).1 hclosed))

lemma unifyNewlines_quote_cons (hq : IsQuote quote) (cs : List Char) :
    unifyNewlines (quote :: cs) = quote :: unifyNewlines cs :=
  unifyNewlines_cons (by rcases hq with rfl | rfl <;> decide)

lemma unifyNewlines_append_quote (hq : IsQuote quote) (body rest : List Char) :
    unifyNewlines (body ++ quote :: rest) = unifyNewlines body ++ quote :: unifyNewlines rest := by
  have hne : quote ≠ '\n' := by rcases hq with rfl | rfl <;> decide
  have hcut : Cut body (quote :: rest) := cut_of_head (by rintro c ⟨⟩; exact hne) body
  rw [unifyNewlines_append hcut, unifyNewlines_quote_cons hq]

lemma IsSpelling.unified (h : IsSpelling s value raw)
    (hclosed : ∀ quote after, IsQuote quote → raw ++ rest = quote :: after →
      IsClosed quote after → IsClosed quote (unifyNewlines after)) :
    IsSpelling s (unifyNewlines value) (unifyNewlines raw) := by
  rcases h.string_or_plain with ⟨quote, hq, hb, rfl, rfl⟩ | ⟨rfl, hr⟩
  · have hraw : quote :: (value ++ [quote]) ++ rest = quote :: (value ++ quote :: rest) := by simp
    have hunified := hclosed quote _ hq hraw ⟨value, rest, hb, rfl⟩
    rw [unifyNewlines_append_quote hq] at hunified
    rw [unifyNewlines_quote_cons hq, unifyNewlines_append_quote hq, unifyNewlines_nil]
    exact .string hq (hb.unified hq hunified)
  · rwa [unifyNewlines_of_not_mem (hr _ rfl)]

lemma Stops.unified (h : IsSpelling s value raw) (hstop : Stops s raw rest) :
    Stops s (unifyNewlines raw) (unifyNewlines rest) := by
  rcases h.string_or_plain with ⟨quote, hq, hb, rfl, rfl⟩ | ⟨rfl, hr⟩
  · rw [unifyNewlines_quote_cons hq]
    exact fun _ _ => not_goesOn_string hq
  · rw [unifyNewlines_of_not_mem (hr _ rfl)]
    intro c hc
    rcases head?_unifyNewlines c hc with hc | rfl
    · exact hstop c hc
    · exact not_goesOn_of_blank rfl

lemma IsSpelling.not_mem_return_value (h : IsSpelling s value raw)
    (hp : ReturnsPaired (raw ++ rest)) : '\r' ∉ value := by
  rcases h.string_or_plain with ⟨quote, hq, hb, rfl, rfl⟩ | ⟨rfl, hr⟩
  · have hraw : quote :: (value ++ [quote]) ++ rest = quote :: (value ++ quote :: rest) := by simp
    rw [hraw] at hp
    exact hb.not_mem_return hq hp.2
  · exact hr _ rfl

lemma IsSpelling.getLast?_ne_return (h : IsSpelling s value raw) : raw.getLast? ≠ some '\r' := by
  rcases h.string_or_plain with ⟨quote, hq, hb, rfl, rfl⟩ | ⟨rfl, hr⟩
  · rw [← List.cons_append, List.getLast?_concat]
    rcases hq with rfl | rfl <;> decide
  · exact fun hlast => hr _ rfl (List.mem_of_getLast? hlast)

end Lexeme

/-! ### Strings that are kept -/

/-- Wherever reading comes to a quote, the string is closed just if it is closed when the line ends
are unified. -/
def StringsKept (cs : List Char) : Prop :=
  ∀ before quote after, cs = before ++ quote :: after → ComesTo before (quote :: after) →
    IsQuote quote → (IsClosed quote after ↔ IsClosed quote (unifyNewlines after))

namespace StringsKept

variable {blanks rest after : List Char} {quote : Char}

lemma here (h : StringsKept (blanks ++ quote :: after)) (hblank : ∀ c ∈ blanks, isBlank c = true)
    (hq : IsQuote quote) : IsClosed quote after ↔ IsClosed quote (unifyNewlines after) :=
  h blanks quote after rfl (comesTo_of_blank hblank) hq

lemma inPiece {p : Piece} (h : StringsKept (p.chars ++ rest)) (hq : IsQuote quote)
    (hafter : p.raw ++ rest = quote :: after) :
    IsClosed quote after → IsClosed quote (unifyNewlines after) := by
  rw [Piece.chars, List.append_assoc, hafter] at h
  exact (h.here p.blank hq).1

lemma of_not_mem {cs : List Char} (h : '\r' ∉ cs) : StringsKept cs := by
  rintro before quote after rfl - -
  have hafter : '\r' ∉ after := fun hr => h (by simp [hr])
  rw [unifyNewlines_of_not_mem hafter]

lemma behind {p : Piece} (h : StringsKept (p.chars ++ rest)) (hstop : Stops p.symbol p.raw rest) :
    StringsKept rest := by
  rintro before quote after rfl hcomes hq
  exact h (p.chars ++ before) quote after (List.append_assoc ..).symm (hcomes.cons hstop) hq

end StringsKept

lemma isClosed_unifyNewlines_iff {quote : Char} (hq : IsQuote quote) {cs : List Char}
    (hpaired : ReturnsPaired cs) (hescape : ReturnsUnescaped cs) :
    IsClosed quote cs ↔ IsClosed quote (unifyNewlines cs) := by
  -- the cases are those of a scan for the end of the string
  fun_induction stringBody quote cs with
  | case1 => rw [unifyNewlines_nil]
  | case2 c cs body rest _ ih =>
    have hc : c ≠ '\r' := fun hc => hescape.1 rfl (congrArg some hc)
    rw [unifyNewlines_cons (by decide), unifyNewlines_cons hc, isClosed_pair_iff hq,
      isClosed_pair_iff hq]
    exact ih hpaired.2.2 hescape.2.2
  | case3 c cs _ hstop =>
    rcases hstop with rfl | rfl
    · rw [unifyNewlines_quote_cons hq]
      exact iff_of_true isClosed_quote isClosed_quote
    · rw [unifyNewlines_cons (by decide)]
      exact iff_of_false (not_isClosed_line hq) (not_isClosed_line hq)
  | case4 c cs hpair hstop body rest _ ih =>
    rw [not_or] at hstop
    by_cases hb : c = '\\'
    · rcases cs with _ | ⟨d, ds⟩
      · rw [hb, unifyNewlines_cons (by decide), unifyNewlines_nil]
      · exact absurd rfl (hpair d ds hb)
    by_cases hr : c = '\r'
    · subst hr
      obtain ⟨ds, rfl⟩ := List.head?_eq_some_iff.1 (hpaired.1 rfl)
      rw [isClosed_plain_iff hb hstop.1 hstop.2, unifyNewlines]
      exact iff_of_false (not_isClosed_line hq) (not_isClosed_line hq)
    · rw [unifyNewlines_cons hr, isClosed_plain_iff hb hstop.1 hstop.2,
        isClosed_plain_iff hb hstop.1 hstop.2]
      exact ih hpaired.2 hescape.2

/-- **Ordinary line ends keep the strings.** -/
theorem stringsKept_of_paired {cs : List Char} (hpaired : ReturnsPaired cs)
    (hescape : ReturnsUnescaped cs) : StringsKept cs := by
  rintro before quote after rfl - hq
  exact isClosed_unifyNewlines_iff hq hpaired.right.2 hescape.right.2

lemma blank_unified {blanks : List Char} (h : ∀ c ∈ blanks, isBlank c = true) :
    ∀ c ∈ unifyNewlines blanks, isBlank c = true := by
  intro c hc
  rcases mem_unifyNewlines hc with hc | rfl
  · exact h c hc
  · rfl

variable {f : Fault} {before rest : List Char}

namespace Piece

variable (p : Piece)

lemma cut_blanks (before rest : List Char) : Cut (before ++ p.blanks) (p.raw ++ rest) := by
  obtain ⟨c, cs, hraw, hc⟩ := p.spelling.exists_cons
  refine cut_of_head (fun d hd => ?_) _
  rw [hraw] at hd
  obtain rfl : c = d := Option.some.inj hd
  rintro rfl
  cases hc

lemma cut_chars (before rest : List Char) : Cut (before ++ p.chars) rest := by
  intro hlast
  obtain ⟨c, cs, hraw, -⟩ := p.spelling.exists_cons
  rw [chars, ← List.append_assoc, List.getLast?_append] at hlast
  rcases hd : p.raw.getLast? with _ | d
  · rw [List.getLast?_eq_none_iff.1 hd] at hraw
    cases hraw
  · rw [hd, Option.some_or] at hlast
    exact absurd (hd.trans hlast) p.spelling.getLast?_ne_return

lemma exists_unified (hstop : Stops p.symbol p.raw rest)
    (hclosed : ∀ quote after, IsQuote quote → p.raw ++ rest = quote :: after →
      IsClosed quote after → IsClosed quote (unifyNewlines after)) :
    ∃ q : Piece, q.symbol = p.symbol ∧ q.blanks = unifyNewlines p.blanks ∧
      q.value = unifyNewlines p.value ∧ q.chars = unifyNewlines p.chars ∧
      Stops q.symbol q.raw (unifyNewlines rest) := by
  have hspelling : IsSpelling p.symbol (unifyNewlines p.value) (unifyNewlines p.raw) :=
    p.spelling.unified hclosed
  have hchars : unifyNewlines p.blanks ++ unifyNewlines p.raw = unifyNewlines p.chars :=
    (unifyNewlines_append (p.cut_blanks [] []).left).symm
  exact ⟨⟨_, p.symbol, _, _, blank_unified p.blank, hspelling⟩, rfl, rfl, rfl, hchars,
    hstop.unified p.spelling⟩

end Piece

lemma comesTo_unified_or_open (hcut : ∀ as, Cut as rest) (h : ComesTo before rest) :
    ComesTo (unifyNewlines before) (unifyNewlines rest) ∨
      ∃ before' rest', unifyNewlines (before ++ rest) = before' ++ rest' ∧
        ComesTo before' rest' ∧ IsFaulty .openString rest' := by
  obtain ⟨⟨ps, blanks, hblank, hsep⟩, rfl⟩ := h
  simp only [Lead.chars]
  induction ps with
  | nil => exact .inl (comesTo_of_blank (blank_unified hblank))
  | cons p ps ih =>
    have hsplit : Piece.charsOf (p :: ps) ++ blanks = p.chars ++ (Piece.charsOf ps ++ blanks) :=
      List.append_assoc ..
    have hseam (cs : List Char) : unifyNewlines (p.chars ++ cs) =
        unifyNewlines p.chars ++ unifyNewlines cs := unifyNewlines_append (p.cut_chars [] cs)
    obtain ⟨hstop, hsep⟩ := hsep
    rw [← List.append_assoc] at hstop
    rw [hsplit, List.append_assoc, hseam, hseam]
    by_cases hclosed : ∀ quote after, IsQuote quote →
        p.raw ++ (Piece.charsOf ps ++ blanks ++ rest) = quote :: after →
        IsClosed quote after → IsClosed quote (unifyNewlines after)
    · obtain ⟨q, -, -, -, hchars, hstop'⟩ := p.exists_unified hstop hclosed
      rw [← hchars]
      rcases ih hsep with hcomes | ⟨before', rest', hunified, hcomes, hfaulty⟩
      · rw [unifyNewlines_append (hcut _)] at hstop'
        exact .inl (hcomes.cons hstop')
      · rw [hunified] at hstop' ⊢
        exact .inr ⟨q.chars ++ before', rest', (List.append_assoc ..).symm, hcomes.cons hstop',
          hfaulty⟩
    · -- the piece is a string, and what becomes of it is open
      push Not at hclosed
      obtain ⟨quote, after, hq, hafter, -, hopen⟩ := hclosed
      refine .inr ⟨unifyNewlines p.blanks, quote :: unifyNewlines after, ?_,
        comesTo_of_blank (blank_unified p.blank), .string hq hopen⟩
      have hblanks : Cut p.blanks (quote :: after) := hafter ▸ p.cut_blanks [] _
      rw [← unifyNewlines_quote_cons hq, ← unifyNewlines_append hblanks, ← hafter, ← hseam,
        Piece.chars, List.append_assoc]

lemma unifyNewlines_digits {ds : List Char} (h : ∀ d ∈ ds, isDigit d = true) (rest : List Char) :
    unifyNewlines (ds ++ '.' :: rest) = ds ++ '.' :: unifyNewlines rest := by
  rw [unifyNewlines_append_of_not_mem (not_mem_of (by decide) h),
    unifyNewlines_cons (by decide)]

lemma Lexeme.IsFaulty.unified (h : IsFaulty f rest)
    (hclosed : ∀ quote after, IsQuote quote → rest = quote :: after →
      IsClosed quote (unifyNewlines after) → IsClosed quote after) :
    IsFaulty f (unifyNewlines rest) := by
  cases h with
  | @whole d ds rest hd hrest =>
    rw [unifyNewlines_digits hd]
    refine .whole hd fun c hc => ?_
    rcases head?_unifyNewlines c hc with hc | rfl
    · exact hrest c hc
    · decide
  | @decimal d e ds es rest hd he =>
    have hassoc (rest : List Char) : d :: ds ++ '.' :: e :: es ++ '.' :: rest =
        d :: ds ++ '.' :: (e :: es ++ '.' :: rest) := List.append_assoc ..
    rw [hassoc, unifyNewlines_digits hd, unifyNewlines_digits he, ← hassoc]
    exact .decimal hd he
  | @string quote cs hq hopen =>
    rw [unifyNewlines_quote_cons hq]
    exact .string hq (mt (hclosed quote cs hq rfl) hopen)

end StatementLang
