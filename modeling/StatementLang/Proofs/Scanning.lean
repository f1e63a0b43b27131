import Mathlib.Data.List.TakeWhile
import StatementLang.Proofs.Spelling

/-!
What a scan finds.

A scan finds a symbol just where a text begins with the characters that spell it and the next
character does not go on: what is found is spelled out (`isSpelling_of_scan`), and whatever is
spelled out is found (`scan_of_isSpelling`). Each class of lexemes has its own pair of lemmas.
-/

namespace StatementLang

open Text

section Runs

variable {p : Char → Bool} {as bs : List Char}

lemma takeWhile_of_stop (ha : ∀ c ∈ as, p c = true) (hb : ∀ c ∈ bs.head?, p c = false) :
    (as ++ bs).takeWhile p = as := by
  rw [List.takeWhile_append_of_pos ha]
  cases bs with
  | nil => simp
  | cons b bs => simp [hb b rfl]

lemma dropWhile_of_stop (ha : ∀ c ∈ as, p c = true) (hb : ∀ c ∈ bs.head?, p c = false) :
    (as ++ bs).dropWhile p = bs := by
  rw [List.dropWhile_append_of_pos ha]
  cases bs with
  | nil => rfl
  | cons b bs => simp [hb b rfl]

lemma stop_dropWhile (p : Char → Bool) (cs : List Char) :
    ∀ c ∈ (cs.dropWhile p).head?, p c = false := by
  intro c hc
  have h := List.head?_dropWhile_not p cs
  rwa [Option.mem_def.1 hc] at h

end Runs

namespace Lexeme

/-! ### Words, numbers, strings and marks -/

variable {s : Symbol} {value raw rest : List Char} {c : Char} {cs : List Char}

lemma isSpelling_word (hc : isLetter c = true) (hcs : ∀ d ∈ cs, isWordChar d = true) :
    IsSpelling ((Symbol.ofLexeme? (String.ofList (c :: cs))).getD .identifier) (c :: cs)
      (c :: cs) := by
  rcases h : Symbol.ofLexeme? (String.ofList (c :: cs)) with _ | s
  · refine .identifier hc hcs fun t ht => ?_
    rw [(ofLexeme?_of_letter hc t).2 ht] at h
    cases h
  · exact .keyword ((ofLexeme?_of_letter hc s).1 h)

lemma isWord_getD (hc : isLetter c = true) :
    (Symbol.ofLexeme? (String.ofList (c :: cs))).getD .identifier = .identifier ∨
      ((Symbol.ofLexeme? (String.ofList (c :: cs))).getD .identifier).keyword?.isSome := by
  rcases h : Symbol.ofLexeme? (String.ofList (c :: cs)) with _ | s
  · exact .inl rfl
  · right
    rw [Option.getD_some, (ofLexeme?_of_letter hc s).1 h]
    rfl

lemma isSpelling_of_word (hc : isLetter c = true) (h : word c cs = ⟨raw, rest, .ok (s, value)⟩) :
    IsSpelling s value raw ∧ Stops s raw rest := by
  cases h
  refine ⟨isSpelling_word hc fun d hd => List.mem_takeWhile_imp hd, fun d hd hgo => ?_⟩
  rw [goesOn_word_iff hc (isWord_getD hc), stop_dropWhile _ _ d hd] at hgo
  cases hgo

lemma word_of_stop (hcs : ∀ d ∈ cs, isWordChar d = true)
    (hrest : ∀ d ∈ rest.head?, isWordChar d = false) :
    word c (cs ++ rest) = ⟨c :: cs, rest,
      .ok ((Symbol.ofLexeme? (String.ofList (c :: cs))).getD .identifier, c :: cs)⟩ := by
  simp only [word, takeWhile_of_stop hcs hrest, dropWhile_of_stop hcs hrest]

lemma isSpelling_of_number (hc : isDigit c = true) (h : number c cs = ⟨raw, rest, .ok (s, value)⟩) :
    IsSpelling s value raw ∧ Stops s raw rest := by
  have hwhole : ∀ d ∈ c :: cs.takeWhile isDigit, isDigit d = true := by
    rintro d (_ | ⟨_, hd⟩)
    · exact hc
    · exact List.mem_takeWhile_imp hd
  unfold number at h
  split at h
  · next d ds hds =>
    split at h
    · next hd =>
      have hpart : ∀ e ∈ d :: ds.takeWhile isDigit, isDigit e = true := by
        rintro e (_ | ⟨_, he⟩)
        · exact hd
        · exact List.mem_takeWhile_imp he
      split at h
      · cases h
      · next hpoint =>
        cases h
        refine ⟨.decimal hwhole hpart, fun e he hgo => ?_⟩
        rcases (goesOn_number_iff hc).1 hgo with hgo | rfl
        · rw [stop_dropWhile _ _ e he] at hgo
          cases hgo
        · obtain ⟨es, hes⟩ := List.head?_eq_some_iff.1 he
          exact hpoint es hes
    · cases h
  · cases h
  · next hpoint hlast =>
    cases h
    refine ⟨.whole hwhole, fun e he hgo => ?_⟩
    rcases (goesOn_number_iff hc).1 hgo with hgo | rfl
    · rw [stop_dropWhile _ _ e he] at hgo
      cases hgo
    · obtain ⟨_ | ⟨d, ds⟩, hes⟩ := List.head?_eq_some_iff.1 he
      · exact hlast hes
      · exact hpoint d ds hes

lemma number_of_whole {d : Char} {ds : List Char} (hd : ∀ c ∈ ds, isDigit c = true)
    (hrest : ∀ c ∈ rest.head?, isDigit c = false ∧ c ≠ '.') :
    number d (ds ++ rest) = ⟨d :: ds, rest, .ok (.number, d :: ds)⟩ := by
  have hstop : ∀ c ∈ rest.head?, isDigit c = false := fun c hc => (hrest c hc).1
  unfold number
  rw [takeWhile_of_stop hd hstop, dropWhile_of_stop hd hstop]
  split
  · exact absurd rfl (hrest '.' rfl).2
  · exact absurd rfl (hrest '.' rfl).2
  · rfl

lemma number_of_decimal {d e : Char} {ds es : List Char} (hd : ∀ c ∈ ds, isDigit c = true)
    (he : ∀ c ∈ e :: es, isDigit c = true)
    (hrest : ∀ c ∈ rest.head?, isDigit c = false ∧ c ≠ '.') :
    number d (ds ++ '.' :: e :: es ++ rest) =
      ⟨d :: ds ++ '.' :: e :: es, rest, .ok (.number, d :: ds ++ '.' :: e :: es)⟩ := by
  have hpoint : ∀ c ∈ ('.' :: e :: (es ++ rest)).head?, isDigit c = false := by
    rintro c ⟨⟩
    decide
  have hes : ∀ c ∈ es, isDigit c = true := fun c hc => he c (List.mem_cons_of_mem _ hc)
  have hstop : ∀ c ∈ rest.head?, isDigit c = false := fun c hc => (hrest c hc).1
  rw [List.append_assoc, List.cons_append, List.cons_append]
  simp only [number, takeWhile_of_stop hd hpoint, dropWhile_of_stop hd hpoint,
    he e List.mem_cons_self, if_true, takeWhile_of_stop hes hstop, dropWhile_of_stop hes hstop]
  split
  · exact absurd rfl (hrest '.' rfl).2
  · rfl

lemma isBody_stringBody (quote : Char) (cs : List Char) :
    (stringBody quote cs).2 = [] ∨ IsBody quote (stringBody quote cs).1 := by
  fun_induction stringBody quote cs with
  | case1 => exact .inl rfl
  | case2 c cs body rest h ih =>
    rw [h] at ih
    exact ih.imp_right (.pair c)
  | case3 => exact .inr .nil
  | case4 c cs hpair hq body rest h ih =>
    rw [h] at ih
    rw [not_or] at hq
    by_cases hb : c = '\\'
    · -- a backslash that makes no pair is the last character of the text
      rcases cs with _ | ⟨d, ds⟩
      · cases h
        exact .inl rfl
      · exact (hpair d ds hb rfl).elim
    · exact ih.imp_right (.plain hb hq.1 hq.2)

lemma stringBody_of_isBody {quote : Char} (hq : IsQuote quote) {body : List Char}
    (h : IsBody quote body) (rest : List Char) :
    stringBody quote (body ++ quote :: rest) = (body, quote :: rest) := by
  induction h with
  | nil =>
    rcases hq with rfl | rfl <;> simp [stringBody]
  | pair c _ ih => simp [stringBody, ih]
  | @plain c cs hb hc hn _ ih =>
    rw [List.cons_append, stringBody, if_neg (by simp [hc, hn]), ih]
    exact fun _ _ h => absurd h hb

lemma isSpelling_of_string (hc : IsQuote c) (h : string c cs = ⟨raw, rest, .ok (s, value)⟩) :
    IsSpelling s value raw ∧ Stops s raw rest := by
  have hbody := isBody_stringBody c cs
  unfold string at h
  split at h
  · next body d ds hd =>
    rw [hd] at hbody
    split at h
    · cases h
      exact ⟨.string hc (hbody.resolve_left (by simp)), fun _ _ => not_goesOn_string hc⟩
    · cases h
  · cases h

lemma string_of_isBody (hc : IsQuote c) {body : List Char} (h : IsBody c body) :
    string c (body ++ c :: rest) = ⟨c :: (body ++ [c]), rest, .ok (.string, body)⟩ := by
  simp [string, stringBody_of_isBody hc h]

lemma spelled?_eq_some (hc : isLetter c = false)
    (h : s.operator? = some (String.ofList (c :: cs))) :
    spelled? (c :: cs) rest = some ⟨c :: cs, rest, .ok (s, c :: cs)⟩ := by
  rw [spelled?, (ofLexeme?_of_not_letter hc s).2 h, Option.map_some]

lemma spelled?_eq_none (hc : isLetter c = false)
    (h : ∀ t : Symbol, t.operator? ≠ some (String.ofList (c :: cs))) :
    spelled? (c :: cs) rest = none := by
  rw [spelled?, Option.map_eq_none_iff, Option.eq_none_iff_forall_ne_some]
  exact fun t ht => h t ((ofLexeme?_of_not_letter hc t).1 ht)

lemma not_operator_of_three {c d e : Char} (t : Symbol) :
    t.operator? ≠ some (String.ofList ([c, d] ++ [e])) := fun h => by
  simpa using (operator_spellings _ (mem_spellings h)).1

/-- The lexeme at the front of a text that begins with no letter, digit or quote. -/
def mark (c : Char) (cs : List Char) : Lexeme :=
  (operator? (c :: cs)).getD ⟨[c], cs, .ok (.unknown, [c])⟩

lemma mark_of_pair {d : Char} (hc : isLetter c = false)
    (h : s.operator? = some (String.ofList [c, d])) :
    mark c (d :: cs) = ⟨[c, d], cs, .ok (s, [c, d])⟩ := by
  rw [mark, operator?, spelled?_eq_some hc h, Option.some_or, Option.getD_some]

lemma mark_of_not_pair (hc : isLetter c = false)
    (h : ∀ d ∈ cs.head?, ∀ t : Symbol, t.operator? ≠ some (String.ofList [c, d])) :
    mark c cs = (spelled? [c] cs).getD ⟨[c], cs, .ok (.unknown, [c])⟩ := by
  cases cs with
  | nil => rfl
  | cons d ds => rw [mark, operator?, spelled?_eq_none hc (h d rfl), Option.none_or]

lemma isSpelling_of_mark (hb : isBlank c = false) (hl : isLetter c = false) (hd : isDigit c = false)
    (hq : ¬ IsQuote c) (h : mark c cs = ⟨raw, rest, .ok (s, value)⟩) :
    IsSpelling s value raw ∧ Stops s raw rest := by
  -- Two characters are tried first, so a single one is taken only where no pair spells an operator.
  by_cases hpair : ∃ d ds, cs = d :: ds ∧ ∃ t : Symbol, t.operator? = some (String.ofList [c, d])
  · obtain ⟨d, ds, rfl, t, ht⟩ := hpair
    rw [mark_of_pair hl ht] at h
    cases h
    refine ⟨.operator ht, fun e _ hgo => ?_⟩
    obtain ⟨u, hu⟩ := (goesOn_mark_iff (.inl (by simp [ht]))).1 hgo
    exact not_operator_of_three u hu
  · have hpair : ∀ d ∈ cs.head?, ∀ t : Symbol, t.operator? ≠ some (String.ofList [c, d]) := by
      intro d hd t ht
      obtain ⟨ds, rfl⟩ := List.head?_eq_some_iff.1 hd
      exact hpair ⟨d, ds, rfl, t, ht⟩
    have hstop {s : Symbol} (hs : s.operator?.isSome ∨ s = .unknown) : Stops s [c] cs := by
      intro d hd hgo
      obtain ⟨t, ht⟩ := (goesOn_mark_iff hs).1 hgo
      exact hpair d hd t ht
    rw [mark_of_not_pair hl hpair] at h
    by_cases hone : ∃ t : Symbol, t.operator? = some (String.ofList [c])
    · obtain ⟨t, ht⟩ := hone
      rw [spelled?_eq_some hl ht] at h
      cases h
      exact ⟨.operator ht, hstop (.inl (by simp [ht]))⟩
    · rw [not_exists] at hone
      rw [spelled?_eq_none hl hone] at h
      cases h
      exact ⟨.unknown ⟨hb, hl, hd, hq, hone⟩, hstop (.inr rfl)⟩

lemma mark_of_single (hl : isLetter c = false) (hs : s.operator?.isSome ∨ s = .unknown)
    (hstop : Stops s [c] rest) :
    mark c rest = (spelled? [c] rest).getD ⟨[c], rest, .ok (.unknown, [c])⟩ :=
  mark_of_not_pair hl fun d hd t ht => hstop d hd ((goesOn_mark_iff hs).2 ⟨t, ht⟩)

lemma mark_of_operator (h : s.operator? = some (String.ofList (c :: cs)))
    (hstop : Stops s (c :: cs) rest) :
    mark c (cs ++ rest) = ⟨c :: cs, rest, .ok (s, c :: cs)⟩ := by
  obtain ⟨hlen, hchars⟩ := operator_spellings _ (mem_spellings h)
  have hl : isLetter c = false := (hchars c List.mem_cons_self).2.1
  rcases cs with _ | ⟨d, _ | ⟨e, es⟩⟩
  · rw [List.nil_append, mark_of_single hl (.inl (by simp [h])) hstop, spelled?_eq_some hl h,
      Option.getD_some]
  · exact mark_of_pair hl h
  · simp at hlen

lemma mark_of_stray (h : IsStray c) (hstop : Stops .unknown [c] rest) :
    mark c rest = ⟨[c], rest, .ok (.unknown, [c])⟩ := by
  rw [mark_of_single h.not_letter (.inr rfl) hstop,
    spelled?_eq_none h.not_letter h.not_operator, Option.getD_none]

/-- No range of one list meets a range of the other. Both ascend and are gone through side by
side. -/
def apart : List (Nat × Nat) → List (Nat × Nat) → Bool
  | [], _ => true
  | (a, b) :: ls, rs =>
    match rs.dropWhile (·.2 < a) with
    | [] => true
    | r :: rs => b < r.1 && apart ls (r :: rs)

lemma not_inRanges_of_apart {ls rs : List (Nat × Nat)} {r : Nat × Nat} {n : Nat}
    (hasc : rs.Pairwise (·.1 < ·.1)) (h : apart ls rs = true) (hr : r ∈ rs) (hlo : r.1 ≤ n)
    (hhi : n ≤ r.2) : inRanges n ls = false := by
  induction ls generalizing rs with
  | nil => rfl
  | cons l ls ih =>
    obtain ⟨a, b⟩ := l
    rw [inRanges]
    split
    · rfl
    next hn =>
    -- a range that reaches up to `n` is not skipped
    have hmem : r ∈ rs.dropWhile (·.2 < a) := by
      rw [← List.takeWhile_append_dropWhile (p := (·.2 < a)) (l := rs)] at hr
      refine (List.mem_append.1 hr).resolve_left fun hr => ?_
      have := List.mem_takeWhile_imp hr
      simp only [decide_eq_true_eq] at this
      omega
    have hsub := hasc.sublist (List.dropWhile_sublist (·.2 < a))
    rw [apart] at h
    split at h
    · next hnil =>
      rw [hnil] at hmem
      cases hmem
    next q qs hq =>
    rw [hq] at hmem hsub
    rw [Bool.and_eq_true, decide_eq_true_eq] at h
    have hle : q.1 ≤ r.1 := by
      rcases List.mem_cons.1 hmem with rfl | hr
      · exact Nat.le_refl _
      · exact Nat.le_of_lt (List.rel_of_pairwise_cons hsub hr)
    rw [ih hsub h.2 hmem, Bool.or_false, decide_eq_false_iff_not]
    omega

lemma digits_apart :
    (decimalDigitRanges.Pairwise (·.1 < ·.1) ∧ apart letterRanges decimalDigitRanges = true) ∧
      otherDigitRanges.Pairwise (·.1 < ·.1) ∧ apart letterRanges otherDigitRanges = true := by
  decide +kernel

lemma not_letter_of_digit (hd : isDigit c = true) : isLetter c = false := by
  rw [isDigit, Bool.or_eq_true] at hd
  rcases hd with hd | hd
  · obtain ⟨r, hr, hlo, hhi⟩ := exists_of_inRanges hd
    exact not_inRanges_of_apart digits_apart.1.1 digits_apart.1.2 hr hlo hhi
  · obtain ⟨r, hr, hlo, hhi⟩ := exists_of_inRanges hd
    exact not_inRanges_of_apart digits_apart.2.1 digits_apart.2.2 hr hlo hhi

/-! ### Any lexeme -/

lemma not_blank_of_head (h : isLetter c = true ∨ isDigit c = true ∨ IsQuote c) :
    isBlank c = false := by
  cases hb : isBlank c with
  | false => rfl
  | true =>
    simp only [isBlank, Bool.or_eq_true, decide_eq_true_eq] at hb
    rcases hb with (((rfl | rfl) | rfl) | rfl) | rfl <;> revert h <;> decide

lemma scan_of_letter (hl : isLetter c = true) : scan c cs = word c cs := if_pos hl

lemma scan_of_digit (hd : isDigit c = true) : scan c cs = number c cs := by
  rw [scan, if_neg (by simp [not_letter_of_digit hd]), if_pos hd]

lemma scan_of_quote (hq : IsQuote c) : scan c cs = string c cs := by
  have hc : isLetter c = false ∧ isDigit c = false := by
    rcases hq with rfl | rfl <;> decide
  rw [scan, if_neg (by simp [hc.1]), if_neg (by simp [hc.2]), if_pos hq]

lemma scan_of_mark (hl : isLetter c = false) (hd : isDigit c = false) (hq : ¬ IsQuote c) :
    scan c cs = mark c cs := by
  rw [scan, if_neg (by simp [hl]), if_neg (by simp [hd]), if_neg hq]
  rfl

theorem isSpelling_of_scan (hb : isBlank c = false) (h : scan c cs = ⟨raw, rest, .ok (s, value)⟩) :
    IsSpelling s value raw ∧ Stops s raw rest := by
  by_cases hl : isLetter c = true
  · exact isSpelling_of_word hl (scan_of_letter hl ▸ h)
  by_cases hd : isDigit c = true
  · exact isSpelling_of_number hd (scan_of_digit hd ▸ h)
  by_cases hq : IsQuote c
  · exact isSpelling_of_string hq (scan_of_quote hq ▸ h)
  rw [Bool.not_eq_true] at hl hd
  exact isSpelling_of_mark hb hl hd hq (scan_of_mark hl hd hq ▸ h)

/-- **Every spelling is found** where a text begins with it and does not go on. -/
theorem scan_of_isSpelling (h : IsSpelling s value raw) (hstop : Stops s raw rest) :
    ∃ c cs, raw ++ rest = c :: cs ∧ isBlank c = false ∧
      scan c cs = ⟨raw, rest, .ok (s, value)⟩ := by
  cases h with
  | keyword h =>
    obtain ⟨c, cs, rfl, hc, hcs⟩ := keyword_spellings _ (mem_spellings h)
    have hs : s = .identifier ∨ s.keyword?.isSome := .inr (by simp [h])
    have hrest : ∀ d ∈ rest.head?, isWordChar d = false := fun d hd => by
      simpa using mt (goesOn_word_iff hc hs).2 (hstop d hd)
    refine ⟨c, cs ++ rest, rfl, not_blank_of_head (.inl hc), ?_⟩
    rw [scan_of_letter hc, word_of_stop hcs hrest, (ofLexeme?_of_letter hc s).2 h,
      Option.getD_some]
  | @identifier c cs hc hcs hk =>
    have hrest : ∀ d ∈ rest.head?, isWordChar d = false := fun d hd => by
      simpa using mt (goesOn_word_iff hc (.inl rfl)).2 (hstop d hd)
    have hnone : Symbol.ofLexeme? (String.ofList (c :: cs)) = none :=
      Option.eq_none_iff_forall_ne_some.2 fun t ht => hk t ((ofLexeme?_of_letter hc t).1 ht)
    refine ⟨c, cs ++ rest, rfl, not_blank_of_head (.inl hc), ?_⟩
    rw [scan_of_letter hc, word_of_stop hcs hrest, hnone, Option.getD_none]
  | @whole d ds hds =>
    have hd : isDigit d = true := hds d List.mem_cons_self
    have hrest : ∀ c ∈ rest.head?, isDigit c = false ∧ c ≠ '.' := fun c hc => by
      simpa using mt (goesOn_number_iff hd).2 (hstop c hc)
    refine ⟨d, ds ++ rest, rfl, not_blank_of_head (.inr (.inl hd)), ?_⟩
    rw [scan_of_digit hd, number_of_whole (fun c hc => hds c (List.mem_cons_of_mem _ hc)) hrest]
  | @decimal d e ds es hds hes =>
    have hd : isDigit d = true := hds d List.mem_cons_self
    have hrest : ∀ c ∈ rest.head?, isDigit c = false ∧ c ≠ '.' := fun c hc => by
      simpa using mt (goesOn_number_iff hd).2 (hstop c hc)
    refine ⟨d, ds ++ '.' :: e :: es ++ rest, rfl, not_blank_of_head (.inr (.inl hd)), ?_⟩
    rw [scan_of_digit hd,
      number_of_decimal (fun c hc => hds c (List.mem_cons_of_mem _ hc)) hes hrest]
  | @string quote body hq hb =>
    refine ⟨quote, value ++ quote :: rest, by simp, not_blank_of_head (.inr (.inr hq)), ?_⟩
    rw [scan_of_quote hq, string_of_isBody hq hb]
  | operator h =>
    obtain ⟨hlen, hchars⟩ := operator_spellings _ (mem_spellings h)
    obtain ⟨c, cs, rfl⟩ := List.exists_cons_of_ne_nil (l := value) fun hnil => by
      simp [hnil] at hlen
    obtain ⟨hb, hl, hd, hq⟩ := hchars c List.mem_cons_self
    refine ⟨c, cs ++ rest, rfl, hb, ?_⟩
    rw [scan_of_mark hl hd (not_or.2 hq), mark_of_operator h hstop]
  | @unknown c hc =>
    refine ⟨c, rest, rfl, hc.not_blank, ?_⟩
    rw [scan_of_mark hc.not_letter hc.not_digit hc.not_quote, mark_of_stray hc hstop]

lemma IsSpelling.exists_cons (h : IsSpelling s value raw) :
    ∃ c cs, raw = c :: cs ∧ isBlank c = false := by
  obtain ⟨c, cs, heq, hb, -⟩ := scan_of_isSpelling h (stops_nil s raw)
  exact ⟨c, cs, by simpa using heq, hb⟩

end Lexeme

end StatementLang
