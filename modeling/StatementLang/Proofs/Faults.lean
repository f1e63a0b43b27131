import StatementLang.Proofs.Characters
import StatementLang.Proofs.OnDemand

/-!
Where a text cannot be read any further.

A lexeme is faulty if it is a number with a point behind it that it cannot take, or a string that is
not closed on its line (`IsFaulty`, said without any scanning). Reading a text ends in a fault just
if it comes to a faulty lexeme (`tokenize_eq_error_iff`). The text up to there is whole, and it has
the tokens that were read before the fault (`faults_are_localised`).
-/

namespace StatementLang

open Text

namespace Lexeme

/-- Behind an opening quote stand a body and the same quote again. -/
def IsClosed (quote : Char) (cs : List Char) : Prop :=
  ∃ body rest, IsBody quote body ∧ cs = body ++ quote :: rest

/-- The characters begin with a lexeme that cannot be completed. -/
inductive IsFaulty : Fault → List Char → Prop
  /-- Digits and a point with no digit behind it. -/
  | whole {d : Char} {ds rest : List Char} (hd : ∀ c ∈ d :: ds, isDigit c = true)
    (hrest : ∀ c ∈ rest.head?, isDigit c = false) :
    IsFaulty .malformedNumber (d :: ds ++ '.' :: rest)
  /-- A point behind digits, a point and digits. -/
  | decimal {d e : Char} {ds es rest : List Char} (hd : ∀ c ∈ d :: ds, isDigit c = true)
    (he : ∀ c ∈ e :: es, isDigit c = true) :
    IsFaulty .malformedNumber (d :: ds ++ '.' :: e :: es ++ '.' :: rest)
  | string {quote : Char} {cs : List Char} (hq : IsQuote quote) (hopen : ¬ IsClosed quote cs) :
    IsFaulty .openString (quote :: cs)

variable {c quote : Char} {cs raw rest : List Char} {f : Fault}

lemma isFaulty_of_number (hc : isDigit c = true) (h : number c cs = ⟨raw, rest, .error f⟩) :
    IsFaulty f (c :: cs) := by
  have hwhole : ∀ d ∈ c :: cs.takeWhile isDigit, isDigit d = true :=
    List.forall_mem_cons.2 ⟨hc, fun d hd => List.mem_takeWhile_imp hd⟩
  have hsplit : c :: cs = c :: cs.takeWhile isDigit ++ cs.dropWhile isDigit := by simp
  unfold number at h
  split at h
  · next d ds hds =>
    rw [hsplit, hds]
    split at h
    · next hd =>
      split at h
      · next es hes =>
        cases h
        have hpart : ∀ e ∈ d :: ds.takeWhile isDigit, isDigit e = true :=
          List.forall_mem_cons.2 ⟨hd, fun e he => List.mem_takeWhile_imp he⟩
        have hds : ds = ds.takeWhile isDigit ++ '.' :: es := by
          rw [← hes, List.takeWhile_append_dropWhile]
        have hfaulty : IsFaulty .malformedNumber (c :: cs.takeWhile isDigit ++
            '.' :: d :: ds.takeWhile isDigit ++ '.' :: es) := .decimal hwhole hpart
        rw [hds]
        simpa using hfaulty
      · cases h
    · next hd =>
      cases h
      exact .whole hwhole (by simpa using hd)
  · next hds =>
    cases h
    rw [hsplit, hds]
    exact .whole hwhole (by simp)
  · cases h

lemma number_of_point {d : Char} {ds : List Char} (hd : ∀ c ∈ ds, isDigit c = true)
    (hrest : ∀ c ∈ rest.head?, isDigit c = false) :
    (number d (ds ++ '.' :: rest)).found = .error .malformedNumber := by
  have hpoint : ∀ c ∈ ('.' :: rest).head?, isDigit c = false := by
    rintro c ⟨⟩
    decide
  unfold number
  rw [takeWhile_of_stop hd hpoint, dropWhile_of_stop hd hpoint]
  rcases rest with _ | ⟨e, es⟩
  · rfl
  · have he : isDigit e = false := hrest e rfl
    simp [he]

lemma number_of_second_point {d e : Char} {ds es : List Char} (hd : ∀ c ∈ ds, isDigit c = true)
    (he : ∀ c ∈ e :: es, isDigit c = true) :
    (number d (ds ++ '.' :: e :: es ++ '.' :: rest)).found = .error .malformedNumber := by
  have hpoint (cs : List Char) : ∀ c ∈ ('.' :: cs).head?, isDigit c = false := by
    rintro c ⟨⟩
    decide
  have hes : ∀ c ∈ es, isDigit c = true := fun c hc => he c (List.mem_cons_of_mem _ hc)
  have hassoc : ds ++ '.' :: e :: es ++ '.' :: rest = ds ++ '.' :: (e :: (es ++ '.' :: rest)) := by
    simp
  unfold number
  rw [hassoc, takeWhile_of_stop hd (hpoint _), dropWhile_of_stop hd (hpoint _)]
  simp [he e List.mem_cons_self, dropWhile_of_stop hes (hpoint rest)]

lemma found_string (hq : IsQuote quote) (cs : List Char) :
    (string quote cs).found = .error .openString ∧ ¬ IsClosed quote cs ∨
      (∃ body, (string quote cs).found = .ok (.string, body)) ∧ IsClosed quote cs := by
  rcases h : string quote cs with ⟨raw, rest, f | ⟨s, value⟩⟩
  · left
    have hf : f = .openString := by
      unfold string at h
      split at h
      · split at h
        · cases h
        · cases h; rfl
      · cases h; rfl
    refine ⟨by rw [hf], ?_⟩
    rintro ⟨body, rest', hbody, rfl⟩
    rw [string_of_isBody hq hbody] at h
    cases h
  · right
    have hs := (isSpelling_of_string hq h).1
    have hraw : raw ++ rest = quote :: cs := by
      have := raw_append_rest_string quote cs
      rwa [h] at this
    unfold string at h
    split at h
    · next body d ds hd =>
      split at h
      · cases h
        have hbody := (isBody_stringBody quote cs).resolve_left (by simp [hd])
        rw [hd] at hbody
        refine ⟨⟨_, rfl⟩, value, rest, hbody, ?_⟩
        simpa using (List.cons.inj hraw).2.symm
      · cases h
    · cases h

lemma isClosed_quote : IsClosed quote (quote :: cs) := ⟨[], cs, .nil, rfl⟩

lemma not_isClosed_line (hq : IsQuote quote) : ¬ IsClosed quote ('\n' :: cs) := by
  rintro ⟨body, rest, hbody, h⟩
  cases hbody with
  | nil =>
    obtain rfl : '\n' = quote := (List.cons.inj h).1
    exact absurd hq (by decide)
  | pair => cases h
  | plain _ _ hn => exact hn (List.cons.inj h).1.symm

lemma isClosed_plain_iff (hb : c ≠ '\\') (hc : c ≠ quote) (hn : c ≠ '\n') :
    IsClosed quote (c :: cs) ↔ IsClosed quote cs := by
  constructor
  · rintro ⟨body, rest, hbody, h⟩
    cases hbody with
    | nil => exact absurd (List.cons.inj h).1 hc
    | pair => exact absurd (List.cons.inj h).1 hb
    | plain _ _ _ hbody => exact ⟨_, rest, hbody, (List.cons.inj h).2⟩
  · rintro ⟨body, rest, hbody, rfl⟩
    exact ⟨c :: body, rest, .plain hb hc hn hbody, rfl⟩

lemma isClosed_pair_iff (hq : IsQuote quote) :
    IsClosed quote ('\\' :: c :: cs) ↔ IsClosed quote cs := by
  constructor
  · rintro ⟨body, rest, hbody, h⟩
    cases hbody with
    | nil =>
      obtain rfl : '\\' = quote := (List.cons.inj h).1
      exact absurd hq (by decide)
    | pair _ hbody => exact ⟨_, rest, hbody, (List.cons.inj (List.cons.inj h).2).2⟩
    | plain hb => exact absurd (List.cons.inj h).1.symm hb
  · rintro ⟨body, rest, hbody, rfl⟩
    exact ⟨'\\' :: c :: body, rest, .pair c hbody, rfl⟩

theorem isFaulty_of_scan (h : scan c cs = ⟨raw, rest, .error f⟩) : IsFaulty f (c :: cs) := by
  by_cases hl : isLetter c = true
  · rw [scan_of_letter hl] at h
    cases h
  by_cases hd : isDigit c = true
  · exact isFaulty_of_number hd (scan_of_digit hd ▸ h)
  by_cases hq : IsQuote c
  · rw [scan_of_quote hq] at h
    rcases found_string hq cs with ⟨hfound, hopen⟩ | ⟨⟨body, hfound⟩, -⟩
    · rw [h] at hfound
      cases hfound
      exact .string hq hopen
    · rw [h] at hfound
      cases hfound
  -- a character that begins none of these is a lexeme by itself
  rw [Bool.not_eq_true] at hl hd
  rw [scan_of_mark hl hd hq, mark] at h
  cases hmark : operator? (c :: cs) with
  | none => rw [hmark] at h; cases h
  | some l =>
    rw [hmark, Option.getD_some] at h
    subst h
    have hspelled {raw' rest' : List Char} : spelled? raw' rest' ≠ some ⟨raw, rest, .error f⟩ := by
      intro hs
      obtain ⟨s, -, hs⟩ := Option.map_eq_some_iff.1 hs
      cases hs
    rcases cs with _ | ⟨d, ds⟩
    · exact absurd hmark hspelled
    · rcases Option.or_eq_some_iff.1 hmark with hmark | ⟨-, hmark⟩
      · exact absurd hmark hspelled
      · exact absurd hmark hspelled

theorem scan_of_isFaulty (h : IsFaulty f rest) :
    ∃ c cs, rest = c :: cs ∧ isBlank c = false ∧ (scan c cs).found = .error f := by
  cases h with
  | @whole d ds rest hd hrest =>
    have hhead : isDigit d = true := hd d List.mem_cons_self
    refine ⟨d, ds ++ '.' :: rest, rfl, not_blank_of_head (.inr (.inl hhead)), ?_⟩
    rw [scan_of_digit hhead]
    exact number_of_point (fun c hc => hd c (List.mem_cons_of_mem _ hc)) hrest
  | @decimal d e ds es rest hd he =>
    have hhead : isDigit d = true := hd d List.mem_cons_self
    refine ⟨d, ds ++ '.' :: e :: es ++ '.' :: rest, rfl, not_blank_of_head (.inr (.inl hhead)), ?_⟩
    rw [scan_of_digit hhead]
    exact number_of_second_point (fun c hc => hd c (List.mem_cons_of_mem _ hc)) he
  | @string quote cs hq hopen =>
    refine ⟨quote, cs, rfl, not_blank_of_head (.inr (.inr hq)), ?_⟩
    rw [scan_of_quote hq]
    rcases found_string hq cs with ⟨hfound, -⟩ | ⟨-, hclosed⟩
    · exact hfound
    · exact absurd hclosed hopen

end Lexeme

open Lexeme

/-! ### Readers before a fault -/

namespace Reader

variable {r r' : Reader} {before rest : List Char} {e : LexError} {f : Fault} {ts : List Token}

lemma next_of_isFaulty (h : IsFaulty f rest) :
    (next ⟨rest, .behind before⟩).1 = .error ⟨f, .behind before⟩ := by
  obtain ⟨c, cs, rfl, hc, hfound⟩ := scan_of_isFaulty h
  have hskip : skipBlanks ⟨c :: cs, .behind before⟩ = ⟨c :: cs, .behind before⟩ :=
    skipBlanks_of_stop (by rintro d ⟨⟩; exact hc)
  rw [next_of_cons hskip rfl, reading, hfound]

lemma isFaulty_of_next (hplace : r.place = .behind before) (h : r.next = (.error e, r')) :
    ∃ blanks rest, r.rest = blanks ++ rest ∧ (∀ c ∈ blanks, isBlank c = true) ∧
      IsFaulty e.fault rest ∧ e.place = .behind (before ++ blanks) := by
  rcases hrest : r.skipBlanks.rest with _ | ⟨c, cs⟩
  · rw [next_of_nil rfl hrest] at h
    cases h
  · rw [next_of_cons rfl hrest, reading] at h
    rcases hscan : scan c cs with ⟨raw, rest, f | ⟨s, value⟩⟩
    · rw [hscan] at h
      cases h
      refine ⟨r.rest.takeWhile isBlank, c :: cs, ?_, fun _ => List.mem_takeWhile_imp,
        isFaulty_of_scan hscan, ?_⟩
      · rw [← hrest]
        exact List.takeWhile_append_dropWhile.symm
      · rw [skipBlanks, hplace, Place.advance_behind]
    · rw [hscan] at h
      cases h

lemma pieces_of_fault (hplace : r.place = .behind before) (h : r.readAll = (ts, some e)) :
    ∃ ps blanks rest, r.rest = Piece.charsOf ps ++ (blanks ++ rest) ∧
      (∀ c ∈ blanks, isBlank c = true) ∧ Piece.Separated ps (blanks ++ rest) ∧
      IsFaulty e.fault rest ∧ e.place = .behind (before ++ (Piece.charsOf ps ++ blanks)) ∧
      ts = Piece.tokensOf before ps := by
  fun_induction readAll r generalizing before ts with
  | case1 r e' r' hnext =>
    cases h
    obtain ⟨blanks, rest, hrest, hblank, hfaulty, he⟩ := isFaulty_of_next hplace hnext
    exact ⟨[], blanks, rest, hrest, hblank, trivial, hfaulty, he, rfl⟩
  | case2 => cases h
  | case3 r t r' hnext ht hlt us fault hall ih =>
    cases h
    obtain ⟨hend, -⟩ | ⟨p, -, htoken, hsplit, hplace', hstop⟩ := next_cases hplace hnext
    · exact absurd hend ht
    · obtain ⟨ps, blanks, rest, hrest, hblank, hsep, hfaulty, he, hts⟩ := ih hplace' hall
      refine ⟨p :: ps, blanks, rest, by simp [hsplit, hrest], hblank, ⟨hrest ▸ hstop, hsep⟩,
        hfaulty, by simpa using he, ?_⟩
      rw [htoken, hts, Piece.tokensOf]

end Reader

/-! ### Texts that cannot be read -/

/-- Read from the left, a text whose first part is `before` comes to the lexeme that `rest` begins
with: only whole lexemes and blanks stand before it. -/
def ComesTo (before rest : List Char) : Prop := ∃ l : Lead rest, l.chars = before

lemma comesTo_of_blank {blanks rest : List Char} (h : ∀ c ∈ blanks, isBlank c = true) :
    ComesTo blanks rest := ⟨⟨[], blanks, h, trivial⟩, rfl⟩

lemma ComesTo.cons {p : Piece} {before rest : List Char} (h : ComesTo before rest)
    (hstop : Stops p.symbol p.raw (before ++ rest)) : ComesTo (p.chars ++ before) rest := by
  obtain ⟨l, rfl⟩ := h
  rw [Lead.chars, List.append_assoc] at hstop
  exact ⟨⟨p :: l.pieces, l.blanks, l.blank, hstop, l.separated⟩, List.append_assoc ..⟩

lemma readAll_of_isFaulty {text : String} {rest : List Char} {f : Fault} (l : Lead rest)
    (htext : text.toList = l.chars ++ rest) (h : IsFaulty f rest) :
    (Reader.ofText text).readAll = (l.tokens, some ⟨f, .behind l.chars⟩) := by
  have hnext : Reader.next ⟨rest, .behind l.chars⟩ = (.error ⟨f, .behind l.chars⟩, _) :=
    Prod.ext (Reader.next_of_isFaulty h) rfl
  rw [Reader.ofText, htext, Reader.readAll_of_lead, Reader.readAll_of_error hnext, List.append_nil]

/-- **A text cannot be read just if reading comes to a faulty lexeme.** -/
theorem tokenize_eq_error_iff {text : String} {e : LexError} :
    tokenize text = .error e ↔ ∃ before rest, text.toList = before ++ rest ∧
      ComesTo before rest ∧ IsFaulty e.fault rest ∧ e.place = .behind before := by
  constructor
  · intro h
    rcases hall : (Reader.ofText text).readAll with ⟨ts, _ | e'⟩
    · rw [tokenize_eq_ok_iff_readAll.2 hall] at h
      cases h
    · rw [tokenize_of_fault hall] at h
      cases h
      obtain ⟨ps, blanks, rest, hrest, hblank, hsep, hfaulty, he, -⟩ :=
        Reader.pieces_of_fault Place.behind_nil.symm hall
      refine ⟨Piece.charsOf ps ++ blanks, rest, ?_, ⟨⟨ps, blanks, hblank, hsep⟩, rfl⟩, hfaulty, he⟩
      rw [List.append_assoc]
      exact hrest
  · rintro ⟨before, rest, htext, ⟨l, rfl⟩, hfaulty, he⟩
    rw [tokenize_of_fault (readAll_of_isFaulty l htext hfaulty), ← he]

lemma not_isFaulty_of_ok {text : String} {ts : List Token} {before rest : List Char} {f : Fault}
    (h : tokenize text = .ok ts) (htext : text.toList = before ++ rest)
    (hcomes : ComesTo before rest) : ¬ IsFaulty f rest := by
  intro hfaulty
  have herror : tokenize text = .error ⟨f, .behind before⟩ :=
    tokenize_eq_error_iff.2 ⟨before, rest, htext, hcomes, hfaulty, rfl⟩
  rw [h] at herror
  cases herror

/-- **Faults are localised.** A text cannot be read just if reading comes to a number that a point
follows or to a string that is not closed. The error then names the place of that lexeme. The text
before it can be read, and its tokens are those that were read before the fault. -/
theorem faults_are_localised (text : String) :
    ((∃ e, tokenize text = .error e) ↔ ∃ before rest fault, text.toList = before ++ rest ∧
      ComesTo before rest ∧ IsFaulty fault rest) ∧
    ∀ before rest fault, text.toList = before ++ rest → ComesTo before rest →
      IsFaulty fault rest → ∃ e ts, tokenize text = .error e ∧ e.fault = fault ∧
        e.place.line = 1 + before.count '\n' ∧
        e.place.column = 1 + (Place.lastLine before).length ∧
        e.message = (match fault with
            | .malformedNumber => "Invalid number format"
            | .openString => "Unterminated string") ++
          " at line " ++ toString e.place.line ++ ", col " ++ toString e.place.column ∧
        (∀ i (hi : i < ts.length), (Cursor.ofText text 0 .start).nth i = .ok ts[i]) ∧
        (Cursor.ofText text 0 .start).nth ts.length = .error (.lexical e) ∧
        tokenize (String.ofList before) = .ok (ts ++ [.atEnd e.place.line e.place.column]) := by
  constructor
  · constructor
    · rintro ⟨e, he⟩
      obtain ⟨before, rest, htext, hcomes, hfaulty, -⟩ := tokenize_eq_error_iff.1 he
      exact ⟨before, rest, e.fault, htext, hcomes, hfaulty⟩
    · rintro ⟨before, rest, fault, htext, hcomes, hfaulty⟩
      exact ⟨⟨fault, .behind before⟩,
        tokenize_eq_error_iff.2 ⟨before, rest, htext, hcomes, hfaulty, rfl⟩⟩
  · rintro before rest fault htext ⟨l, rfl⟩ hfaulty
    have hall := readAll_of_isFaulty l htext hfaulty
    obtain ⟨hanswer, hfault, -⟩ := Reader.answer_of_fault hall
    refine ⟨⟨fault, .behind l.chars⟩, l.tokens, tokenize_of_fault hall, rfl, rfl, rfl, ?_,
      fun i hi => ?_, ?_, ?_⟩
    · cases fault <;> rfl
    · rw [Cursor.nth_ofText, TokenSource.ofText, hanswer i _ (List.getElem?_eq_getElem hi)]
      rfl
    · rw [Cursor.nth_ofText, TokenSource.ofText, hfault]
      rfl
    · -- the text before the fault is laid out as it was
      exact tokenize_eq_ok_iff.2 ⟨l.layout, rfl, l.tokens_layout⟩

def wordBeforePoint : Lead ['1', '.'] where
  pieces := brokenLine.pieces.take 1
  blanks := ['\n']
  blank := blank_line
  separated := ⟨by rintro c ⟨⟩; exact not_goesOn_of_blank rfl, trivial⟩

theorem faults_are_localised_wordBeforePoint :
    ∃ e ts, tokenize "x\n1." = .error e ∧
      e.message = "Invalid number format at line 2, col 1" ∧
      (Cursor.ofText "x\n1." 0 .start).nth ts.length = .error (.lexical e) ∧
      tokenize "x\n" = .ok (ts ++ [.atEnd 2 1]) := by
  have hfaulty : IsFaulty .malformedNumber ['1', '.'] :=
    @IsFaulty.whole '1' [] [] (List.forall_mem_singleton.2 (by decide)) nofun
  obtain ⟨e, ts, he, hfault, hline, hcolumn, hmessage, -, hanswer, hbefore⟩ :=
    (faults_are_localised "x\n1.").2 ['x', '\n'] ['1', '.'] .malformedNumber rfl
      ⟨wordBeforePoint, rfl⟩ hfaulty
  rw [hline, hcolumn] at hmessage hbefore
  exact ⟨e, ts, he, hmessage, hanswer, hbefore⟩

end StatementLang
