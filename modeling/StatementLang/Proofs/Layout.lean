import StatementLang.Proofs.Places
import StatementLang.Proofs.Scanning
import StatementLang.Reader

/-!
Texts as lexemes and the blanks between them.

A layout cuts a text into pieces, each a lexeme with the blanks before it. It says by itself which
tokens it has and where they stand, by the characters before them and without any reading. The
tokens of a text are those of its layout (`tokenize_eq_ok_iff`): no character is lost, used twice
or misplaced, and every lexeme is as long as it can be.
-/

namespace StatementLang

open Lexeme

/-- A lexeme, the blanks before it, and what it stands for. -/
structure Piece where
  blanks : List Char
  symbol : Symbol
  value : List Char
  raw : List Char
  blank : ∀ c ∈ blanks, isBlank c = true
  spelling : IsSpelling symbol value raw

namespace Piece

def chars (p : Piece) : List Char := p.blanks ++ p.raw

def charsOf (ps : List Piece) : List Char := ps.flatMap chars

@[simp] lemma charsOf_nil : charsOf [] = [] := rfl
@[simp] lemma charsOf_cons (p : Piece) (ps : List Piece) :
    charsOf (p :: ps) = p.chars ++ charsOf ps := rfl

/-- The token of a piece, when `before` stands before the piece. -/
def token (before : List Char) (p : Piece) : Token :=
  let place := Place.behind (before ++ p.blanks)
  ⟨.known p.symbol, String.ofList p.value, place.line, place.column⟩

def closing (text : List Char) : Token :=
  .atEnd (Place.behind text).line (Place.behind text).column

/-- The tokens of pieces in a row and of the end of the text, which `trailing` is left of. -/
def tokens (before : List Char) : List Piece → List Char → List Token
  | [], trailing => [closing (before ++ trailing)]
  | p :: ps, trailing => p.token before :: tokens (before ++ p.chars) ps trailing

/-- The tokens of pieces in a row, without the one for the end of the text. -/
def tokensOf (before : List Char) : List Piece → List Token
  | [] => []
  | p :: ps => p.token before :: tokensOf (before ++ p.chars) ps

lemma tokens_eq (before trailing : List Char) (ps : List Piece) :
    tokens before ps trailing =
      tokensOf before ps ++ [closing (before ++ (charsOf ps ++ trailing))] := by
  induction ps generalizing before with
  | nil => simp [tokens, tokensOf]
  | cons p ps ih => simp [tokens, tokensOf, ih]

/-- Every lexeme ends where the characters behind it begin. -/
def Separated : List Piece → List Char → Prop
  | [], _ => True
  | p :: ps, trailing =>
    Stops p.symbol p.raw (charsOf ps ++ trailing) ∧ Separated ps trailing

lemma length_tokens (before trailing : List Char) (ps : List Piece) :
    (tokens before ps trailing).length = ps.length + 1 := by
  induction ps generalizing before with
  | nil => rfl
  | cons p ps ih => simp [tokens, ih]

lemma tokens_append (before trailing : List Char) (ps qs : List Piece) :
    ∃ ts, ts.length = ps.length ∧ (∀ t ∈ ts, ∃ p ∈ ps, t.kind = .known p.symbol) ∧
      tokens before (ps ++ qs) trailing = ts ++ tokens (before ++ charsOf ps) qs trailing := by
  induction ps generalizing before with
  | nil => exact ⟨[], rfl, by simp, by simp⟩
  | cons p ps ih =>
    obtain ⟨ts, hlen, hkind, heq⟩ := ih (before ++ p.chars)
    refine ⟨p.token before :: ts, by simp [hlen], ?_, by simp [tokens, heq]⟩
    rintro t (_ | ⟨_, ht⟩)
    · exact ⟨p, List.mem_cons_self, rfl⟩
    · obtain ⟨q, hq, hk⟩ := hkind t ht
      exact ⟨q, List.mem_cons_of_mem _ hq, hk⟩

lemma separated_of_blanks {ps : List Piece} {trailing : List Char}
    (hps : ∀ p ∈ ps.tail, p.blanks ≠ []) (htrailing : ∀ c ∈ trailing, isBlank c = true) :
    Separated ps trailing := by
  induction ps with
  | nil => trivial
  | cons p ps ih =>
    refine ⟨fun c hc => not_goesOn_of_blank ?_, ih fun q hq => hps q (List.mem_of_mem_tail hq)⟩
    rcases ps with _ | ⟨q, ps⟩
    · exact htrailing c (List.mem_of_mem_head? hc)
    · have hne : q.blanks ≠ [] := hps q List.mem_cons_self
      obtain ⟨b, bs, hbs⟩ := List.exists_cons_of_ne_nil hne
      have hcb : c = b := by
        simpa [chars, hbs, eq_comm] using hc
      exact q.blank c (by simp [hbs, hcb])

lemma Separated.stops {before after : List Piece} {p : Piece} {trailing : List Char}
    (h : Separated (before ++ p :: after) trailing) :
    Stops p.symbol p.raw (charsOf after ++ trailing) := by
  induction before with
  | nil => exact h.1
  | cons q before ih => exact ih h.2

lemma Separated.of_head {ps : List Piece} {as bs : List Char} (h : Separated ps as)
    (hhead : ∀ c ∈ bs.head?, c ∈ as.head? ∨ isBlank c = true) : Separated ps bs := by
  induction ps with
  | nil => trivial
  | cons p ps ih =>
    refine ⟨fun c hc => ?_, ih h.2⟩
    rcases hps : charsOf ps with _ | ⟨d, ds⟩
    · rw [hps, List.nil_append] at hc
      have hstops := h.1 c
      rw [hps, List.nil_append] at hstops
      exact (hhead c hc).elim hstops not_goesOn_of_blank
    · have hstops := h.1 c
      rw [hps] at hc hstops
      exact hstops hc

end Piece

/-- A text cut into lexemes and blanks. -/
structure Layout where
  pieces : List Piece
  trailing : List Char
  blank : ∀ c ∈ trailing, isBlank c = true
  separated : Piece.Separated pieces trailing

namespace Layout

def chars (l : Layout) : List Char := Piece.charsOf l.pieces ++ l.trailing
def text (l : Layout) : String := String.ofList l.chars
def tokens (l : Layout) : List Token := Piece.tokens [] l.pieces l.trailing

end Layout

/-- The first part of a text, cut into lexemes and blanks, when `rest` is left of the text. -/
structure Lead (rest : List Char) where
  pieces : List Piece
  blanks : List Char
  blank : ∀ c ∈ blanks, isBlank c = true
  separated : Piece.Separated pieces (blanks ++ rest)

namespace Lead

variable {rest : List Char}

def chars (l : Lead rest) : List Char := Piece.charsOf l.pieces ++ l.blanks
def tokens (l : Lead rest) : List Token := Piece.tokensOf [] l.pieces

def layout (l : Lead rest) : Layout where
  pieces := l.pieces
  trailing := l.blanks
  blank := l.blank
  separated := l.separated.of_head fun c hc => .inl (by
    rcases hb : l.blanks with _ | ⟨b, bs⟩
    · rw [hb] at hc
      cases hc
    · rwa [hb] at hc)

lemma tokens_layout (l : Lead rest) : l.layout.tokens = l.tokens ++ [Piece.closing l.chars] :=
  Piece.tokens_eq [] l.blanks l.pieces

end Lead

/-! ### Reading one piece -/

namespace Reader

lemma next_of_nil {r r' : Reader} (h : r.skipBlanks = r') (hr : r'.rest = []) :
    r.next = (.ok (.atEnd r'.place.line r'.place.column), r') := by
  subst h
  unfold next
  dsimp only
  split
  · rfl
  · next hc => rw [hr] at hc; cases hc

lemma next_of_cons {r r' : Reader} {c : Char} {cs : List Char} (h : r.skipBlanks = r')
    (hr : r'.rest = c :: cs) :
    r.next = (reading r'.place (scan c cs),
      ⟨(scan c cs).rest, r'.place.advance (scan c cs).raw⟩) := by
  subst h
  unfold next
  dsimp only
  split
  · next hc => rw [hr] at hc; cases hc
  · next hc =>
    rw [hr] at hc
    cases hc
    rfl

variable {before rest : List Char}

lemma skipBlanks_append {blanks : List Char} (h : ∀ c ∈ blanks, isBlank c = true) :
    skipBlanks ⟨blanks ++ rest, .behind before⟩ =
      skipBlanks ⟨rest, .behind (before ++ blanks)⟩ := by
  rw [skipBlanks, skipBlanks, List.takeWhile_append_of_pos h, List.dropWhile_append_of_pos h,
    Place.advance_append, Place.advance_behind]

lemma next_append {blanks : List Char} (h : ∀ c ∈ blanks, isBlank c = true) :
    next ⟨blanks ++ rest, .behind before⟩ = next ⟨rest, .behind (before ++ blanks)⟩ := by
  rw [next, next, skipBlanks_append h]

lemma skipBlanks_of_stop {r : Reader} (h : ∀ c ∈ r.rest.head?, isBlank c = false) :
    r.skipBlanks = r := by
  obtain ⟨_ | ⟨c, cs⟩, place⟩ := r
  · rfl
  · have hc : isBlank c = false := h c rfl
    simp [skipBlanks, hc]

lemma next_of_piece (p : Piece) (hstop : Stops p.symbol p.raw rest) :
    next ⟨p.chars ++ rest, .behind before⟩ =
      (.ok (p.token before), ⟨rest, .behind (before ++ p.chars)⟩) := by
  obtain ⟨c, cs, hcs, hc, hscan⟩ := scan_of_isSpelling p.spelling hstop
  have hskip : skipBlanks ⟨c :: cs, .behind (before ++ p.blanks)⟩ =
      ⟨c :: cs, .behind (before ++ p.blanks)⟩ :=
    skipBlanks_of_stop (by rintro d ⟨⟩; exact hc)
  rw [Piece.chars, List.append_assoc, hcs, next_append p.blank, next_of_cons hskip rfl, hscan,
    Place.advance_behind, List.append_assoc]
  rfl

lemma next_of_blank {trailing : List Char} (h : ∀ c ∈ trailing, isBlank c = true) :
    next ⟨trailing, .behind before⟩ =
      (.ok (Piece.closing (before ++ trailing)), ⟨[], .behind (before ++ trailing)⟩) := by
  have hnil : trailing = trailing ++ [] := (List.append_nil _).symm
  rw [hnil, next_append h, List.append_nil, next_of_nil rfl rfl]
  rfl

lemma spelled_of_next {r r' : Reader} {t : Token} (h : r.next = (.ok t, r')) :
    (r.skipBlanks.rest = [] ∧ t = .atEnd r.skipBlanks.place.line r.skipBlanks.place.column) ∨
    ∃ s value raw, IsSpelling s value raw ∧ Stops s raw r'.rest ∧
      r.skipBlanks.rest = raw ++ r'.rest ∧ r'.place = r.skipBlanks.place.advance raw ∧
      t = ⟨.known s, String.ofList value, r.skipBlanks.place.line, r.skipBlanks.place.column⟩ := by
  rcases hrest : r.skipBlanks.rest with _ | ⟨c, cs⟩
  · rw [next_of_nil rfl hrest] at h
    cases h
    exact .inl ⟨rfl, rfl⟩
  · have hc : isBlank c = false :=
      stop_dropWhile isBlank r.rest c (List.head?_eq_some_iff.2 ⟨cs, hrest⟩)
    have hraw := raw_append_rest_scan c cs
    rw [next_of_cons rfl hrest, reading] at h
    rcases hscan : scan c cs with ⟨raw, rest, fault | ⟨s, value⟩⟩ <;> rw [hscan] at h hraw <;>
      cases h
    obtain ⟨hspelling, hstops⟩ := isSpelling_of_scan hc hscan
    exact .inr ⟨s, value, raw, hspelling, hstops, hraw.symm, rfl, rfl⟩

lemma next_cases {r r' : Reader} {t : Token} (hplace : r.place = .behind before)
    (h : r.next = (.ok t, r')) :
    (t.IsEnd ∧ t = Piece.closing (before ++ r.rest) ∧ ∀ c ∈ r.rest, isBlank c = true) ∨
    ∃ p : Piece, ¬ t.IsEnd ∧ t = p.token before ∧ r.rest = p.chars ++ r'.rest ∧
      r'.place = .behind (before ++ p.chars) ∧ Stops p.symbol p.raw r'.rest := by
  rcases spelled_of_next h with ⟨hrest, -⟩ | ⟨s, value, raw, hspelling, hstops, hrest, hplace', rfl⟩
  · have hblank : ∀ c ∈ r.rest, isBlank c = true := List.dropWhile_eq_nil_iff.1 hrest
    have hr : r = ⟨r.rest, .behind before⟩ := by rw [← hplace]
    rw [hr] at h
    rw [next_of_blank hblank] at h
    cases h
    exact .inl ⟨rfl, rfl, hblank⟩
  · let p : Piece :=
      ⟨r.rest.takeWhile isBlank, s, value, raw, fun _ => List.mem_takeWhile_imp, hspelling⟩
    have hsplit : r.rest = p.chars ++ r'.rest := by
      rw [Piece.chars, List.append_assoc, ← hrest]
      exact List.takeWhile_append_dropWhile.symm
    have hstart : r.skipBlanks.place = .behind (before ++ p.blanks) := by
      rw [skipBlanks, hplace, Place.advance_behind]
    have hend : ¬ (p.token before).IsEnd := fun hend =>
      hspelling.ne_endOfFile (Kind.known.inj hend)
    refine .inr ⟨p, hend, ?_, hsplit, ?_, hstops⟩
    · rw [hstart]
      rfl
    · rw [hplace', hstart, Place.advance_behind, List.append_assoc]
      rfl

lemma readAll_of_end {r r' : Reader} {t : Token} (h : r.next = (.ok t, r')) (ht : t.IsEnd) :
    r.readAll = ([t], none) := by
  rw [readAll]
  split
  · next h' => rw [h] at h'; cases h'
  · next h' =>
    rw [h] at h'
    cases h'
    rw [dif_pos ht]

lemma readAll_of_token {r r' : Reader} {t : Token} (h : r.next = (.ok t, r')) (ht : ¬ t.IsEnd) :
    r.readAll = (t :: r'.readAll.1, r'.readAll.2) := by
  rw [readAll]
  split
  · next h' => rw [h] at h'; cases h'
  · next h' =>
    rw [h] at h'
    cases h'
    rw [dif_neg ht]

lemma readAll_of_error {r r' : Reader} {e : LexError} (h : r.next = (.error e, r')) :
    r.readAll = ([], some e) := by
  rw [readAll]
  split
  · next h' =>
    rw [h] at h'
    cases h'
    rfl
  · next h' => rw [h] at h'; cases h'

lemma readAll_congr {r r' : Reader} (h : r.next = r'.next) : r.readAll = r'.readAll := by
  rcases hnext : r'.next with ⟨e | t, r''⟩
  · rw [readAll_of_error hnext, readAll_of_error (h.trans hnext)]
  · by_cases ht : t.IsEnd
    · rw [readAll_of_end hnext ht, readAll_of_end (h.trans hnext) ht]
    · rw [readAll_of_token hnext ht, readAll_of_token (h.trans hnext) ht]

lemma readAll_of_separated {ps : List Piece} (hsep : Piece.Separated ps rest) :
    readAll ⟨Piece.charsOf ps ++ rest, .behind before⟩ =
      (Piece.tokensOf before ps ++ (readAll ⟨rest, .behind (before ++ Piece.charsOf ps)⟩).1,
        (readAll ⟨rest, .behind (before ++ Piece.charsOf ps)⟩).2) := by
  induction ps generalizing before with
  | nil => simp [Piece.tokensOf]
  | cons p ps ih =>
    have hend : ¬ (p.token before).IsEnd := fun h =>
      p.spelling.ne_endOfFile (Kind.known.inj h)
    rw [Piece.charsOf_cons, List.append_assoc, readAll_of_token (next_of_piece p hsep.1) hend,
      ih hsep.2, Piece.tokensOf]
    simp

lemma readAll_of_lead (l : Lead rest) :
    readAll ⟨l.chars ++ rest, .start⟩ =
      (l.tokens ++ (readAll ⟨rest, .behind l.chars⟩).1, (readAll ⟨rest, .behind l.chars⟩).2) := by
  have hblanks : readAll ⟨l.blanks ++ rest, .behind (Piece.charsOf l.pieces)⟩ =
      readAll ⟨rest, .behind l.chars⟩ := readAll_congr (next_append l.blank)
  rw [← Place.behind_nil, Lead.chars, List.append_assoc, readAll_of_separated l.separated,
    List.nil_append, hblanks]
  rfl

lemma readAll_of_pieces {ps : List Piece} {trailing : List Char}
    (hsep : Piece.Separated ps trailing) (hblank : ∀ c ∈ trailing, isBlank c = true) :
    readAll ⟨Piece.charsOf ps ++ trailing, .behind before⟩ =
      (Piece.tokens before ps trailing, none) := by
  rw [readAll_of_separated hsep, readAll_of_end (next_of_blank hblank) rfl, Piece.tokens_eq,
    List.append_assoc]

lemma pieces_of_readAll {r : Reader} {ts : List Token} (hplace : r.place = .behind before)
    (h : r.readAll = (ts, none)) :
    ∃ ps trailing, r.rest = Piece.charsOf ps ++ trailing ∧ (∀ c ∈ trailing, isBlank c = true) ∧
      Piece.Separated ps trailing ∧ ts = Piece.tokens before ps trailing := by
  fun_induction readAll r generalizing before ts with
  | case1 r e r' hnext => cases h
  | case2 r t r' hnext ht =>
    cases h
    obtain ⟨-, heq, hblank⟩ | ⟨p, hp, -⟩ := next_cases hplace hnext
    · exact ⟨[], r.rest, rfl, hblank, trivial, by rw [heq, Piece.tokens]⟩
    · exact absurd ht hp
  | case3 r t r' hnext ht hlt us fault hall ih =>
    cases h
    obtain ⟨hend, -⟩ | ⟨p, -, heq, hrest, hplace', hstop⟩ := next_cases hplace hnext
    · exact absurd hend ht
    · obtain ⟨ps, trailing, hps, hblank, hsep, hts⟩ := ih hplace' hall
      refine ⟨p :: ps, trailing, by simp [hrest, hps], hblank, ⟨hps ▸ hstop, hsep⟩, ?_⟩
      rw [heq, hts, Piece.tokens]

end Reader

lemma tokenize_eq_ok_iff_readAll {text : String} {ts : List Token} :
    tokenize text = .ok ts ↔ (Reader.ofText text).readAll = (ts, none) := by
  unfold tokenize
  rcases (Reader.ofText text).readAll with ⟨us, _ | e⟩ <;> simp

lemma tokenize_of_fault {text : String} {ts : List Token} {e : LexError}
    (h : (Reader.ofText text).readAll = (ts, some e)) : tokenize text = .error e := by
  rw [tokenize, h]

/-- **The tokens of a text are those of its layout.** -/
theorem tokenize_eq_ok_iff {text : String} {ts : List Token} :
    tokenize text = .ok ts ↔ ∃ l : Layout, l.text = text ∧ l.tokens = ts := by
  rw [tokenize_eq_ok_iff_readAll]
  constructor
  · intro h
    obtain ⟨ps, trailing, hps, hblank, hsep, hts⟩ :=
      Reader.pieces_of_readAll Place.behind_nil.symm h
    refine ⟨⟨ps, trailing, hblank, hsep⟩, ?_, hts.symm⟩
    rw [Layout.text, Layout.chars, ← hps, Reader.ofText, String.ofList_toList]
  · rintro ⟨l, rfl, rfl⟩
    rw [Reader.ofText, Layout.text, String.toList_ofList, ← Place.behind_nil]
    exact Reader.readAll_of_pieces l.separated l.blank

def brokenLine : Layout where
  pieces :=
    [⟨[], .identifier, ['x'], ['x'], by simp, .identifier (by decide) (by simp) fun _ h =>
      absurd (mem_spellings h) (by decide)⟩,
     ⟨[' '], .becomes, [':', '='], [':', '='], List.forall_mem_singleton.2 rfl,
      .operator (by decide)⟩,
     ⟨['\n'], .number, ['2'], ['2'], List.forall_mem_singleton.2 rfl,
      .whole (List.forall_mem_singleton.2 (by decide))⟩]
  trailing := []
  blank := nofun
  separated := Piece.separated_of_blanks (by simp) nofun

lemma blank_space : ∀ c ∈ [' '], isBlank c = true := List.forall_mem_singleton.2 rfl

lemma blank_line : ∀ c ∈ ['\n'], isBlank c = true := List.forall_mem_singleton.2 rfl

lemma tokenize_brokenLine : tokenize "x :=\n2" = .ok
    [⟨.known .identifier, "x", 1, 1⟩, ⟨.known .becomes, ":=", 1, 3⟩,
     ⟨.known .number, "2", 2, 1⟩, .atEnd 2 2] :=
  tokenize_eq_ok_iff.2 ⟨brokenLine, by decide, by decide⟩

/-! ### What a text is made of -/

/-- **Tokens are maximal lexemes.** A text that has tokens is nothing but lexemes and blanks, a
token for each lexeme and one for the end of the text. A token stands where its lexeme begins, and
no lexeme could take one more character. -/
theorem tokens_are_maximal_lexemes {text : String} {ts : List Token}
    (h : tokenize text = .ok ts) :
    ∃ l : Layout, text = String.ofList (Piece.charsOf l.pieces ++ l.trailing) ∧
      ts.length = l.pieces.length + 1 ∧
      (∀ before p after, l.pieces = before ++ p :: after →
        p.raw ≠ [] ∧ Stops p.symbol p.raw (Piece.charsOf after ++ l.trailing) ∧
        ts[before.length]? = some (p.token (Piece.charsOf before))) ∧
      ts.getLast? = some (Piece.closing text.toList) ∧ ∀ t ∈ ts.dropLast, ¬ t.IsEnd := by
  obtain ⟨l, rfl, rfl⟩ := tokenize_eq_ok_iff.1 h
  refine ⟨l, rfl, Piece.length_tokens _ _ _, fun before p after hl => ?_, ?_⟩
  · obtain ⟨c, cs, hraw, -⟩ := p.spelling.exists_cons
    have hsep := l.separated
    rw [hl] at hsep
    obtain ⟨ts, hlen, -, htokens⟩ := Piece.tokens_append [] l.trailing before (p :: after)
    refine ⟨by simp [hraw], hsep.stops, ?_⟩
    rw [Layout.tokens, hl, htokens, List.getElem?_append_right (by omega), ← hlen, Nat.sub_self]
    rfl
  · obtain ⟨ts, -, hkind, htokens⟩ := Piece.tokens_append [] l.trailing l.pieces []
    rw [List.append_nil] at htokens
    have htokens : l.tokens = ts ++ [Piece.closing l.chars] := htokens
    have hclosing : Piece.closing l.text.toList = Piece.closing l.chars := by
      rw [Layout.text, String.toList_ofList]
    rw [htokens, List.dropLast_concat, List.getLast?_concat, hclosing]
    refine ⟨rfl, fun t ht hend => ?_⟩
    obtain ⟨p, -, hp⟩ := hkind t ht
    rw [Token.IsEnd, hp] at hend
    exact p.spelling.ne_endOfFile (Kind.known.inj hend)

theorem tokens_are_maximal_lexemes_brokenLine :
    ∃ ts, tokenize "x :=\n2" = .ok ts ∧
      ∃ l : Layout, "x :=\n2" = String.ofList (Piece.charsOf l.pieces ++ l.trailing) ∧
        ts.length = l.pieces.length + 1 ∧
        (∀ before p after, l.pieces = before ++ p :: after →
          p.raw ≠ [] ∧ Stops p.symbol p.raw (Piece.charsOf after ++ l.trailing) ∧
          ts[before.length]? = some (p.token (Piece.charsOf before))) ∧
        ts.getLast? = some (Piece.closing "x :=\n2".toList) ∧ ∀ t ∈ ts.dropLast, ¬ t.IsEnd :=
  ⟨_, tokenize_brokenLine, tokens_are_maximal_lexemes tokenize_brokenLine⟩

end StatementLang
