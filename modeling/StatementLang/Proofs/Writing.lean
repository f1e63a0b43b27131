import StatementLang.Proofs.OnDemand

/-!
Lexemes written out, with blanks between them.

A writing has a blank, or more, between any two lexemes, and perhaps blanks at its ends. Whatever
the blanks are, it is read back as the lexemes that were written (`tokenize_text`). So two writings
of the same lexemes are programs or not alike.
-/

namespace StatementLang

open TokenQueue Session

/-- Lexemes with blanks between them. -/
structure Writing where
  pieces : List Piece
  trailing : List Char
  apart : ∀ p ∈ pieces.tail, p.blanks ≠ []
  blank : ∀ c ∈ trailing, Lexeme.isBlank c = true

namespace Writing

def layout (w : Writing) : Layout :=
  ⟨w.pieces, w.trailing, w.blank, Piece.separated_of_blanks w.apart w.blank⟩

def text (w : Writing) : String := String.ofList (Piece.charsOf w.pieces ++ w.trailing)

def lexemes (w : Writing) : List (Symbol × List Char) := w.pieces.map fun p => (p.symbol, p.value)

theorem tokenize_text (w : Writing) : tokenize w.text = .ok w.layout.tokens :=
  tokenize_eq_ok_iff.2 ⟨w.layout, rfl, rfl⟩

lemma pairs_tokens (before trailing : List Char) (ps : List Piece) :
    (Piece.tokens before ps trailing).map (fun t => (t.kind, t.value)) =
      ps.map (fun p => (.known p.symbol, String.ofList p.value)) ++
        [(.known .endOfFile, Symbol.endOfFile.code)] := by
  induction ps generalizing before with
  | nil => rfl
  | cons p ps ih =>
    rw [Piece.tokens, List.map_cons, ih]
    rfl

lemma pairs_layout (w : Writing) : w.layout.tokens.map (fun t => (t.kind, t.value)) =
    w.lexemes.map (fun l => (.known l.1, String.ofList l.2)) ++
      [(.known .endOfFile, Symbol.endOfFile.code)] := by
  rw [lexemes, List.map_map]
  exact pairs_tokens [] w.trailing w.pieces

lemma kinds_eq {v w : Writing} (h : v.lexemes = w.lexemes) :
    v.layout.tokens.map Token.kind = w.layout.tokens.map Token.kind := by
  have hpairs : v.layout.tokens.map (fun t => (t.kind, t.value)) =
      w.layout.tokens.map (fun t => (t.kind, t.value)) := by
    rw [pairs_layout, pairs_layout, h]
  have hkinds := congrArg (List.map Prod.fst) hpairs
  rwa [List.map_map, List.map_map] at hkinds

end Writing

lemma accepted_of_kinds {ts us : List Token} (h : ts.map Token.kind = us.map Token.kind)
    (sink sink' : Sink) : Accepted sink ts ↔ Accepted sink' us := by
  have hkind (i : Nat) : (padded ts i).kind = (padded us i).kind := by
    rw [kind_padded, kind_padded, h]
  have hfirst (k : Nat) : (firstOf ts k).map Token.kind = (firstOf us k).map Token.kind := by
    simp only [firstOf, List.map_map]
    exact List.map_congr_left fun i _ => hkind i
  rw [Accepted, Accepted, parseProgram_ok_iff, parseProgram_ok_iff]
  refine exists_congr fun k => and_congr ?_ ?_
  · rw [SpellStatementPart, SpellStatementPart, hfirst]
  · rw [Token.IsEnd, Token.IsEnd, hkind]

/-! ### Verdicts -/

/-- The verdict on a program: accepted or rejected, unless a fault stands in the way. -/
def verdict : Except Failure Unit → Option Bool
  | .ok () => some true
  | .error (.grammar _) => some false
  | .error _ => none

lemma verdict_ofTokens {ts : List Token} {b : Bool} {sink : Sink}
    (h : Accepted sink ts ↔ b = true) :
    verdict (deriveFrom Grammar.language (.ofTokens ts) sink).1 = some b := by
  have hderive : (deriveFrom Grammar.language (.ofTokens ts) sink).1 =
      ((fresh ts sink).parseProgram Grammar.language).1 := rfl
  rw [hderive]
  cases b with
  | true =>
    have hok := h.2 rfl
    rw [Accepted] at hok
    rw [hok]
    rfl
  | false =>
    obtain ⟨e, he⟩ := parseProgram_error fun hok => Bool.false_ne_true (h.1 hok)
    rw [he]
    rfl

/-- **The layout does not matter.** However lexemes are laid out, with blanks between them, their
text has just their tokens and one for its end. There is one verdict on all the writings of the
same lexemes, whether they are read on demand or in advance. -/
theorem layout_is_immaterial (w : Writing) :
    (∃ ts, tokenize w.text = .ok ts ∧ ts.map (fun t => (t.kind, t.value)) =
      w.lexemes.map (fun l => (.known l.1, String.ofList l.2)) ++
        [(.known .endOfFile, Symbol.endOfFile.code)]) ∧
    ∃ b, ∀ (v : Writing) (sink : Sink), v.lexemes = w.lexemes →
      verdict (deriveFrom Grammar.language (.ofText v.text) sink).1 = some b ∧
      ∃ us, tokenize v.text = .ok us ∧
        verdict (deriveFrom Grammar.language (.ofTokens us) sink).1 = some b := by
  refine ⟨⟨_, w.tokenize_text, w.pairs_layout⟩, ?_⟩
  obtain ⟨b, hb⟩ : ∃ b, Accepted ⟨"", .silent⟩ w.layout.tokens ↔ b = true := by
    by_cases h : Accepted ⟨"", .silent⟩ w.layout.tokens
    · exact ⟨true, iff_of_true h rfl⟩
    · exact ⟨false, iff_of_false h Bool.false_ne_true⟩
  refine ⟨b, fun v sink hv => ?_⟩
  have hverdict : verdict (deriveFrom Grammar.language (.ofTokens v.layout.tokens) sink).1 =
      some b :=
    verdict_ofTokens ((accepted_of_kinds (Writing.kinds_eq hv) sink _).trans hb)
  refine ⟨?_, v.layout.tokens, v.tokenize_text, hverdict⟩
  have hread : (Reader.ofText v.text).readAll = (v.layout.tokens, none) :=
    tokenize_eq_ok_iff_readAll.1 v.tokenize_text
  rw [TokenSource.ofText, deriveFrom_of_readAll _ hread]
  exact hverdict

namespace Writing

/-- An assignment whose value stands on the next line. -/
def onTwoLines : Writing where
  pieces := brokenLine.pieces
  trailing := brokenLine.trailing
  apart := by decide
  blank := brokenLine.blank

lemma isSpelling_two : Lexeme.IsSpelling .number ['2'] ['2'] :=
  .whole (List.forall_mem_singleton.2 (by decide))

def spacedValue : Piece := ⟨[' '], .number, ['2'], ['2'], blank_space, isSpelling_two⟩

/-- The same on one line, whose end is written too. -/
def onOneLine : Writing where
  pieces := brokenLine.pieces.take 2 ++ [spacedValue]
  trailing := ['\n']
  apart := by decide
  blank := blank_line

end Writing

open Writing in
theorem layout_is_immaterial_onTwoLines :
    (onTwoLines.text = "x :=\n2" ∧ onOneLine.text = "x := 2\n" ∧
      onOneLine.lexemes = onTwoLines.lexemes) ∧
    (∃ ts, tokenize onTwoLines.text = .ok ts ∧ ts.map (fun t => (t.kind, t.value)) =
      [(.known .identifier, "x"), (.known .becomes, ":="), (.known .number, "2"),
       (.known .endOfFile, Symbol.endOfFile.code)]) ∧
    ∃ b, verdict (deriveFrom .language (.ofText onTwoLines.text) ⟨"", .silent⟩).1 = some b ∧
      verdict (deriveFrom .language (.ofText onOneLine.text) ⟨"", .silent⟩).1 = some b := by
  have hlexemes : onOneLine.lexemes = onTwoLines.lexemes := by decide
  obtain ⟨hread, b, hb⟩ := layout_is_immaterial onTwoLines
  exact ⟨⟨by decide, by decide, hlexemes⟩, hread, b, (hb _ _ rfl).1, (hb _ _ hlexemes).1⟩

end StatementLang
