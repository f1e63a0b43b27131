import StatementLang.Proofs.LineEnds
import StatementLang.Proofs.Tandem

/-!
Readers side by side: one reads a text, the other the same text with its line ends unified.

They stand at the same point of the text, and where the strings are kept they go on to the next
point together (`Twin.next`): both come to the end, or to tokens of one kind, or to one fault.
-/

namespace StatementLang

open Lexeme Text

/-- The two places are the same point of a text, the second one when its line ends are unified. -/
def SamePoint (text : List Char) (p q : Place) : Prop :=
  ∃ before rest, text = before ++ rest ∧ Cut before rest ∧ p = .behind before ∧
    q = .behind (unifyNewlines before)

lemma SamePoint.eq_of_paired {text : List Char} {p q : Place} (h : SamePoint text p q)
    (hpaired : ReturnsPaired text) : q = p := by
  obtain ⟨before, rest, rfl, hcut, rfl, rfl⟩ := h
  rw [← Place.advance_start, Place.advance_unifyNewlines (hpaired.left hcut), Place.advance_start]

/-- Tokens of one kind at the same point of a text, with the same value but for its line ends. -/
structure SameToken (text : List Char) (t u : Token) : Prop where
  kind_eq : u.kind = t.kind
  value_eq : u.value = String.ofList (unifyNewlines t.value.toList)
  not_mem_return : ReturnsPaired text → '\r' ∉ t.value.toList
  point : SamePoint text ⟨t.line, t.column⟩ ⟨u.line, u.column⟩

/-- One fault at the same point of a text. -/
structure SameFault (text : List Char) (e e' : LexError) : Prop where
  fault_eq : e'.fault = e.fault
  point : SamePoint text e.place e'.place

namespace Reader

/-- A reader of a text, and one at the same point of the text with unified line ends. -/
structure Twin (text : List Char) (r r' : Reader) : Prop where
  exists_before : ∃ before, text = before ++ r.rest ∧ Cut before r.rest ∧
    r.place = .behind before ∧ r'.place = .behind (unifyNewlines before)
  rest_eq : r'.rest = unifyNewlines r.rest
  kept : StringsKept r.rest

namespace Twin

variable {text : List Char} {r r' r₁ : Reader} {t : Token} {e : LexError}

lemma eq_right (h : Twin text r r') {before : List Char}
    (hplace' : r'.place = .behind (unifyNewlines before)) :
    r' = ⟨unifyNewlines r.rest, .behind (unifyNewlines before)⟩ := by
  rw [← h.rest_eq, ← hplace']

lemma next_of_error (h : Twin text r r') (hnext : r.next = (.error e, r₁)) :
    ∃ e', r'.next.1 = .error e' ∧ SameFault text e e' := by
  obtain ⟨before, htext, hcut, hplace, hplace'⟩ := h.exists_before
  obtain ⟨blanks, rest, hrest, hblank, hfaulty, he⟩ := isFaulty_of_next hplace hnext
  have hr' := h.eq_right hplace'
  have hkept := h.kept
  rw [hrest] at hr' hkept hcut htext
  have hrestcut (as : List Char) : Cut as rest := by
    obtain ⟨c, cs, rfl, hc, -⟩ := scan_of_isFaulty hfaulty
    exact cut_of_head (by rintro _ ⟨⟩ rfl; cases hc) as
  have hfaulty' := hfaulty.unified fun quote after hq hafter =>
    ((hafter ▸ hkept).here hblank hq).2
  rw [unifyNewlines_append (hrestcut blanks)] at hr'
  refine ⟨⟨e.fault, .behind (unifyNewlines (before ++ blanks))⟩, ?_, rfl, before ++ blanks, rest,
    by rw [htext, List.append_assoc], hrestcut _, he, rfl⟩
  rw [hr', next_append (blank_unified hblank), next_of_isFaulty hfaulty',
    unifyNewlines_append hcut.left]

lemma next_of_blanks (h : Twin text r r') (hblank : ∀ c ∈ r.rest, isBlank c = true) :
    ∃ t u, r.next.1 = .ok t ∧ r'.next.1 = .ok u ∧ SameToken text t u ∧
      Twin text r.next.2 r'.next.2 := by
  obtain ⟨before, htext, hcut, hplace, hplace'⟩ := h.exists_before
  have hr : r = ⟨r.rest, .behind before⟩ := by rw [← hplace]
  have htext' : text = before ++ r.rest ++ [] := by rw [htext, List.append_nil]
  have hkept : StringsKept [] := fun before quote after hnil => by simp at hnil
  have hvalue : Symbol.endOfFile.code =
      String.ofList (unifyNewlines Symbol.endOfFile.code.toList) := by decide
  have hreturn : '\r' ∉ Symbol.endOfFile.code.toList := by decide
  rw [hr, h.eq_right hplace', next_of_blank hblank, next_of_blank (blank_unified hblank),
    ← unifyNewlines_append hcut]
  exact ⟨_, _, rfl, rfl, ⟨rfl, hvalue, fun _ => hreturn, _, [], htext', cut_nil _, rfl, rfl⟩,
    ⟨⟨_, htext', cut_nil _, rfl, rfl⟩, unifyNewlines_nil.symm, hkept⟩⟩

lemma next_of_piece (h : Twin text r r') {p : Piece} {before : List Char}
    (htext : text = before ++ r.rest) (hcut : Cut before r.rest)
    (hplace' : r'.place = .behind (unifyNewlines before)) (hrest : r.rest = p.chars ++ r₁.rest)
    (hplace₁ : r₁.place = .behind (before ++ p.chars)) (hstop : Stops p.symbol p.raw r₁.rest) :
    ∃ u, r'.next.1 = .ok u ∧ SameToken text (p.token before) u ∧ Twin text r₁ r'.next.2 := by
  have hr' := h.eq_right hplace'
  have hkept := h.kept
  rw [hrest] at hr' hkept hcut htext
  -- What becomes of the piece is a piece again, which the other reader finds as a whole.
  obtain ⟨q, hsymbol, hblanks, hvalue, hchars, hstop'⟩ :=
    p.exists_unified hstop fun _ _ => hkept.inPiece
  have hcut₁ : Cut p.chars r₁.rest := p.cut_chars [] _
  have hbefore : Cut before p.blanks := hcut.left.left
  rw [unifyNewlines_append hcut₁, ← hchars] at hr'
  rw [hr', Reader.next_of_piece q hstop']
  have hreturn : ReturnsPaired text → '\r' ∉ p.value := by
    rw [htext, Piece.chars, List.append_assoc]
    exact fun hpaired => p.spelling.not_mem_return_value hpaired.right.right
  refine ⟨_, rfl, ⟨?_, ?_, ?_, before ++ p.blanks, p.raw ++ r₁.rest, ?_, p.cut_blanks _ _, rfl, ?_⟩,
    ⟨⟨before ++ p.chars, ?_, p.cut_chars _ _, hplace₁, ?_⟩, rfl, hkept.behind hstop⟩⟩
  · exact congrArg Kind.known hsymbol
  · simp [Piece.token, hvalue]
  · simpa [Piece.token] using hreturn
  · simp [htext, Piece.chars]
  · rw [unifyNewlines_append hbefore, ← hblanks]
    rfl
  · simp [htext]
  · rw [unifyNewlines_append hcut.left, ← hchars]

/-- **Twins answer alike**, and stay twins up to a fault. -/
theorem next (h : Twin text r r') :
    (∃ t u, r.next.1 = .ok t ∧ r'.next.1 = .ok u ∧ SameToken text t u ∧
      Twin text r.next.2 r'.next.2) ∨
    ∃ e e', r.next.1 = .error e ∧ r'.next.1 = .error e' ∧ SameFault text e e' := by
  obtain ⟨before, htext, hcut, hplace, hplace'⟩ := h.exists_before
  rcases hnext : r.next with ⟨e | t, r₁⟩
  · right
    obtain ⟨e', he', hsame⟩ := h.next_of_error hnext
    exact ⟨e, e', rfl, he', hsame⟩
  · left
    obtain ⟨-, -, hblank⟩ | ⟨p, -, rfl, hrest, hplace₁, hstop⟩ := next_cases hplace hnext
    · rw [← hnext]
      exact h.next_of_blanks hblank
    · obtain ⟨u, hu, hsame, htwin⟩ :=
        h.next_of_piece htext hcut hplace' hrest hplace₁ hstop
      exact ⟨_, u, rfl, hu, hsame, htwin⟩

theorem inTandem (h : Twin text r r') : InTandem (SameToken text) (SameFault text)
    (TokenSource.reader r).answer (TokenSource.reader r').answer := by
  intro i hi
  induction i generalizing r r' with
  | zero =>
    rcases h.next with ⟨t, u, ht, hu, hsame, -⟩ | hfault
    · exact .inl ⟨t, u, ht, hu, hsame⟩
    · exact .inr hfault
  | succ i ih =>
    rcases h.next with ⟨t, u, -, -, -, htwin⟩ | ⟨e, e', he, -⟩
    · exact ih htwin fun j hj => hi (j + 1) (Nat.succ_lt_succ hj)
    · obtain ⟨t, ht⟩ := hi 0 (Nat.succ_pos i)
      have hanswer : r.next.1 = .ok t := ht
      rw [he] at hanswer
      cases hanswer

end Twin

end Reader

end StatementLang
