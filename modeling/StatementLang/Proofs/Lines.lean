import StatementLang.Proofs.Layout

/-!
Texts put below each other.

A reader counts lines, but what it finds does not depend on the count: further down it reads the
same (`Reader.readAll_down`). A line feed ends whatever lexeme stands before it, so a text that can
be read is read to its end whatever stands on the lines below, and those lines are read as if they
were a text by themselves (`lines_are_read_apart`).
-/

namespace StatementLang

open Lexeme

def Place.down (k : Int) (p : Place) : Place := { p with line := p.line + k }

def Token.down (k : Int) (t : Token) : Token := { t with line := t.line + k }

def LexError.down (k : Int) (e : LexError) : LexError := { e with place := e.place.down k }

namespace Place

lemma after_down (k : Int) (p : Place) (c : Char) : (p.down k).after c = (p.after c).down k := by
  by_cases hc : c = '\n'
  · simp [after, down, hc]
    omega
  · simp [after, down, hc]

lemma advance_down (k : Int) (p : Place) (cs : List Char) :
    (p.down k).advance cs = (p.advance cs).down k := by
  induction cs generalizing p with
  | nil => rfl
  | cons c cs ih => rw [advance_cons, after_down, ih, advance_cons]

lemma behind_line (cs : List Char) : behind (cs ++ ['\n']) = start.down (1 + cs.count '\n') := by
  rw [behind_snoc]
  simp only [after, if_true, down, behind, start, mk.injEq, and_true]
  omega

end Place

namespace Reader

def down (k : Int) (r : Reader) : Reader := { r with place := r.place.down k }

/-- An answer as it would be further down. -/
def answerDown (k : Int) : Except LexError Token → Except LexError Token
  | .ok t => .ok (t.down k)
  | .error e => .error (e.down k)

variable (k : Int) (r : Reader)

lemma skipBlanks_down : (r.down k).skipBlanks = r.skipBlanks.down k := by
  simp only [skipBlanks, down, Place.advance_down]

lemma reading_down (p : Place) (l : Lexeme) :
    reading (p.down k) l = answerDown k (reading p l) := by
  obtain ⟨raw, rest, f | ⟨s, value⟩⟩ := l <;> rfl

lemma next_down : (r.down k).next = (answerDown k r.next.1, r.next.2.down k) := by
  have hskip := skipBlanks_down k r
  rcases hrest : r.skipBlanks.rest with _ | ⟨c, cs⟩
  · rw [next_of_nil hskip hrest, next_of_nil rfl hrest]
    rfl
  · have hplace : (r.skipBlanks.down k).place = r.skipBlanks.place.down k := rfl
    rw [next_of_cons hskip hrest, next_of_cons rfl hrest, hplace, reading_down, Place.advance_down]
    rfl

/-- **A reader further down** answers with the same tokens and the same fault, further down. -/
theorem readAll_down :
    (r.down k).readAll = (r.readAll.1.map (Token.down k), r.readAll.2.map (LexError.down k)) := by
  fun_induction readAll r with
  | case1 r e r' hnext =>
    have hdown : (r.down k).next = (.error (e.down k), r'.down k) := by
      rw [next_down, hnext]
      rfl
    rw [readAll_of_error hdown]
    rfl
  | case2 r t r' hnext ht =>
    have hdown : (r.down k).next = (.ok (t.down k), r'.down k) := by
      rw [next_down, hnext]
      rfl
    rw [readAll_of_end hdown ht]
    rfl
  | case3 r t r' hnext ht hlt us fault hall ih =>
    have hdown : (r.down k).next = (.ok (t.down k), r'.down k) := by
      rw [next_down, hnext]
      rfl
    rw [hall] at ih
    rw [readAll_of_token hdown ht, ih]
    rfl

end Reader

/-! ### Texts below each other -/

/-- A whole text and the line feed behind it, before the lines below. -/
def Layout.above (l : Layout) (rest : List Char) : Lead rest where
  pieces := l.pieces
  blanks := l.trailing ++ ['\n']
  blank := by
    intro c hc
    rcases List.mem_append.1 hc with hc | hc
    · exact l.blank c hc
    · obtain rfl := List.mem_singleton.1 hc
      rfl
  separated := l.separated.of_head fun c hc => by
    rcases htrailing : l.trailing with _ | ⟨b, bs⟩
    · rw [htrailing] at hc
      obtain rfl : '\n' = c := Option.some.inj hc
      exact .inr rfl
    · rw [htrailing] at hc
      exact .inl hc

lemma Layout.chars_above (l : Layout) (rest : List Char) :
    (l.above rest).chars = l.chars ++ ['\n'] :=
  (List.append_assoc ..).symm

lemma readAll_below {a : String} {ts : List Token} (h : tokenize a = .ok ts) (b : String) :
    (Reader.ofText (a ++ "\n" ++ b)).readAll =
      (ts.dropLast ++ (Reader.ofText b).readAll.1.map (Token.down (1 + a.toList.count '\n')),
        (Reader.ofText b).readAll.2.map (LexError.down (1 + a.toList.count '\n'))) := by
  obtain ⟨l, rfl, rfl⟩ := tokenize_eq_ok_iff.1 h
  have hdrop : l.tokens.dropLast = Piece.tokensOf [] l.pieces := by
    rw [Layout.tokens, Piece.tokens_eq, List.dropLast_concat]
  have hchars : l.text.toList = l.chars := String.toList_ofList
  have htext : (l.text ++ "\n" ++ b).toList = (l.above b.toList).chars ++ b.toList := by
    rw [String.toList_append, String.toList_append, hchars, Layout.chars_above]
    rfl
  have hbelow : (⟨b.toList, .behind (l.above b.toList).chars⟩ : Reader) =
      (Reader.ofText b).down (1 + l.chars.count '\n') := by
    rw [Layout.chars_above, Place.behind_line]
    rfl
  rw [Reader.ofText, htext, Reader.readAll_of_lead, hbelow, Reader.readAll_down, hdrop, hchars]
  rfl

/-- **Lines are read apart.** Below a text that can be read, a text has the tokens that it has by
itself, or the fault: only the lines are counted on. -/
theorem lines_are_read_apart {a : String} {ts : List Token} (h : tokenize a = .ok ts) (b : String) :
    (∀ us, tokenize b = .ok us → tokenize (a ++ "\n" ++ b) =
      .ok (ts.dropLast ++ us.map (Token.down (1 + a.toList.count '\n')))) ∧
    ∀ e, tokenize b = .error e → ∃ e', tokenize (a ++ "\n" ++ b) = .error e' ∧
      e'.fault = e.fault ∧ e'.place.column = e.place.column ∧
      e'.place.line = e.place.line + (1 + a.toList.count '\n') ∧
      ∃ what, e.message = what ++ " at line " ++ toString e.place.line ++ ", col " ++
          toString e.place.column ∧
        e'.message = what ++ " at line " ++
          toString (e.place.line + (1 + a.toList.count '\n')) ++ ", col " ++
          toString e.place.column := by
  have hall := readAll_below h b
  rcases hb : (Reader.ofText b).readAll with ⟨vs, _ | f⟩
  · have hok := tokenize_eq_ok_iff_readAll.2 hb
    rw [hb] at hall
    rw [hok]
    refine ⟨?_, nofun⟩
    rintro us ⟨⟩
    exact tokenize_eq_ok_iff_readAll.2 hall
  · rw [hb] at hall
    rw [tokenize_of_fault hb]
    refine ⟨nofun, ?_⟩
    rintro e ⟨⟩
    refine ⟨f.down (1 + a.toList.count '\n'), tokenize_of_fault hall, rfl, rfl, rfl, ?_⟩
    obtain ⟨_ | _, p⟩ := f
    · exact ⟨_, rfl, rfl⟩
    · exact ⟨_, rfl, rfl⟩

theorem lines_are_read_apart_brokenLine :
    tokenize "x :=\n2" = .ok
        [⟨.known .identifier, "x", 1, 1⟩, ⟨.known .becomes, ":=", 1, 3⟩,
         ⟨.known .number, "2", 2, 1⟩, .atEnd 2 2] ∧
      tokenize ("x :=\n2" ++ "\n" ++ "x :=\n2") = .ok
        [⟨.known .identifier, "x", 1, 1⟩, ⟨.known .becomes, ":=", 1, 3⟩,
         ⟨.known .number, "2", 2, 1⟩, ⟨.known .identifier, "x", 3, 1⟩,
         ⟨.known .becomes, ":=", 3, 3⟩, ⟨.known .number, "2", 4, 1⟩, .atEnd 4 2] := by
  refine ⟨tokenize_brokenLine, ?_⟩
  rw [(lines_are_read_apart tokenize_brokenLine "x :=\n2").1 _ tokenize_brokenLine]
  decide

end StatementLang
