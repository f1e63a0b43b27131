import StatementLang.Cursor
import StatementLang.Proofs.Layout
import StatementLang.Proofs.Upcoming

/-!
Reading character by character.

A cursor may take characters one by one, and look at the next ones before it does. It then takes
only what it has seen, so it never comes to a character that is not there: it reads the token that
is scanned at once (`readToken_eq_nextToken`), and goes on to read what a source answers over a text
(`nth_ofText`). The runs of characters in lexemes are all taken by one loop; how the loops differ is
said by what they do about a character.
-/

namespace StatementLang

open Text

/-- What a loop does about a character. -/
inductive Move (σ : Type) where
  | stop
  | take (next : σ)
  | fail (f : Fault)

/-- A loop: its states, and what it does in a state about a character with another behind it. -/
abbrev Moves (σ : Type) := σ → Char → Option Char → Move σ

/-- The characters that a loop takes, those that it leaves, and why it has failed if it has. -/
def Moves.split {σ : Type} (moves : Moves σ) : σ → List Char → List Char × List Char × Option Fault
  | _, [] => ([], [], none)
  | state, c :: cs =>
    match moves state c cs.head? with
    | .stop => ([], c :: cs, none)
    | .fail f => ([], c :: cs, some f)
    | .take next =>
      let (taken, rest, fault) := split moves next cs
      (c :: taken, rest, fault)

def whileMoves (p : Char → Bool) : Moves Unit := fun _ c _ => if p c then .take () else .stop

/-- Takes digits and one point, which must stand before a digit. The state tells whether the point
has been taken. -/
def numberMoves : Moves Bool := fun pointed c next =>
  if isDigit c then .take pointed
  else if c = '.' then
    if pointed || !next.any isDigit then .fail .malformedNumber else .take true
  else .stop

/-- Takes what stands between quotes on a line. The state tells whether a backslash was the last
character and escapes the next one. -/
def stringMoves (quote : Char) : Moves Bool := fun escaped c _ =>
  if escaped then .take false
  else if c = '\\' then .take true
  else if c = quote ∨ c = '\n' then .stop
  else .take false

namespace Cursor

def left (c : Cursor) : Nat := (c.source.length - c.position).toNat

lemma left_advance {c c' : Cursor} {d : Char} (h : c.advance = (.ok d, c')) : c'.left < c.left := by
  unfold advance at h
  split at h
  · cases h
  · next hend =>
    have hlt : ¬ c.position ≥ c.source.length := fun hge => hend (decide_eq_true hge)
    split at h
    · cases h
      unfold left
      dsimp only
      omega
    · cases h

def takeRun {σ : Type} (moves : Moves σ) (state : σ) (c : Cursor) :
    Except Failure (List Char × Option Fault) × Cursor :=
  if c.atEnd then (.ok ([], none), c)
  else
    match c.peek 0 with
    | none => (.ok ([], none), c)
    | some d =>
      match moves state d (c.peek 1) with
      | .stop => (.ok ([], none), c)
      | .fail f => (.ok ([], some f), c)
      | .take next =>
        match h : c.advance with
        | (.error e, c') => (.error e, c')
        | (.ok d, c') =>
          have := left_advance h
          match takeRun moves next c' with
          | (.error e, c'') => (.error e, c'')
          | (.ok (taken, fault), c'') => (.ok (d :: taken, fault), c'')
termination_by c.left

/-- Goes on with what has been taken, unless that has failed. -/
def andThen {α β : Type} (r : Except Failure α × Cursor)
    (goOn : α → Cursor → Except Failure β × Cursor) : Except Failure β × Cursor :=
  match r with
  | (.ok a, c) => goOn a c
  | (.error e, c) => (.error e, c)

def takeMany : Nat → Cursor → Except Failure Unit × Cursor
  | 0, c => (.ok (), c)
  | n + 1, c => andThen c.advance fun _ c => takeMany n c

def tokenAt (place : Place) (s : Symbol) (raw : List Char) : Token :=
  ⟨.known s, String.ofList raw, place.line, place.column⟩

def readWord (c : Cursor) : Except Failure Token × Cursor :=
  andThen (c.takeRun (whileMoves Lexeme.isWordChar) ()) fun (raw, _) d =>
    (.ok (tokenAt c.place ((Symbol.ofLexeme? (String.ofList raw)).getD .identifier) raw), d)

def readNumber (c : Cursor) : Except Failure Token × Cursor :=
  andThen (c.takeRun numberMoves false) fun (raw, fault) d =>
    match fault with
    | none => (.ok (tokenAt c.place .number raw), d)
    | some f => (.error (.lexical ⟨f, c.place⟩), d)

/-- Takes the string that the character under the cursor opens. -/
def readString (quote : Char) (c : Cursor) : Except Failure Token × Cursor :=
  andThen c.advance fun _ d =>
    andThen (d.takeRun (stringMoves quote) false) fun (body, _) d =>
      if d.peek 0 = some quote then
        andThen d.advance fun _ d => (.ok (tokenAt c.place .string body), d)
      else (.error (.lexical ⟨.openString, c.place⟩), d)

/-- The symbol of the first two characters, or else of the first one, and the characters. -/
def markOf (first : Char) (second : Option Char) : Symbol × List Char :=
  let symbol? (raw : List Char) : Option (Symbol × List Char) :=
    (Symbol.ofLexeme? (String.ofList raw)).map fun s => (s, raw)
  ((second.bind fun d => symbol? [first, d]).or (symbol? [first])).getD (.unknown, [first])

/-- Takes the longest operator, or a single character if there is none. -/
def readMark (first : Char) (c : Cursor) : Except Failure Token × Cursor :=
  let (s, raw) := markOf first (c.peek 1)
  andThen (c.takeMany raw.length) fun _ d => (.ok (tokenAt c.place s raw), d)

/-- Takes the token that begins with the character under the cursor. -/
def readLexeme (first : Char) (c : Cursor) : Except Failure Token × Cursor :=
  if isLetter first then c.readWord
  else if isDigit first then c.readNumber
  else if first = '"' ∨ first = '\'' then c.readString first
  else c.readMark first

/-- The next token, read character by character. -/
def readToken (c : Cursor) : Except Failure Token × Cursor :=
  andThen (c.takeRun (whileMoves Lexeme.isBlank) ()) fun _ d =>
    match d.peek 0 with
    | none => (.ok (.atEnd d.place.line d.place.column), d)
    | some first => d.readLexeme first

def nth (c : Cursor) : Nat → Except Failure Token
  | 0 => c.readToken.1
  | i + 1 => c.readToken.2.nth i

end Cursor

/-! ### What the loops take -/

namespace Moves

section

variable {σ : Type} {moves : Moves σ} {state next : σ} {c : Char} {cs : List Char}

lemma split_stop (h : moves state c cs.head? = .stop) :
    moves.split state (c :: cs) = ([], c :: cs, none) := by
  rw [split, h]

lemma split_fail {f : Fault} (h : moves state c cs.head? = .fail f) :
    moves.split state (c :: cs) = ([], c :: cs, some f) := by
  rw [split, h]

lemma split_take (h : moves state c cs.head? = .take next) :
    moves.split state (c :: cs) = (c :: (moves.split next cs).1, (moves.split next cs).2) := by
  rw [split, h]

end

lemma split_while (p : Char → Bool) (cs : List Char) :
    (whileMoves p).split () cs = (cs.takeWhile p, cs.dropWhile p, none) := by
  induction cs with
  | nil => rfl
  | cons c cs ih =>
    by_cases hc : p c = true
    · have hmove : whileMoves p () c cs.head? = .take () := if_pos hc
      rw [split_take hmove, ih, List.takeWhile_cons_of_pos hc, List.dropWhile_cons_of_pos hc]
    · have hmove : whileMoves p () c cs.head? = .stop := if_neg hc
      rw [split_stop hmove, List.takeWhile_cons_of_neg hc, List.dropWhile_cons_of_neg hc]

lemma split_digits (pointed : Bool) {ds : List Char} (hds : ∀ c ∈ ds, isDigit c = true)
    (rest : List Char) : numberMoves.split pointed (ds ++ rest) =
      (ds ++ (numberMoves.split pointed rest).1, (numberMoves.split pointed rest).2) := by
  induction ds with
  | nil => rfl
  | cons d ds ih =>
    obtain ⟨hd, hds⟩ := List.forall_mem_cons.1 hds
    have hmove : numberMoves pointed d (ds ++ rest).head? = .take pointed := if_pos hd
    rw [List.cons_append, split_take hmove, ih hds]
    rfl

lemma split_point {pointed : Bool} {cs : List Char}
    (h : pointed = true ∨ ∀ c ∈ cs.head?, isDigit c = false) :
    numberMoves.split pointed ('.' :: cs) = ([], '.' :: cs, some .malformedNumber) := by
  refine split_fail ?_
  have hpoint : isDigit '.' = false := by decide
  rw [numberMoves, if_neg (by simp [hpoint]), if_pos rfl, if_pos]
  rcases h with rfl | h
  · rfl
  · rcases cs with _ | ⟨c, cs⟩
    · simp
    · simp [h c rfl]

lemma split_number_stop {pointed : Bool} {rest : List Char}
    (hrest : ∀ c ∈ rest.head?, isDigit c = false ∧ c ≠ '.') :
    numberMoves.split pointed rest = ([], rest, none) := by
  rcases rest with _ | ⟨c, cs⟩
  · rfl
  · obtain ⟨hdigit, hpoint⟩ := hrest c rfl
    refine split_stop ?_
    rw [numberMoves, if_neg (by simp [hdigit]), if_neg hpoint]

lemma not_point_of_dropWhile {cs : List Char} (h : ∀ es, cs.dropWhile isDigit ≠ '.' :: es) :
    ∀ c ∈ (cs.dropWhile isDigit).head?, isDigit c = false ∧ c ≠ '.' := by
  intro c hc
  refine ⟨stop_dropWhile isDigit cs c hc, ?_⟩
  rintro rfl
  obtain ⟨es, hes⟩ := List.head?_eq_some_iff.1 hc
  exact h es hes

lemma split_number {d : Char} (hd : isDigit d = true) (cs : List Char) :
    ∃ fault, numberMoves.split false (d :: cs) =
        ((Lexeme.number d cs).raw, (Lexeme.number d cs).rest, fault) ∧
      (Lexeme.number d cs).found = match fault with
        | none => .ok (.number, (Lexeme.number d cs).raw)
        | some f => .error f := by
  have hwhole : ∀ c ∈ d :: cs.takeWhile isDigit, isDigit c = true :=
    List.forall_mem_cons.2 ⟨hd, fun c hc => List.mem_takeWhile_imp hc⟩
  have hsplit : d :: cs = (d :: cs.takeWhile isDigit) ++ cs.dropWhile isDigit := by
    rw [List.cons_append, List.takeWhile_append_dropWhile]
  rw [hsplit, split_digits false hwhole, Lexeme.number]
  split
  · next e ds hds =>
    rw [hds]
    split
    · next he =>
      have hpart : ∀ c ∈ e :: ds.takeWhile isDigit, isDigit c = true :=
        List.forall_mem_cons.2 ⟨he, fun c hc => List.mem_takeWhile_imp hc⟩
      have hpoint : numberMoves false '.' (e :: ds).head? = .take true := by
        simp [numberMoves, he, show isDigit '.' = false by decide]
      have hrest : e :: ds = (e :: ds.takeWhile isDigit) ++ ds.dropWhile isDigit := by
        rw [List.cons_append, List.takeWhile_append_dropWhile]
      rw [split_take hpoint, hrest, split_digits true hpart]
      dsimp only
      split
      · next es hes =>
        rw [hes, split_point (.inl rfl)]
        exact ⟨some .malformedNumber, by simp, rfl⟩
      · next hes =>
        rw [split_number_stop (not_point_of_dropWhile hes)]
        exact ⟨none, by simp, rfl⟩
    · next he =>
      rw [split_point (.inr (by simpa using he))]
      exact ⟨some .malformedNumber, by simp, rfl⟩
  · next hds =>
    rw [hds, split_point (.inr (by simp))]
    exact ⟨some .malformedNumber, by simp, rfl⟩
  · next hpair hpoint =>
    have hnone : ∀ es, cs.dropWhile isDigit ≠ '.' :: es := by
      rintro (_ | ⟨e, es⟩) h
      · exact hpoint h
      · exact hpair e es h
    rw [split_number_stop (not_point_of_dropWhile hnone)]
    exact ⟨none, by simp, rfl⟩

lemma split_string {quote : Char} (hq : quote ≠ '\\') (cs : List Char) :
    (stringMoves quote).split false cs =
      ((Lexeme.stringBody quote cs).1, (Lexeme.stringBody quote cs).2, none) := by
  fun_induction Lexeme.stringBody quote cs with
  | case1 => rfl
  | case2 c cs body rest h ih =>
    have hescape : stringMoves quote false '\\' (c :: cs).head? = .take true := rfl
    have hpair : stringMoves quote true c cs.head? = .take false := rfl
    rw [split_take hescape, split_take hpair, ih, h]
  | case3 c cs hpair hstop =>
    have hc : c ≠ '\\' := by
      rcases hstop with rfl | rfl
      · exact hq
      · decide
    refine split_stop ?_
    rw [stringMoves, if_neg Bool.false_ne_true, if_neg hc, if_pos hstop]
  | case4 c cs hpair hgoes body rest h ih =>
    by_cases hc : c = '\\'
    · -- a backslash that makes no pair is the last character
      rcases cs with _ | ⟨d, ds⟩
      · cases h
        subst hc
        rfl
      · exact (hpair d ds hc rfl).elim
    · have hmove : stringMoves quote false c cs.head? = .take false := by
        rw [stringMoves, if_neg Bool.false_ne_true, if_neg hc, if_neg hgoes]
      rw [split_take hmove, ih, h]

end Moves

/-! ### Cursors inside a text -/

namespace Cursor

variable {before rest cs : List Char} {d : Char} {place : Place}

def between (before rest : List Char) (place : Place) : Cursor :=
  ⟨before ++ rest, before.length, place⟩

lemma peek_between (i : Nat) : (between before rest place).peek i = rest[i]? := by
  have hindex : ¬ ((before.length : Int) + i < 0) := by omega
  have hnat : ((before.length : Int) + i).toNat = before.length + i := by omega
  rw [peek, between, if_neg hindex, hnat, List.getElem?_append_right (Nat.le_add_right _ i),
    Nat.add_sub_cancel_left]

lemma peek_zero : (between before rest place).peek 0 = rest.head? := by
  rw [List.head?_eq_getElem?]
  exact peek_between 0

lemma peek_one : (between before (d :: cs) place).peek 1 = cs.head? := by
  rw [List.head?_eq_getElem?]
  exact peek_between 1

lemma atEnd_between : (between before rest place).atEnd = rest.isEmpty := by
  rcases rest with _ | ⟨d, cs⟩
  · simp [atEnd, between]
  · simp only [atEnd, between, List.length_append, List.length_cons, List.isEmpty_cons,
      decide_eq_false_iff_not]
    omega

lemma advance_between : (between before (d :: cs) place).advance =
    (.ok d, between (before ++ [d]) cs (place.after d)) := by
  have hend : ¬ (between before (d :: cs) place).atEnd = true := by simp [atEnd_between]
  have hcurrent : (between before (d :: cs) place).current? = some d := by
    simp [current?, between]
  rw [advance, if_neg hend, hcurrent]
  simp [between]

lemma takeRun_between {σ : Type} (moves : Moves σ) (state : σ) :
    (between before rest place).takeRun moves state =
      (.ok ((moves.split state rest).1, (moves.split state rest).2.2),
        between (before ++ (moves.split state rest).1) (moves.split state rest).2.1
          (place.advance (moves.split state rest).1)) := by
  induction rest generalizing before place state with
  | nil =>
    rw [takeRun, if_pos (by simp [atEnd_between])]
    simp [Moves.split]
  | cons d cs ih =>
    -- The cursor stands before the character that the loop takes, so it is there.
    rw [takeRun, if_neg (by simp [atEnd_between]), peek_zero, peek_one]
    dsimp only [List.head?_cons]
    rcases hmove : moves state d cs.head? with _ | next | f
    · rw [Moves.split_stop hmove]
      simp
    · rw [Moves.split_take hmove]
      dsimp only
      split
      · next e c' h =>
        rw [advance_between] at h
        cases h
      · next e c' h =>
        rw [advance_between] at h
        cases h
        rw [ih, place.advance_cons]
        simp
    · rw [Moves.split_fail hmove]
      simp

lemma takeMany_between (taken : List Char) :
    (between before (taken ++ rest) place).takeMany taken.length =
      (.ok (), between (before ++ taken) rest (place.advance taken)) := by
  induction taken generalizing before place with
  | nil => simp [takeMany]
  | cons d ds ih =>
    rw [List.cons_append, List.length_cons, takeMany, advance_between]
    dsimp only [andThen]
    rw [ih, place.advance_cons]
    simp

def behind (before : List Char) (place : Place) (l : Lexeme) : Except Failure Token × Cursor :=
  ((Reader.reading place l).mapError .lexical,
    between (before ++ l.raw) l.rest (place.advance l.raw))

lemma readWord_between (hd : isLetter d = true) :
    (between before (d :: cs) place).readWord = behind before place (Lexeme.word d cs) := by
  have hword : Lexeme.isWordChar d = true := by simp [Lexeme.isWordChar, isAlphanumeric, hd]
  rw [readWord, takeRun_between, Moves.split_while, List.takeWhile_cons_of_pos hword,
    List.dropWhile_cons_of_pos hword]
  rfl

lemma readNumber_between (hd : isDigit d = true) :
    (between before (d :: cs) place).readNumber = behind before place (Lexeme.number d cs) := by
  obtain ⟨fault, hsplit, hfound⟩ := Moves.split_number hd cs
  rw [readNumber, takeRun_between, hsplit]
  rcases fault with _ | f
  · simp [andThen, behind, Reader.reading, hfound, Except.mapError, tokenAt, between]
  · simp [andThen, behind, Reader.reading, hfound, Except.mapError, between]

lemma readString_between (hd : Lexeme.IsQuote d) :
    (between before (d :: cs) place).readString d = behind before place (Lexeme.string d cs) := by
  have hescape : d ≠ '\\' := by rcases hd with rfl | rfl <;> decide
  rw [readString, advance_between]
  dsimp only [andThen]
  rw [takeRun_between, Moves.split_string hescape, Lexeme.string]
  dsimp only
  rw [peek_zero]
  rcases Lexeme.stringBody d cs with ⟨body, _ | ⟨e, rest⟩⟩
  · rw [List.head?_nil, if_neg (by simp)]
    simp [behind, Reader.reading, Except.mapError, between]
  · rw [List.head?_cons]
    by_cases he : e = d
    · subst he
      rw [if_pos rfl, advance_between]
      simp [behind, Reader.reading, Except.mapError, tokenAt, between, Place.advance_append]
    · rw [if_neg (by simpa using he)]
      simp [behind, Reader.reading, Except.mapError, he, between]

lemma mark_eq (d : Char) (cs : List Char) :
    ∃ rest, d :: cs = (markOf d cs.head?).2 ++ rest ∧ Lexeme.mark d cs =
      ⟨(markOf d cs.head?).2, rest, .ok ((markOf d cs.head?).1, (markOf d cs.head?).2)⟩ := by
  rcases cs with _ | ⟨e, rest⟩
  · simp only [Lexeme.mark, Lexeme.operator?, Lexeme.spelled?, markOf, List.head?_nil]
    rcases Symbol.ofLexeme? (String.ofList [d]) with _ | s <;> exact ⟨_, rfl, rfl⟩
  · simp only [Lexeme.mark, Lexeme.operator?, Lexeme.spelled?, markOf, List.head?_cons,
      Option.bind_some]
    rcases Symbol.ofLexeme? (String.ofList [d, e]) with _ | s
    · rcases Symbol.ofLexeme? (String.ofList [d]) with _ | s <;> exact ⟨_, rfl, rfl⟩
    · exact ⟨_, rfl, rfl⟩

lemma readMark_between :
    (between before (d :: cs) place).readMark d = behind before place (Lexeme.mark d cs) := by
  obtain ⟨rest, hsplit, hmark⟩ := mark_eq d cs
  rw [readMark, peek_one, hmark]
  dsimp only
  rw [hsplit, takeMany_between]
  rfl

lemma readLexeme_between : (between before (d :: cs) place).readLexeme d =
    behind before place (Lexeme.scan d cs) := by
  by_cases hl : isLetter d = true
  · rw [readLexeme, if_pos hl, readWord_between hl, Lexeme.scan_of_letter hl]
  by_cases hn : isDigit d = true
  · rw [readLexeme, if_neg hl, if_pos hn, readNumber_between hn, Lexeme.scan_of_digit hn]
  by_cases hq : Lexeme.IsQuote d
  · rw [readLexeme, if_neg hl, if_neg hn, if_pos hq, readString_between hq,
      Lexeme.scan_of_quote hq]
  rw [readLexeme, if_neg hl, if_neg hn, if_neg hq, readMark_between,
    Lexeme.scan_of_mark (eq_false_of_ne_true hl) (eq_false_of_ne_true hn) hq]

lemma readToken_between (before rest : List Char) (place : Place) :
    ∃ taken, taken ++ (Reader.next ⟨rest, place⟩).2.rest = rest ∧
      (between before rest place).readToken =
        ((Reader.next ⟨rest, place⟩).1.mapError .lexical,
          between (before ++ taken) (Reader.next ⟨rest, place⟩).2.rest
            (Reader.next ⟨rest, place⟩).2.place) := by
  have hblanks := List.takeWhile_append_dropWhile (p := Lexeme.isBlank) (l := rest)
  rw [readToken, takeRun_between, Moves.split_while]
  dsimp only [andThen]
  rw [peek_zero]
  rcases hrest : rest.dropWhile Lexeme.isBlank with _ | ⟨d, cs⟩
  · rw [Reader.next_of_nil (r := ⟨rest, place⟩) rfl hrest]
    refine ⟨_, hblanks, ?_⟩
    dsimp only [Reader.skipBlanks]
    rw [hrest]
    rfl
  · rw [Reader.next_of_cons (r := ⟨rest, place⟩) rfl hrest]
    dsimp only [List.head?_cons]
    rw [readLexeme_between]
    refine ⟨rest.takeWhile Lexeme.isBlank ++ (Lexeme.scan d cs).raw, ?_, ?_⟩
    · rw [List.append_assoc, Lexeme.raw_append_rest_scan, ← hrest, hblanks]
    · rw [← List.append_assoc]
      rfl

lemma moveTo_between {taken : List Char} {r : Reader} (h : taken ++ r.rest = rest) :
    (between before rest place).moveTo r = between (before ++ taken) r.rest r.place := by
  have hlength : (rest.length : Int) - r.rest.length = taken.length := by
    rw [← h, List.length_append]
    omega
  have hreader : (between before rest place).reader.rest = rest := by simp [reader, between]
  rw [moveTo, hreader, hlength]
  simp [between, h]

lemma readToken_of_end {c : Cursor} (h : c.source.length ≤ c.position) :
    c.readToken = (.ok (.atEnd c.place.line c.place.column), c) := by
  have hend : c.atEnd = true := decide_eq_true h
  have hpeek : c.peek 0 = none := by
    have hindex : c.source.length ≤ (c.position + 0).toNat := by omega
    rw [peek]
    split
    · rfl
    · exact List.getElem?_eq_none hindex
  rw [readToken, takeRun, if_pos hend]
  dsimp only [andThen]
  rw [hpeek]

lemma nextToken_eq {c : Cursor} (h : 0 ≤ c.position) :
    c.nextToken = (c.reader.next.1.mapError .lexical, c.moveTo c.reader.next.2) := by
  rw [nextToken, toBeginning, if_pos h]

/-- **Reading by single characters never fails for want of one.** A cursor that stands in the text
or behind it answers with the tokens and the faulty lexemes that a reader there answers with. -/
theorem readToken_eq_nextToken {c : Cursor} (h : 0 ≤ c.position) : c.readToken = c.nextToken := by
  obtain ⟨source, position, place⟩ := c
  obtain ⟨n, rfl⟩ := Int.eq_ofNat_of_zero_le h
  have hnext : nextToken ⟨source, n, place⟩ =
      ((Reader.next ⟨source.drop n, place⟩).1.mapError .lexical,
        moveTo ⟨source, n, place⟩ (Reader.next ⟨source.drop n, place⟩).2) := nextToken_eq h
  rcases Nat.le_total n source.length with hn | hn
  · have hbetween : (⟨source, n, place⟩ : Cursor) =
        between (source.take n) (source.drop n) place := by
      rw [between, List.take_append_drop, List.length_take_of_le hn]
    obtain ⟨taken, htaken, hread⟩ := readToken_between (source.take n) (source.drop n) place
    rw [hnext, hbetween, hread, moveTo_between htaken]
  · have hrest : source.drop n = [] := List.drop_eq_nil_iff.2 hn
    rw [readToken_of_end (Int.ofNat_le.2 hn), hnext, hrest,
      Reader.next_of_nil (r := ⟨[], place⟩) rfl rfl]
    simp [Reader.skipBlanks, Except.mapError, moveTo, reader, hrest]

lemma nth_between (before rest : List Char) (place : Place) (i : Nat) :
    (between before rest place).nth i =
      ((TokenSource.reader ⟨rest, place⟩).answer i).mapError .lexical := by
  induction i generalizing before rest place with
  | zero =>
    obtain ⟨taken, -, hread⟩ := readToken_between before rest place
    rw [nth, hread]
    rfl
  | succ i ih =>
    obtain ⟨taken, -, hread⟩ := readToken_between before rest place
    rw [nth, hread, ih]
    rfl

theorem nth_ofText (text : String) (i : Nat) :
    (ofText text 0 .start).nth i = ((TokenSource.ofText text).answer i).mapError .lexical :=
  nth_between [] text.toList .start i

end Cursor

end StatementLang
