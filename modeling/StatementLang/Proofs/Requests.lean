import StatementLang.Proofs.Characters
import StatementLang.Proofs.Places

/-!
Whatever is asked of a cursor, it knows its place.

A cursor may be asked for anything, again and again, also after a request that has failed half-way.
All that a request does to it is to take some characters, one after the other
(`Stands.served`), and each of these leads the cursor from a place to the next one
(`Stands.advance`). So the cursor always stands in its text, at the place of the characters before
it (`cursors_know_their_place`).
-/

namespace StatementLang

lemma Reader.exists_taken (r : Reader) :
    ∃ taken, taken ++ r.next.2.rest = r.rest ∧ r.next.2.place = r.place.advance taken := by
  have hblanks := List.takeWhile_append_dropWhile (p := Lexeme.isBlank) (l := r.rest)
  rcases hrest : r.skipBlanks.rest with _ | ⟨d, cs⟩
  · rw [next_of_nil rfl hrest]
    exact ⟨_, hblanks, rfl⟩
  · rw [next_of_cons rfl hrest]
    refine ⟨r.rest.takeWhile Lexeme.isBlank ++ (Lexeme.scan d cs).raw, ?_, ?_⟩
    · have hdrop : r.rest.dropWhile Lexeme.isBlank = d :: cs := hrest
      rw [List.append_assoc, Lexeme.raw_append_rest_scan, ← hdrop, hblanks]
    · rw [Place.advance_append]
      rfl

namespace Cursor

inductive Request where
  | nextToken
  | matchOperator
  | skipBlanks
  | advance
  | peek (offset : Int)
  | atEnd
  deriving DecidableEq

inductive Answer where
  | token (t : Token)
  | operator (t : Option Token)
  | skipped
  | character (d : Char)
  | seen (d : Option Char)
  | ended (b : Bool)
  deriving DecidableEq

def perform (c : Cursor) : Request → Except Failure Answer × Cursor
  | .nextToken => Prod.map (·.map .token) id c.nextToken
  | .matchOperator => Prod.map (.ok ∘ .operator) id c.matchOperator
  | .skipBlanks => Prod.map (·.map fun _ => .skipped) id c.skipBlanks
  | .advance => Prod.map (·.map .character) id c.advance
  | .peek offset => (.ok (.seen (c.peek offset)), c)
  | .atEnd => (.ok (.ended c.atEnd), c)

/-- The cursor after some requests, whatever they were answered with. -/
def performAll (c : Cursor) (requests : List Request) : Cursor :=
  requests.foldl (fun c r => (c.perform r).2) c

variable {c c' : Cursor} {r : Request}

/-! ### One character after the other -/

/-- Characters taken one by one lead from one cursor to the other. -/
def LeadsTo (c c' : Cursor) : Prop := ∃ n, c.takeMany n = (.ok (), c')

lemma LeadsTo.refl (c : Cursor) : c.LeadsTo c := ⟨0, rfl⟩

/-- The cursor stands in its text, at the place of the characters before it. -/
inductive Stands : Cursor → Prop
  | mk (before rest : List Char) : Stands (between before rest (.behind before))

lemma stands_ofText (text : String) : Stands (ofText text 0 .start) := .mk [] text.toList

lemma Stands.advance {d : Char} (h : c.Stands) (hd : c.advance = (.ok d, c')) :
    c'.Stands ∧ c'.source = c.source ∧ c'.position = c.position + 1 := by
  obtain ⟨before, rest⟩ := h
  rcases rest with _ | ⟨e, rest⟩
  · have hend : (between before [] (.behind before)).atEnd = true := by simp [atEnd_between]
    rw [Cursor.advance, if_pos hend] at hd
    cases hd
  · rw [advance_between, ← Place.behind_snoc] at hd
    cases hd
    exact ⟨.mk (before ++ [d]) rest, by simp [between], by simp [between]⟩

theorem Stands.of_leadsTo (h : c.Stands) (hc : c.LeadsTo c') :
    c'.Stands ∧ c'.source = c.source ∧ c.position ≤ c'.position := by
  obtain ⟨n, hn⟩ := hc
  induction n generalizing c with
  | zero =>
    cases hn
    exact ⟨h, rfl, Int.le_refl _⟩
  | succ n ih =>
    rcases hd : c.advance with ⟨e | d, c₁⟩
    · rw [takeMany, hd] at hn
      cases hn
    · obtain ⟨hstands, hsource, hposition⟩ := h.advance hd
      rw [takeMany, hd] at hn
      obtain ⟨hstands', hsource', hposition'⟩ := ih hstands hn
      exact ⟨hstands', hsource'.trans hsource, by omega⟩

/-! ### What requests come to -/

/-- What a request of a cursor comes to. -/
inductive Served (c : Cursor) : Except Failure Answer × Cursor → Prop
  /-- The cursor has only looked at characters. -/
  | stayed (a : Answer) : Served c (.ok a, c)
  | taken {a : Answer} {c' : Cursor} (ha : a ≠ .operator none) (h : c.LeadsTo c') :
    Served c (.ok a, c')
  | fault {e : LexError} {c' : Cursor} (h : c.LeadsTo c') : Served c (.error (.lexical e), c')
  /-- There is no character left to take. -/
  | pastEnd (h : c.atEnd = true) : Served c (.error (.pastEnd c.position c.place.line), c)

lemma leadsTo_moveTo {before rest taken : List Char} {place : Place} {r : Reader}
    (hrest : taken ++ r.rest = rest) (hplace : r.place = place.advance taken) :
    (between before rest place).LeadsTo ((between before rest place).moveTo r) := by
  refine ⟨taken.length, ?_⟩
  rw [moveTo_between hrest, ← hrest, takeMany_between, hplace]

lemma reader_between (before rest : List Char) (place : Place) :
    (between before rest place).reader = ⟨rest, place⟩ := by
  simp [reader, between]

lemma exists_operator {cs : List Char} {l : Lexeme} (h : Lexeme.operator? cs = some l)
    (place : Place) : ∃ t, Reader.reading place l = .ok t := by
  have hspelled {raw rest : List Char} (hl : Lexeme.spelled? raw rest = some l) :
      ∃ t, Reader.reading place l = .ok t := by
    obtain ⟨s, -, rfl⟩ := Option.map_eq_some_iff.1 hl
    exact ⟨_, rfl⟩
  rcases cs with _ | ⟨c, _ | ⟨d, cs⟩⟩
  · cases h
  · exact hspelled h
  · rcases Option.or_eq_some_iff.1 h with h | ⟨-, h⟩
    · exact hspelled h
    · exact hspelled h

section

variable (before rest : List Char) (place : Place)

lemma served_nextToken : Served (between before rest place)
    ((between before rest place).perform .nextToken) := by
  have hinside : 0 ≤ (between before rest place).position := Int.natCast_nonneg _
  obtain ⟨taken, hrest, hplace⟩ := Reader.exists_taken ⟨rest, place⟩
  have hmove : (between before rest place).LeadsTo
      ((between before rest place).moveTo (Reader.next ⟨rest, place⟩).2) :=
    leadsTo_moveTo hrest hplace
  rw [perform, nextToken_eq hinside, reader_between]
  rcases (Reader.next ⟨rest, place⟩).1 with e | t
  · exact .fault hmove
  · exact .taken (by simp) hmove

lemma served_matchOperator : Served (between before rest place)
    ((between before rest place).perform .matchOperator) := by
  have hinside : 0 ≤ (between before rest place).position := Int.natCast_nonneg _
  rw [perform, matchOperator, if_neg (Int.not_lt.2 hinside), reader_between]
  rcases hop : Lexeme.operator? rest with _ | l
  · exact .stayed _
  · obtain ⟨t, ht⟩ := exists_operator hop place
    have hmove : (between before rest place).LeadsTo
        ((between before rest place).moveTo ⟨l.rest, place.advance l.raw⟩) :=
      leadsTo_moveTo (Lexeme.raw_append_rest_operator? hop).1 rfl
    have hreading : Reader.reading (between before rest place).place l = .ok t := ht
    dsimp only
    rw [hreading]
    exact .taken (by simp [Except.toOption]) hmove

lemma served_skipBlanks : Served (between before rest place)
    ((between before rest place).perform .skipBlanks) := by
  have hinside : 0 ≤ (between before rest place).position := Int.natCast_nonneg _
  rw [perform, skipBlanks, toBeginning, if_pos hinside]
  dsimp only
  rw [reader_between]
  have hsplit : rest.takeWhile Lexeme.isBlank ++ rest.dropWhile Lexeme.isBlank = rest :=
    List.takeWhile_append_dropWhile
  exact .taken (by simp) (leadsTo_moveTo (r := Reader.skipBlanks ⟨rest, place⟩) hsplit rfl)

lemma served_advance : Served (between before rest place)
    ((between before rest place).perform .advance) := by
  rcases rest with _ | ⟨d, cs⟩
  · have hend : (between before [] place).atEnd = true := by simp [atEnd_between]
    rw [perform, Cursor.advance, if_pos hend]
    exact .pastEnd hend
  · have hone : (between before (d :: cs) place).LeadsTo
        (between (before ++ [d]) cs (place.after d)) := by
      refine ⟨1, ?_⟩
      rw [takeMany, advance_between]
      rfl
    rw [perform, advance_between]
    exact .taken (by simp) hone

end

theorem Stands.served (h : c.Stands) (r : Request) : Served c (c.perform r) := by
  obtain ⟨before, rest⟩ := h
  cases r with
  | nextToken => exact served_nextToken before rest _
  | matchOperator => exact served_matchOperator before rest _
  | skipBlanks => exact served_skipBlanks before rest _
  | advance => exact served_advance before rest _
  | peek => exact .stayed _
  | atEnd => exact .stayed _

lemma Served.leadsTo {a : Except Failure Answer × Cursor} (h : Served c a) : c.LeadsTo a.2 := by
  cases h with
  | stayed => exact .refl c
  | taken _ hc => exact hc
  | fault hc => exact hc
  | pastEnd => exact .refl c

/-- **Whatever is asked of a cursor, it stays at its place** in the text. -/
theorem Stands.performAll (h : c.Stands) (requests : List Request) :
    (c.performAll requests).Stands ∧ (c.performAll requests).source = c.source := by
  induction requests generalizing c with
  | nil => exact ⟨h, rfl⟩
  | cons r requests ih =>
    obtain ⟨hstands, hsource, -⟩ := h.of_leadsTo (h.served r).leadsTo
    obtain ⟨hstands', hsource'⟩ := ih hstands
    exact ⟨hstands', hsource'.trans hsource⟩

end Cursor

/-- **A cursor knows its place**, whatever has been asked of it and whatever came of that. It stands
in its text or behind it; its line is one more than the line feeds before it, and its column one
more than the characters behind the last of these. Another request takes characters one by one, so
it never leads back, and it leaves the cursor as it is if there is no character to take, or no
operator to be found. The only other failures are faults of the text. -/
theorem cursors_know_their_place (text : String) (requests : List Cursor.Request) :
    ∃ (c : Cursor) (n : Nat), (Cursor.ofText text 0 .start).performAll requests = c ∧
      c.source = text.toList ∧ c.position = n ∧ n ≤ text.length ∧
      c.place.line = 1 + (text.toList.take n).count '\n' ∧
      c.place.column = 1 + (Place.lastLine (text.toList.take n)).length ∧
      ∀ r, c.position ≤ (c.perform r).2.position ∧
        (∃ k, c.takeMany k = (.ok (), (c.perform r).2)) ∧
        ((c.perform r).1 = .ok (.operator none) → (c.perform r).2 = c) ∧
        ∀ f, (c.perform r).1 = .error f →
          (f = .pastEnd c.position c.place.line ∧ (c.perform r).2 = c) ∨ ∃ e, f = .lexical e := by
  obtain ⟨hstands, hsource⟩ := (Cursor.stands_ofText text).performAll requests
  generalize (Cursor.ofText text 0 .start).performAll requests = c at hstands hsource
  have hsource' : c.source = text.toList := hsource
  refine ⟨c, c.position.toNat, rfl, hsource', ?_⟩
  have hnext : ∀ r, c.position ≤ (c.perform r).2.position := fun r =>
    (hstands.of_leadsTo (hstands.served r).leadsTo).2.2
  have hserved := hstands.served
  obtain ⟨before, rest⟩ := hstands
  have htext : text.toList = before ++ rest := hsource'.symm
  have htake : text.toList.take before.length = before := by rw [htext, List.take_left]
  have hlength : before.length ≤ text.length := by
    rw [← String.length_toList, htext, List.length_append]
    exact Nat.le_add_right _ _
  have hposition : (Cursor.between before rest (.behind before)).position.toNat =
      before.length := rfl
  rw [hposition, htake]
  refine ⟨rfl, hlength, rfl, rfl, fun r => ⟨hnext r, (hserved r).leadsTo, ?_⟩⟩
  have hr := hserved r
  generalize (Cursor.between before rest (.behind before)).perform r = a at hr
  cases hr with
  | stayed => exact ⟨fun _ => rfl, nofun⟩
  | taken ha => exact ⟨fun h => absurd (Except.ok.inj h) ha, nofun⟩
  | @fault e => exact ⟨nofun, fun f hf => .inr ⟨e, (Except.error.inj hf).symm⟩⟩
  | pastEnd => exact ⟨nofun, fun f hf => .inl ⟨(Except.error.inj hf).symm, rfl⟩⟩

/-- A string that is not closed is read up to the end, over the line feed that is escaped in it. -/
example : ((Cursor.ofText "'a\\\nb" 0 .start).performAll
    [.matchOperator, .nextToken, .advance, .peek (-2)]).place = ⟨2, 2⟩ := by
  rfl

end StatementLang
