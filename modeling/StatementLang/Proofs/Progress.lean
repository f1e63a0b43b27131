import StatementLang.Proofs.Characters
import StatementLang.Proofs.OnDemand

/-!
Cursors always come further.

A request for a token is answered with the end of the text, from behind the last character, or it
moves the cursor on, be the answer a token or a fault (`step_of_nextToken`). So whoever goes on
asking, also after faults, is told the end of the text after as many requests as there are
characters left, and then forever (`requests_come_to_the_end`).
-/

namespace StatementLang

namespace Cursor

/-- The cursor after so many requests for a token, whatever they were answered with. -/
def later (c : Cursor) : Nat → Cursor
  | 0 => c
  | n + 1 => (c.later n).nextToken.2

/-- What a request for a token comes to. -/
inductive Step (c : Cursor) : Except Failure Token × Cursor → Prop
  /-- The end of the text, where the cursor then stays. -/
  | done {t : Token} {c' : Cursor} (ht : t.IsEnd) (hend : c.source.length ≤ c'.position)
    (hstay : c'.nextToken = (.ok t, c')) : Step c (.ok t, c')
  | token {t : Token} {c' : Cursor} (ht : ¬ t.IsEnd) (hlt : c.position < c'.position)
    (hleft : c'.left < c.left) : Step c (.ok t, c')
  | fault {e : LexError} {c' : Cursor} (hlt : c.position < c'.position)
    (hleft : c'.left < c.left) : Step c (.error (.lexical e), c')

variable {c : Cursor} {t : Token}

lemma length_reader (c : Cursor) :
    c.reader.rest.length = c.source.length - c.position.toNat := List.length_drop

lemma position_moveTo {r : Reader} (h : 0 ≤ c.position)
    (hlt : r.rest.length < c.reader.rest.length) :
    c.position < (c.moveTo r).position ∧ (c.moveTo r).left < c.left := by
  have hlength := length_reader c
  have hposition : (c.moveTo r).position =
      c.position + ((c.reader.rest.length : Int) - r.rest.length) := rfl
  have hsource : (c.moveTo r).source = c.source := rfl
  simp only [left, hposition, hsource]
  omega

lemma moveTo_end {r : Reader} (h : 0 ≤ c.position) (hnil : r.rest = []) :
    c.source.length ≤ (c.moveTo r).position ∧ (c.moveTo r).reader = r ∧
      (c.moveTo r).moveTo r = c.moveTo r := by
  have hlength := length_reader c
  have hposition : (c.moveTo r).position = c.position + c.reader.rest.length := by
    simp [moveTo, hnil]
  have hend : c.source.length ≤ (c.moveTo r).position := by omega
  have hsource : (c.moveTo r).source = c.source := rfl
  have hreader : (c.moveTo r).reader = r := by
    rw [reader, hsource, List.drop_eq_nil_iff.2 (by omega), ← hnil]
    rfl
  refine ⟨hend, hreader, ?_⟩
  rw [moveTo, hreader, Int.sub_self, Int.add_zero]
  rfl

/-- **Every request comes to the end or further.** -/
theorem step_of_nextToken (h : 0 ≤ c.position) : c.Step c.nextToken := by
  rw [nextToken_eq h]
  -- A fault and a token use up characters; only the end of the text may use up none.
  rcases hnext : c.reader.next with ⟨e | t, r⟩
  · have hlt : r.rest.length < c.reader.rest.length := by
      have := Reader.length_rest_next (r := c.reader) (by simp [hnext])
      rwa [hnext] at this
    obtain ⟨hposition, hleft⟩ := position_moveTo h hlt
    exact .fault hposition hleft
  · by_cases ht : t.IsEnd
    · have hnil : r.rest = [] := by
        have hrest := Reader.rest_of_end hnext ht
        rw [Reader.next_of_nil rfl hrest] at hnext
        cases hnext
        exact hrest
      obtain ⟨hend, hreader, hstay⟩ := moveTo_end h hnil
      refine .done ht hend ?_
      have hposition : 0 ≤ (c.moveTo r).position := by omega
      rw [nextToken_eq hposition, hreader, Reader.next_of_end hnext ht, hstay]
      rfl
    · have hlt : r.rest.length < c.reader.rest.length := by
        have := Reader.length_rest_next (r := c.reader) (by simp [hnext, ht])
        rwa [hnext] at this
      obtain ⟨hposition, hleft⟩ := position_moveTo h hlt
      exact .token ht hposition hleft

lemma source_nextToken (h : 0 ≤ c.position) : c.nextToken.2.source = c.source := by
  rw [nextToken_eq h]
  rfl

/-! ### Any number of requests -/

lemma later_succ (c : Cursor) (n : Nat) : c.later (n + 1) = c.nextToken.2.later n := by
  induction n with
  | zero => rfl
  | succ n ih => rw [later, ih, later]

lemma position_nextToken (h : 0 ≤ c.position) : 0 ≤ c.nextToken.2.position := by
  have hstep := step_of_nextToken h
  generalize c.nextToken = r at hstep
  cases hstep <;> dsimp only <;> omega

lemma later_inside (h : 0 ≤ c.position) (n : Nat) :
    0 ≤ (c.later n).position ∧ (c.later n).source = c.source := by
  induction n with
  | zero => exact ⟨h, rfl⟩
  | succ n ih =>
    obtain ⟨hposition, hsource⟩ := ih
    exact ⟨position_nextToken hposition, (source_nextToken hposition).trans hsource⟩

lemma exists_end (h : 0 ≤ c.position) :
    ∃ n ≤ c.left, ∃ t, (c.later n).nextToken.1 = .ok t ∧ t.IsEnd := by
  induction hleft : c.left using Nat.strongRecOn generalizing c with
  | _ k ih =>
    subst hleft
    have hposition := position_nextToken h
    have hstep := step_of_nextToken h
    have hlater : ∀ c', c.nextToken.2 = c' → c'.left < c.left →
        ∃ n ≤ c.left, ∃ t, (c.later n).nextToken.1 = .ok t ∧ t.IsEnd := by
      rintro c' rfl hlt
      obtain ⟨n, hn, t, ht, hend⟩ := ih _ hlt hposition rfl
      exact ⟨n + 1, by omega, t, by rw [later_succ, ht], hend⟩
    rcases hnext : c.nextToken with ⟨a, c'⟩
    rw [hnext] at hstep
    cases hstep with
    | @done t _ ht => exact ⟨0, Nat.zero_le _, t, congrArg Prod.fst hnext, ht⟩
    | token _ _ hlt => exact hlater c' (congrArg Prod.snd hnext) hlt
    | fault _ hlt => exact hlater c' (congrArg Prod.snd hnext) hlt

lemma later_of_end (h : 0 ≤ c.position) {n : Nat} (hn : (c.later n).nextToken.1 = .ok t)
    (ht : t.IsEnd) {m : Nat} (hm : n ≤ m) :
    (c.later m).nextToken.1 = .ok t ∧ c.later (m + 1) = c.later (n + 1) := by
  have hstay : (c.later (n + 1)).nextToken = (.ok t, c.later (n + 1)) := by
    have hstep := step_of_nextToken (later_inside h n).1
    have hpair : (c.later n).nextToken = (.ok t, c.later (n + 1)) := Prod.ext hn rfl
    rw [hpair] at hstep
    cases hstep with
    | done _ _ hstay => exact hstay
    | token hnot => exact absurd ht hnot
  induction m, hm using Nat.le_induction with
  | base => exact ⟨hn, rfl⟩
  | succ m hm ih =>
    have hnext : (c.later (m + 1)).nextToken = (.ok t, c.later (n + 1)) := by rw [ih.2, hstay]
    exact ⟨congrArg Prod.fst hnext, by rw [later, hnext]⟩

end Cursor

/-- **Requests come to the end.** Whatever they were answered with so far, a request for a token is
answered with the end of the text, from behind its last character, or it moves the cursor on and is
answered with another token or with a fault of the text; it never fails otherwise, also if the
characters are taken one by one. The end comes after as many other requests as the text has
characters, and then every request is answered with it and leaves the cursor as it is. -/
theorem requests_come_to_the_end {c : Cursor} (h : 0 ≤ c.position) :
    (∀ n, (c.later n).readToken = (c.later n).nextToken ∧
      (c.later (n + 1)).source = c.source ∧
      ((∃ t, (c.later n).nextToken.1 = .ok t ∧ t.IsEnd ∧
          c.source.length ≤ (c.later (n + 1)).position) ∨
        (c.later n).position < (c.later (n + 1)).position ∧
          ((∃ t, (c.later n).nextToken.1 = .ok t ∧ ¬ t.IsEnd) ∨
            ∃ e, (c.later n).nextToken.1 = .error (.lexical e)))) ∧
    (∃ n ≤ c.source.length, ∃ t, (c.later n).nextToken.1 = .ok t ∧ t.IsEnd) ∧
    ∀ n t, (c.later n).nextToken.1 = .ok t → t.IsEnd → ∀ m, n ≤ m →
      (c.later m).nextToken.1 = .ok t ∧ c.later (m + 1) = c.later (n + 1) := by
  refine ⟨fun n => ?_, ?_, fun n t hn ht m hm => Cursor.later_of_end h hn ht hm⟩
  · obtain ⟨hposition, hsource⟩ := Cursor.later_inside h n
    refine ⟨Cursor.readToken_eq_nextToken hposition, (Cursor.later_inside h (n + 1)).2, ?_⟩
    have hstep := Cursor.step_of_nextToken hposition
    have hlater : c.later (n + 1) = (c.later n).nextToken.2 := rfl
    rw [hlater]
    generalize (c.later n).nextToken = r at hstep ⊢
    cases hstep with
    | done ht hend => exact .inl ⟨_, rfl, ht, hsource ▸ hend⟩
    | token ht hlt => exact .inr ⟨hlt, .inl ⟨_, rfl, ht⟩⟩
    | fault hlt => exact .inr ⟨hlt, .inr ⟨_, rfl⟩⟩
  · obtain ⟨n, hn, hend⟩ := Cursor.exists_end h
    have hleft : c.left ≤ c.source.length := by
      unfold Cursor.left
      omega
    exact ⟨n, hn.trans hleft, hend⟩

theorem requests_come_to_the_end_openString :
    (Cursor.ofText "a 'b" 1 ⟨7, 0⟩).nextToken.1 =
        .error (.lexical ⟨.openString, ⟨7, 1⟩⟩) ∧
      ∃ n ≤ 4, ∃ t, ((Cursor.ofText "a 'b" 1 ⟨7, 0⟩).later n).nextToken.1 = .ok t ∧ t.IsEnd ∧
        ∀ m, n ≤ m → ((Cursor.ofText "a 'b" 1 ⟨7, 0⟩).later m).nextToken.1 = .ok t := by
  obtain ⟨-, ⟨n, hn, t, ht, hend⟩, hforever⟩ :=
    requests_come_to_the_end (c := Cursor.ofText "a 'b" 1 ⟨7, 0⟩) (by decide)
  exact ⟨rfl, n, hn, t, ht, hend, fun m hm => (hforever n t ht hend m hm).1⟩

end StatementLang
