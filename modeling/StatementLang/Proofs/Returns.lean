import StatementLang.Proofs.Files

/-!
Texts whose lines end with a return and a line feed.

Unifying the line ends of such a text gives back the text with the line feeds alone, and a reader
of the one and a reader of the other stand side by side (`Reader.Twin`). A return that stands before
a line feed is not seen in any token or fault, nor in the place of one (`Reader.Twin.readAll_eq`),
so the two texts are read as the same tokens or the same fault (`returned_lines_are_read_alike`).
-/

namespace StatementLang

open Lexeme Text

namespace Text

/-- Puts a return before every line feed. -/
def returned : List Char → List Char
  | [] => []
  | c :: cs => if c = '\n' then '\r' :: '\n' :: returned cs else c :: returned cs

/-- No line feed stands directly behind a backslash. -/
abbrev LinesUnescaped : List Char → Prop := Followed fun c d => c = '\\' → d ≠ some '\n'

variable {c : Char} {cs : List Char}

lemma returned_line (cs : List Char) : returned ('\n' :: cs) = '\r' :: '\n' :: returned cs := by
  rw [returned, if_pos rfl]

lemma returned_cons (h : c ≠ '\n') : returned (c :: cs) = c :: returned cs := by
  rw [returned, if_neg h]

lemma unifyNewlines_returned (h : '\r' ∉ cs) : unifyNewlines (returned cs) = cs := by
  induction cs with
  | nil => exact unifyNewlines_nil
  | cons c cs ih =>
    rw [List.mem_cons, not_or] at h
    by_cases hc : c = '\n'
    · rw [hc, returned_line, unifyNewlines, ih h.2]
    · rw [returned_cons hc, unifyNewlines_cons (Ne.symm h.1), ih h.2]

lemma head?_returned (h : '\r' ∉ cs) (hhead : (returned cs).head? = some '\r') :
    cs.head? = some '\n' := by
  rcases cs with _ | ⟨c, cs⟩
  · cases hhead
  · by_cases hc : c = '\n'
    · rw [hc, List.head?_cons]
    · rw [returned_cons hc, List.head?_cons, Option.some.injEq] at hhead
      rw [hhead] at h
      exact absurd List.mem_cons_self h

lemma returnsPaired_returned (h : '\r' ∉ cs) : ReturnsPaired (returned cs) := by
  induction cs with
  | nil => trivial
  | cons c cs ih =>
    rw [List.mem_cons, not_or] at h
    by_cases hc : c = '\n'
    · rw [hc, returned_line]
      exact ⟨fun _ => rfl, nofun, ih h.2⟩
    · rw [returned_cons hc]
      exact ⟨fun hr => absurd hr.symm h.1, ih h.2⟩

lemma returnsUnescaped_returned (h : '\r' ∉ cs) (hescape : LinesUnescaped cs) :
    ReturnsUnescaped (returned cs) := by
  induction cs with
  | nil => trivial
  | cons c cs ih =>
    rw [List.mem_cons, not_or] at h
    by_cases hc : c = '\n'
    · rw [hc, returned_line]
      exact ⟨nofun, nofun, ih h.2 hescape.2⟩
    · rw [returned_cons hc]
      exact ⟨fun hb hhead => hescape.1 hb (head?_returned h.2 hhead), ih h.2 hescape.2⟩

end Text

/-! ### Readers of both -/

lemma SameToken.eq_of_paired {text : List Char} {t u : Token} (h : SameToken text t u)
    (hpaired : ReturnsPaired text) : u = t := by
  have hvalue : u.value = t.value := by
    rw [h.value_eq, unifyNewlines_of_not_mem (h.not_mem_return hpaired), String.ofList_toList]
  obtain ⟨hline, hcolumn⟩ := Place.mk.injEq .. ▸ h.point.eq_of_paired hpaired
  calc u = ⟨u.kind, u.value, u.line, u.column⟩ := rfl
    _ = t := by rw [h.kind_eq, hvalue, hline, hcolumn]

lemma SameFault.eq_of_paired {text : List Char} {e e' : LexError} (h : SameFault text e e')
    (hpaired : ReturnsPaired text) : e' = e :=
  calc e' = ⟨e'.fault, e'.place⟩ := rfl
    _ = e := by rw [h.fault_eq, h.point.eq_of_paired hpaired]

/-- **Returns before line feeds are not seen**: twins read the same tokens up to the same fault. -/
theorem Reader.Twin.readAll_eq {text : List Char} {r r' : Reader} (h : Twin text r r')
    (hpaired : ReturnsPaired text) : r'.readAll = r.readAll := by
  fun_induction readAll r generalizing r' with
  | case1 r e r₁ hnext =>
    rcases h.next with ⟨t, u, ht, -⟩ | ⟨e₁, e', he, he', hsame⟩
    · rw [hnext] at ht
      cases ht
    · rw [hnext] at he
      obtain rfl := Except.error.inj he
      rw [hsame.eq_of_paired hpaired] at he'
      exact readAll_of_error (Prod.ext he' rfl)
  | case2 r t r₁ hnext ht =>
    rcases h.next with ⟨t₁, u, ht₁, hu, hsame, -⟩ | ⟨e, e', he, -⟩
    · rw [hnext] at ht₁
      obtain rfl := Except.ok.inj ht₁
      rw [hsame.eq_of_paired hpaired] at hu
      exact readAll_of_end (Prod.ext hu rfl) ht
    · rw [hnext] at he
      cases he
  | case3 r t r₁ hnext ht _ ts fault hall ih =>
    rcases h.next with ⟨t₁, u, ht₁, hu, hsame, htwin⟩ | ⟨e, e', he, -⟩
    · rw [hnext] at ht₁ htwin
      obtain rfl := Except.ok.inj ht₁
      rw [hsame.eq_of_paired hpaired] at hu
      rw [readAll_of_token (Prod.ext hu rfl) ht, ih htwin, hall]
    · rw [hnext] at he
      cases he

/-! ### Texts with returns -/

def returnedText (text : String) : String := String.ofList (returned text.toList)

lemma toList_returnedText (text : String) : (returnedText text).toList = returned text.toList :=
  String.toList_ofList

lemma reread_returnedText {text : String} (h : '\r' ∉ text.toList) :
    reread (returnedText text) = text := by
  rw [reread, toList_returnedText, unifyNewlines_returned h, String.ofList_toList]

/-- **Lines that end with a return and a line feed are read alike.** A text without returns, in
which no line feed is escaped, has the same tokens when a return stands before each of its line
feeds, with the same kinds, values and places; or it has the same fault at the same place. -/
theorem returned_lines_are_read_alike {text : String} (hreturn : '\r' ∉ text.toList)
    (hescape : LinesUnescaped text.toList) : tokenize (returnedText text) = tokenize text := by
  have hpaired : ReturnsPaired (returnedText text).toList := by
    rw [toList_returnedText]
    exact returnsPaired_returned hreturn
  have hunescaped : ReturnsUnescaped (returnedText text).toList := by
    rw [toList_returnedText]
    exact returnsUnescaped_returned hreturn hescape
  have htwin := twin_reread (stringsKept_of_paired hpaired hunescaped)
  have hall := htwin.readAll_eq hpaired
  rw [reread_returnedText hreturn] at hall
  rw [tokenize, tokenize, hall]

theorem returned_lines_are_read_alike_brokenLine :
    ('\r' ∉ "x :=\n2".toList ∧ LinesUnescaped "x :=\n2".toList ∧
      tokenize "x :=\r\n2" = .ok
        [⟨.known .identifier, "x", 1, 1⟩, ⟨.known .becomes, ":=", 1, 3⟩,
         ⟨.known .number, "2", 2, 1⟩, .atEnd 2 2]) ∧
    '\r' ∉ "x\n'a\n'".toList ∧ LinesUnescaped "x\n'a\n'".toList ∧
      tokenize "x\r\n'a\r\n'" = .error ⟨.openString, ⟨2, 1⟩⟩ := by
  refine ⟨⟨by decide, by decide, ?_⟩, by decide, by decide, ?_⟩
  · have halike : tokenize (returnedText "x :=\n2") = tokenize "x :=\n2" :=
      returned_lines_are_read_alike (by decide) (by decide)
    exact halike.trans tokenize_brokenLine
  · have halike : tokenize (returnedText "x\n'a\n'") = tokenize "x\n'a\n'" :=
      returned_lines_are_read_alike (by decide) (by decide)
    exact halike.trans (by decide +kernel)

end StatementLang
