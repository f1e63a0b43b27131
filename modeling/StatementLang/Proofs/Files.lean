import StatementLang.Proofs.Twins

/-!
Programs in files.

A program in a file is checked as the text that is read from the file, in which the line ends are
unified. That is no matter to the check as long as it is none to the strings: the verdict is the
one on the text itself, and what is reported is about the same point of the text
(`files_are_checked_like_texts`). A return inside a string does matter, and one by itself is counted
as a line (`return_tells_file_from_text`).
-/

namespace StatementLang

open Lexeme Nonterminal Text Session

variable {readFile : String → Except ReadFailure ByteArray} {name text label : String}

/-- The text in memory when a text has been written to a file and read from it. -/
def reread (text : String) : String := String.ofList (unifyNewlines text.toList)

lemma decodeText_toUTF8 (text : String) : decodeText text.toUTF8 = .ok (reread text) := by
  have hdecode : String.fromUTF8? text.toUTF8 = some text := dif_pos text.isValidUTF8
  rw [decodeText, hdecode]
  rfl

lemma check_file (hfile : readFile name = .ok text.toUTF8) (trace : Bool) :
    check readFile (.file name) trace = checkText name (reread text) trace := by
  have hread : ProgramText.read readFile (.file name) = .ok (reread text) := by
    rw [ProgramText.read, hfile]
    exact decodeText_toUTF8 text
  rw [check, hread]
  rfl

lemma check_given (readFile : String → Except ReadFailure ByteArray) (text : String)
    (trace : Bool) : check readFile (.given text) trace = checkText "<string>" text trace := rfl

lemma not_mem_reread (text : String) : '\r' ∉ (reread text).toList := by
  rw [reread, String.toList_ofList]
  exact not_mem_unifyNewlines _

lemma reread_reread (text : String) : reread (reread text) = reread text := by
  rw [reread, unifyNewlines_of_not_mem (not_mem_reread text), String.ofList_toList]

lemma stringsKept_of_tokenize {ts us : List Token} (h : tokenize text = .ok ts)
    (h' : tokenize (reread text) = .ok us) : StringsKept text.toList := by
  rintro before quote after htext hcomes hq
  have hclosed : IsClosed quote after := by
    by_contra hopen
    exact not_isFaulty_of_ok h htext hcomes (.string hq hopen)
  have hcut (as : List Char) : Cut as (quote :: after) := by
    refine cut_of_head ?_ as
    rintro c ⟨⟩
    rcases hq with rfl | rfl <;> decide
  have hreread : (reread text).toList = unifyNewlines (before ++ quote :: after) := by
    rw [reread, String.toList_ofList, htext]
  have hclosed' : IsClosed quote (unifyNewlines after) := by
    by_contra hopen
    rcases comesTo_unified_or_open hcut hcomes with hcomes' | ⟨_, _, hunified, hcomes', hfaulty⟩
    · rw [unifyNewlines_append (hcut _)] at hreread
      rw [unifyNewlines_quote_cons hq] at hreread hcomes'
      exact not_isFaulty_of_ok h' hreread hcomes' (.string hq hopen)
    · exact not_isFaulty_of_ok h' (hreread.trans hunified) hcomes' hfaulty
  exact iff_of_true hclosed hclosed'

lemma twin_reread (hkept : StringsKept text.toList) :
    Reader.Twin text.toList (.ofText text) (.ofText (reread text)) where
  exists_before := ⟨[], rfl, cut_of_not_mem List.not_mem_nil _, rfl, by
    rw [unifyNewlines_nil]
    rfl⟩
  rest_eq := String.toList_ofList
  kept := hkept

lemma sameEnd_reread (hkept : StringsKept text.toList) (sink sink' : Sink) :
    SameEnd (SameToken text.toList) (SameFault text.toList) sink.label sink'.label
      (deriveFrom .language (.ofText text) sink).1
      (deriveFrom .language (.ofText (reread text)) sink').1 :=
  deriveFrom_tandem (twin_reread hkept).inTandem (fun _ _ h => h.kind_eq) sink sink'

/-! ### What is reported -/

/-- What is written about a rejected token of a given value on a given line: one line for each open
phrase, the outermost first, and one for the token. -/
def Report.rejection (label : String) (phrases : List String) (expected value : String)
    (line : Int) : String :=
  let trail := phrases.map (fun name => name ++ " at line " ++ toString line) ++
    ["Token: \"" ++ value ++ "\" at line " ++ toString line ++ ". In file " ++ label ++ ". " ++
      expected ++ " is expected"]
  Printer.textOf (("Syntax error in " ++ label ++ ":") ::
    trail.mapIdx fun i message => String.ofList (List.replicate (2 * (i + 1)) ' ') ++ message)

lemma grammarErrors_of_isAbout {e : GrammarError} {phrases : List String} {expected : String}
    {t : Token} (h : e.IsAbout label phrases expected t) :
    Report.grammarErrors label e = Report.rejection label phrases expected t.value t.line := by
  have htrail : e.trail = phrases.map (fun name => name ++ " at line " ++ toString t.line) ++
      ["Token: \"" ++ t.value ++ "\" at line " ++ toString t.line ++ ". In file " ++ label ++
        ". " ++ expected ++ " is expected"] := by
    rw [GrammarError.trail, h.chain_eq, List.map_append, List.map_map]
    rfl
  rw [grammarErrors_eq, htrail]
  rfl

/-- Two reports under their labels tell the same: that a program is accepted; or that a token is
rejected inside the same phrases, where the same was expected; or that a lexeme is faulty in the
same way. The tokens or lexemes stand at related places and have related values. -/
inductive SameReport (label label' : String) (point : Place → Place → Prop)
    (value : String → String → Prop) (r r' : Report) : Prop
  | accepted (h : r.verdict = .ok true ∧ r.errors = "")
    (h' : r'.verdict = .ok true ∧ r'.errors = "")
  | rejected {p q : Place} {v w : String} (hpoint : point p q) (hvalue : value v w)
    (phrases : List String) (expected : String)
    (h : r.verdict = .ok false ∧ r.errors = Report.rejection label phrases expected v p.line)
    (h' : r'.verdict = .ok false ∧ r'.errors = Report.rejection label' phrases expected w q.line)
  | faulty {p q : Place} (hpoint : point p q) (fault : Fault)
    (h : r.verdict = .ok false ∧ r.errors = Report.lexicalErrors label ⟨fault, p⟩)
    (h' : r'.verdict = .ok false ∧ r'.errors = Report.lexicalErrors label' ⟨fault, q⟩)

namespace SameReport

variable {label' : String} {point point' : Place → Place → Prop}
  {value value' : String → String → Prop} {r r' : Report}

lemma mono (h : SameReport label label' point value r r') (hpoint : ∀ p q, point p q → point' p q)
    (hvalue : ∀ v w, value v w → value' v w) : SameReport label label' point' value' r r' := by
  cases h with
  | accepted h h' => exact .accepted h h'
  | rejected hp hv phrases expected h h' =>
    exact .rejected (hpoint _ _ hp) (hvalue _ _ hv) phrases expected h h'
  | faulty hp fault h h' => exact .faulty (hpoint _ _ hp) fault h h'

lemma verdict_eq (h : SameReport label label' point value r r') : r'.verdict = r.verdict := by
  cases h with
  | accepted h h' => rw [h.1, h'.1]
  | rejected _ _ _ _ h h' => rw [h.1, h'.1]
  | faulty _ _ h h' => rw [h.1, h'.1]

end SameReport

lemma sameReport_reread (hkept : StringsKept text.toList) (label label' : String) (trace : Bool) :
    SameReport label label' (SamePoint text.toList)
      (fun v w => w = reread v ∧ (ReturnsPaired text.toList → w = v))
      (checkText label text trace) (checkText label' (reread text) trace) := by
  have hend := sameEnd_reread hkept (checkSink label trace) (checkSink label' trace)
  rw [checkText_eq, checkText_eq]
  generalize (deriveFrom .language (.ofText text) (checkSink label trace)).1 = outcome at hend ⊢
  generalize (deriveFrom .language (.ofText (reread text)) (checkSink label' trace)).1 =
    outcome' at hend ⊢
  cases hend with
  | reached =>
    exact .accepted ⟨rfl, Report.errors_ofOutcome ..⟩ ⟨rfl, Report.errors_ofOutcome ..⟩
  | @rejected t u e e' phrases expected hsame he he' =>
    refine .rejected hsame.point ⟨hsame.value_eq, fun hpaired => ?_⟩ phrases expected
      ⟨rfl, (Report.errors_ofOutcome ..).trans (grammarErrors_of_isAbout he)⟩
      ⟨rfl, (Report.errors_ofOutcome ..).trans (grammarErrors_of_isAbout he')⟩
    rw [hsame.value_eq, unifyNewlines_of_not_mem (hsame.not_mem_return hpaired),
      String.ofList_toList]
  | @fault e e' hsame =>
    refine .faulty hsame.point e.fault ⟨rfl, Report.errors_ofOutcome ..⟩
      ⟨rfl, (Report.errors_ofOutcome ..).trans ?_⟩
    rw [← hsame.fault_eq]
    rfl

lemma sameReport_of_paired (hkept : StringsKept text.toList) (hpaired : ReturnsPaired text.toList)
    (label label' : String) (trace : Bool) : SameReport label label' Eq Eq
      (checkText label text trace) (checkText label' (reread text) trace) :=
  (sameReport_reread hkept label label' trace).mono
    (fun _ _ hsame => (hsame.eq_of_paired hpaired).symm) fun _ _ hvalue => (hvalue.2 hpaired).symm

lemma verdict_checkText (label text : String) (trace : Bool) :
    ((checkText label text trace).verdict = .ok true ↔ IsProgram text) ∧
      ((checkText label text trace).verdict = .ok false ↔ ¬ IsProgram text) := by
  have hok : (deriveFrom .language (.ofText text) (checkSink label trace)).1 = .ok () ↔
      IsProgram text := deriveFrom_ok_iff
  rw [checkText_eq, ← hok]
  rcases deriveFrom_cases .language (.ofText text) (checkSink label trace) with
    h | ⟨e, h⟩ | ⟨e, h⟩ <;> simp [h, Report.ofOutcome]

lemma isSpelling_begin : IsSpelling .kwBegin "begin".toList "begin".toList := .keyword (by decide)

lemma isSpelling_end : IsSpelling .kwEnd "end".toList "end".toList := .keyword (by decide)

lemma isSpelling_x : IsSpelling .identifier ['x'] ['x'] :=
  .identifier (by decide) (List.forall_mem_nil _) fun _ h => absurd (mem_spellings h) (by decide)

lemma isSpelling_becomes : IsSpelling .becomes [':', '='] [':', '='] := .operator (by decide)

lemma blank_nil : ∀ c ∈ ([] : List Char), isBlank c = true := List.forall_mem_nil _

/-- What stands before the value that is assigned. -/
def assigned : List Piece :=
  [⟨[], .kwBegin, _, _, blank_nil, isSpelling_begin⟩,
   ⟨[' '], .identifier, _, _, blank_space, isSpelling_x⟩,
   ⟨[' '], .becomes, _, _, blank_space, isSpelling_becomes⟩]

def assigning {body gap : List Char} (hbody : IsBody '"' body) (hne : gap ≠ [])
    (hgap : ∀ c ∈ gap, isBlank c = true) : Layout where
  pieces := assigned ++
    [⟨[' '], .string, body, _, blank_space, .string (.inl rfl) hbody⟩,
     ⟨gap, .kwEnd, _, _, hgap, isSpelling_end⟩]
  trailing := []
  blank := blank_nil
  separated := Piece.separated_of_blanks (by simpa [assigned] using hne) blank_nil

lemma isProgram_assigning {body gap : List Char} (hbody : IsBody '"' body) (hne : gap ≠ [])
    (hgap : ∀ c ∈ gap, isBlank c = true) : IsProgram (assigning hbody hne hgap).text := by
  have htokens := tokenize_eq_ok_iff.2 ⟨assigning hbody hne hgap, rfl, rfl⟩
  rw [Layout.tokens, Piece.tokens_eq] at htokens
  have hform : Word statement [.identifier, .becomes, .string] := .form (by decide) .assignString
  have hlist : Word statementList [.identifier, .becomes, .string] :=
    .list (l := []) hform (by simp) (.inl rfl)
  exact ⟨_, _, htokens, ⟨_, .part hlist, rfl⟩, rfl⟩

/-- What stands before a string that is open in the file. -/
def beforeOpen (rest : List Char) : Lead rest where
  pieces := assigned
  blanks := [' ']
  blank := blank_space
  separated := (Piece.separated_of_blanks (by simp [assigned]) blank_space).of_head fun c hc =>
    .inr (by cases hc; rfl)

/-! ### Files and texts -/

/-- **A file is checked like its text.** With a text written to a file, the check of the file tells
the same as the check of the text with its line ends unified. It tells the same as the check of the
text itself, about the same point of the text, if unifying the line ends closes no string and opens
none, and a program is accepted both ways only then. The line is the same as well if every return
stands before a line feed. -/
theorem files_are_checked_like_texts (hfile : readFile name = .ok text.toUTF8) (trace : Bool) :
    SameReport "<string>" name Eq Eq
      (check readFile (.given (reread text)) trace) (check readFile (.file name) trace) ∧
    (StringsKept text.toList → SameReport "<string>" name (SamePoint text.toList)
      (fun v w => w = reread v)
      (check readFile (.given text) trace) (check readFile (.file name) trace)) ∧
    ((check readFile (.given text) trace).verdict = .ok true →
      (check readFile (.file name) trace).verdict = .ok true → StringsKept text.toList) ∧
    (StringsKept text.toList → ReturnsPaired text.toList → SameReport "<string>" name Eq Eq
      (check readFile (.given text) trace) (check readFile (.file name) trace)) := by
  rw [check_file hfile, check_given, check_given]
  refine ⟨?_, fun hkept => ?_, fun h h' => ?_,
    fun hkept hpaired => sameReport_of_paired hkept hpaired _ _ trace⟩
  · have hreturn := not_mem_reread text
    have h := sameReport_of_paired (.of_not_mem hreturn) (.of_not_mem hreturn) "<string>" name trace
    rwa [reread_reread] at h
  · exact (sameReport_reread hkept _ _ trace).mono (fun _ _ hsame => hsame) fun _ _ h => h.1
  · obtain ⟨us, t, htokens, -⟩ := (verdict_checkText _ _ trace).1.1 h
    obtain ⟨us', t', htokens', -⟩ := (verdict_checkText _ _ trace).1.1 h'
    exact stringsKept_of_tokenize htokens htokens'

theorem files_are_checked_like_texts_pairedReturn :
    let text := "begin x := \"a\"\r\nend"
    ∃ readFile : String → Except ReadFailure ByteArray, readFile "p.txt" = .ok text.toUTF8 ∧
      (check readFile (.file "p.txt") false).verdict = .ok true := by
  intro text
  have hbody : IsBody '"' ['a'] := .plain (by decide) (by decide) (by decide) .nil
  have hgap : ∀ c ∈ ['\r', '\n'], isBlank c = true :=
    List.forall_mem_cons.2 ⟨rfl, blank_line⟩
  have hprogram : IsProgram text := isProgram_assigning hbody (by decide) hgap
  obtain ⟨readFile, hfile⟩ : ∃ readFile : String → Except ReadFailure ByteArray,
      readFile "p.txt" = .ok text.toUTF8 := ⟨fun _ => .ok text.toUTF8, rfl⟩
  have hsame := (files_are_checked_like_texts hfile false).2.2.2
    (stringsKept_of_paired (by decide) (by decide)) (by decide)
  refine ⟨readFile, hfile, ?_⟩
  rw [hsame.verdict_eq]
  exact (verdict_checkText "<string>" text false).1.2 hprogram

/-- **A return tells a file from its text.** Inside a string it is a character of the text, but ends
the line in the file; by itself it is a blank in the text, but counts as a line in the file. -/
theorem return_tells_file_from_text :
    (check (fun _ => .ok "begin x := \"a\rb\" end".toUTF8)
        (.given "begin x := \"a\rb\" end") false).verdict = .ok true ∧
      (check (fun _ => .ok "begin x := \"a\rb\" end".toUTF8) (.file "p.txt") false).verdict =
        .ok false ∧
      (check (fun _ => .ok "\r1.".toUTF8) (.given "\r1.") false).errors =
        "Lexical error in <string>: Invalid number format at line 1, col 2\n" ∧
      (check (fun _ => .ok "\r1.".toUTF8) (.file "p.txt") false).errors =
        "Lexical error in p.txt: Invalid number format at line 2, col 1\n" := by
  have hbody : IsBody '"' ['a', '\r', 'b'] :=
    .plain (by decide) (by decide) (by decide) (.plain (by decide) (by decide) (by decide)
      (.plain (by decide) (by decide) (by decide) .nil))
  have hopen : ¬ IsClosed '"' ['a', '\n', 'b', '"', ' ', 'e', 'n', 'd'] :=
    mt (isClosed_plain_iff (by decide) (by decide) (by decide)).1 (not_isClosed_line (.inl rfl))
  have herror : tokenize (reread "begin x := \"a\rb\" end") =
      .error ⟨.openString, .behind (beforeOpen _).chars⟩ :=
    tokenize_eq_error_iff.2 ⟨_, _, by decide, ⟨beforeOpen _, rfl⟩, .string (.inl rfl) hopen, rfl⟩
  have hprogram : IsProgram "begin x := \"a\rb\" end" :=
    isProgram_assigning hbody (by decide) blank_space
  refine ⟨(verdict_checkText _ _ false).1.2 hprogram, ?_, ?_, ?_⟩
  · rw [check_file rfl]
    refine (verdict_checkText _ _ false).2.2 ?_
    rintro ⟨us, t, htokens, -⟩
    rw [herror] at htokens
    cases htokens
  · decide
  · rw [check_file rfl]
    decide

end StatementLang
