import Mathlib.Data.List.DropRight
import StatementLang.Proofs.Expected
import StatementLang.Proofs.Lookahead
import StatementLang.Proofs.Printout
import StatementLang.Proofs.Returns

/-!
The lines of an error report.

The report on a rejected token has a line for each layer of the error. Names of phrases, numbers
and expectations hold no line feed, but the value of the token is written as it is, and a string can
hold a line feed that is escaped (`TokenSource.of_mem_line`). Such a report has more lines than
layers; all others are cut into their layers at the line feeds (`rejections_are_reported_by_lines`).
-/

namespace StatementLang

open Lexeme Text Session Printer

namespace Lexeme

variable {s : Symbol} {quote : Char} {value raw body rest : List Char}

lemma IsBody.not_mem_line (h : IsBody quote body) (hlines : LinesUnescaped (body ++ rest)) :
    '\n' ∉ body := by
  induction h with
  | nil => exact List.not_mem_nil
  | pair c h ih =>
    rintro (_ | ⟨_, _ | ⟨_, hn⟩⟩)
    · exact hlines.1 rfl rfl
    · exact ih hlines.2.2 hn
  | plain _ _ hne h ih =>
    rintro (_ | ⟨_, hn⟩)
    · exact hne rfl
    · exact ih hlines.2 hn

lemma IsSpelling.of_mem_line (h : IsSpelling s value raw) (hn : '\n' ∈ value) :
    s = .string ∧ ∀ rest, ¬ LinesUnescaped (raw ++ rest) := by
  rcases h.string_or_plain with ⟨quote, hq, hb, rfl, rfl⟩ | ⟨rfl, hr⟩
  · refine ⟨rfl, fun rest hlines => ?_⟩
    rw [List.cons_append, List.append_assoc] at hlines
    exact hb.not_mem_line hlines.2 hn
  · exact absurd hn (hr _ rfl)

end Lexeme

lemma Reader.of_mem_line {r r' : Reader} {t : Token} (h : r.next = (.ok t, r'))
    (hn : '\n' ∈ t.value.toList) : t.kind = .known .string ∧ ¬ LinesUnescaped r.rest := by
  rcases spelled_of_next h with ⟨-, rfl⟩ | ⟨s, value, raw, hspelling, -, hrest, -, rfl⟩
  · have hend : '\n' ∉ Symbol.endOfFile.code.toList := by decide
    exact absurd hn hend
  · rw [String.toList_ofList] at hn
    obtain ⟨rfl, hraw⟩ := hspelling.of_mem_line hn
    refine ⟨rfl, fun hlines => hraw r'.rest ?_⟩
    obtain ⟨blanks, hblanks⟩ : r.skipBlanks.rest <:+ r.rest := List.dropWhile_suffix _
    rw [← hblanks, hrest] at hlines
    exact hlines.right

theorem TokenSource.of_mem_line {text : String} {i : Nat} {t : Token}
    (h : (ofText text).answer i = .ok t) (hn : '\n' ∈ t.value.toList) :
    t.kind = .known .string ∧ ¬ LinesUnescaped text.toList := by
  obtain ⟨r, hr, before, hbefore⟩ := (Reader.ofText text).exists_after i
  have hnext : r.next.1 = .ok t := by
    rw [answer, ofText, hr] at h
    exact h
  obtain ⟨hkind, hlines⟩ := Reader.of_mem_line (Prod.ext hnext rfl) hn
  refine ⟨hkind, fun hall => hlines ?_⟩
  have htext : text.toList = before ++ r.rest := hbefore.symm
  rw [htext] at hall
  exact hall.right

lemma Grammar.Rejects.not_mem_line {k : Kind} {gs : List Goal} {x : Expectation}
    (h : Grammar.language.Rejects k gs x) : '\n' ∉ x.text.toList := by
  cases h with
  | @token x =>
    rw [Expectation.text_symbol]
    cases x <;> decide
  | @choice c x hc =>
    have hall : ∀ x ∈ c.expectations, '\n' ∉ x.text.toList := by cases c <;> decide
    exact hall x (mem_expectations hc)

lemma exists_rejected_token {a : TokenSource} {sink : Sink} {e : GrammarError}
    (h : (deriveFrom .language a sink).1 = .error (.grammar e)) :
    ∃ (i : Nat) (t : Token) (ns : List Nonterminal) (gs : List Goal) (x : Expectation),
      a.answer i = .ok t ∧ e.IsAbout sink.label (ns.map Nonterminal.name) x.text t ∧
      Grammar.language.Rejects t.kind gs x := by
  rcases h₀ : a.answer 0 with e' | t
  · rw [deriveFrom_of_error h₀] at h
    cases h
  · obtain ⟨s, rfl, hs, hrun⟩ := exists_run_of_ok (g := .language) h₀ sink
    have ho := run_outcome (g := Grammar.language) programGoals s
    rw [hrun] at h
    generalize run Grammar.language programGoals s = r at ho h
    cases ho with
    | reached | fault => cases h
    | @rejected us es gs' s' x hc ha hr =>
      rw [reject_within] at h
      cases h
      have habout := isAbout_rejection s' gs' x
      have hahead : Except.ok s'.lookahead = s.upcoming us.length := ha.upcoming_eq 0
      rw [ha.label_eq] at habout
      exact ⟨us.length, _, _, gs', x, by rw [hahead, hs], habout, hr⟩

/-! ### Texts without blanks at their ends -/

namespace Text

def spaceRanges : List (Nat × Nat) :=
  [(9, 13), (28, 32), (133, 133), (160, 160), (5760, 5760), (8192, 8202), (8232, 8233),
   (8239, 8239), (8287, 8287), (12288, 12288)]

def isSpace (c : Char) : Bool := inRanges c.toNat spaceRanges

/-- The text without the white space at its ends. -/
def strip (text : String) : String :=
  String.ofList ((text.toList.dropWhile isSpace).rdropWhile isSpace)

/-- The text begins and ends with something else than white space. -/
structure IsTrimmed (text : String) : Prop where
  head : ∃ c ∈ text.toList.head?, isSpace c = false
  last : ∃ c ∈ text.toList.getLast?, isSpace c = false

variable {a b : String}

lemma head_append (h : ∃ c ∈ a.toList.head?, isSpace c = false) (b : String) :
    ∃ c ∈ (a ++ b).toList.head?, isSpace c = false := by
  obtain ⟨c, hc, hspace⟩ := h
  refine ⟨c, ?_, hspace⟩
  rw [String.toList_append]
  exact List.mem_head?_append_of_mem_head? hc

lemma last_append (a : String) (h : ∃ c ∈ b.toList.getLast?, isSpace c = false) :
    ∃ c ∈ (a ++ b).toList.getLast?, isSpace c = false := by
  obtain ⟨c, hc, hspace⟩ := h
  refine ⟨c, ?_, hspace⟩
  rw [String.toList_append]
  exact List.mem_getLast?_append_of_mem_getLast? hc

lemma strip_blanks {line : String} (h : IsTrimmed line) (n : Nat) :
    strip (String.ofList (List.replicate n ' ') ++ line) = line := by
  obtain ⟨⟨c, hc, hfirst⟩, d, hd, hlast⟩ := h
  have hblanks : ∀ c ∈ List.replicate n ' ', isSpace c = true := fun c hc => by
    rw [List.eq_of_mem_replicate hc]
    decide
  have hstop : ∀ c ∈ line.toList.head?, isSpace c = false := fun c' hc' => by
    rwa [Option.mem_unique hc' hc]
  have hend : line.toList.rdropWhile isSpace = line.toList := by
    refine List.rdropWhile_eq_self_iff.2 fun hne => ?_
    rw [List.getLast?_eq_some_getLast hne, Option.mem_def, Option.some.injEq] at hd
    rw [hd, hlast]
    exact Bool.false_ne_true
  rw [strip, String.toList_append, String.toList_ofList, dropWhile_of_stop hblanks hstop, hend,
    String.ofList_toList]

end Text

lemma not_mem_toString (n : Int) : '\n' ∉ (toString n).toList := fun h =>
  absurd (isPrintable_toString n _ h) (by decide)

lemma isSpace_of_isDigit {c : Char} (h : c.isDigit = true) : isSpace c = false := by
  have hall : ∀ n < 58, 48 ≤ n → (!inRanges n spaceRanges) = true := by decide
  simpa [isSpace] using of_isDigit hall h

lemma last_toString (n : Int) : ∃ c ∈ (toString n).toList.getLast?, isSpace c = false := by
  have hnat (m : Nat) : ∃ c ∈ m.repr.toList.getLast?, isSpace c = false := by
    have hne : m.repr.toList ≠ [] := by
      rw [Nat.toList_repr]
      exact Nat.toDigits_ne_nil
    exact ⟨_, List.getLast?_eq_some_getLast hne,
      isSpace_of_isDigit (isDigit_of_mem_repr (List.getLast_mem hne))⟩
  cases n with
  | ofNat m => exact hnat m
  | negSucc m => exact last_append "-" (hnat m.succ)

namespace GrammarError

variable (line : Int) (n : Nonterminal)

lemma isTrimmed_layer : IsTrimmed (layer line n.name).message where
  head := head_append (head_append ⟨'<', by cases n <;> rfl, by decide⟩ _) _
  last := last_append _ (last_toString line)

lemma not_mem_layer : '\n' ∉ (layer line n.name).message.toList := by
  have hname : '\n' ∉ n.name.toList := by cases n <;> decide
  have hmark : '\n' ∉ lineMark.toList := by decide
  rw [layer, String.toList_append, String.toList_append, List.mem_append, List.mem_append]
  exact fun h => h.elim (·.elim hname hmark) (not_mem_toString line)

end GrammarError

namespace Sink

variable (label expected : String) (t : Token)

lemma message_violation : (violation ⟨label, .silent⟩ t expected).message =
    "Token: \"" ++ t.value ++ "\" at line " ++ toString t.line ++ ". In file " ++ label ++ ". " ++
      expected ++ " is expected" := rfl

lemma isTrimmed_violation : IsTrimmed (violation ⟨label, .silent⟩ t expected).message where
  head := by
    have hhead : ∃ c ∈ "Token: \"".toList.head?, isSpace c = false := ⟨'T', rfl, by decide⟩
    rw [message_violation]
    simp only [String.append_assoc]
    exact head_append hhead _
  last := last_append _ ⟨'d', rfl, by decide⟩

lemma count_violation (hlabel : '\n' ∉ label.toList) (hexpected : '\n' ∉ expected.toList) :
    (violation ⟨label, .silent⟩ t expected).message.toList.count '\n' =
      t.value.toList.count '\n' := by
  have hline := List.count_eq_zero.2 (not_mem_toString t.line)
  rw [message_violation]
  simpa [List.count_eq_zero.2 hlabel, List.count_eq_zero.2 hexpected] using hline

end Sink

/-! ### Lines -/

namespace Printer

lemma count_textOf {lines : List String} (h : ∀ l ∈ lines, '\n' ∉ l.toList) :
    (textOf lines).toList.count '\n' = lines.length := by
  induction lines with
  | nil => rfl
  | cons l ls ih =>
    obtain ⟨hl, hls⟩ := List.forall_mem_cons.1 h
    rw [toList_textOf_cons, List.count_append, List.count_cons_self, List.count_eq_zero.2 hl,
      ih hls, List.length_cons, Nat.zero_add]

lemma splitOn_textOf {lines : List String} (h : ∀ l ∈ lines, '\n' ∉ l.toList) :
    (textOf lines).toList.splitOn '\n' = lines.map String.toList ++ [[]] := by
  have htext : (textOf lines).toList = ['\n'].intercalate (lines.map String.toList ++ [[]]) := by
    clear h
    induction lines with
    | nil => rfl
    | cons l ls ih =>
      rw [toList_textOf_cons, ih, List.map_cons, List.cons_append,
        List.intercalate_cons_of_ne_nil (by simp), List.append_assoc]
      rfl
  rw [htext]
  refine List.splitOn_intercalate _ (fun cs hcs => ?_) (by simp)
  rcases List.mem_append.1 hcs with hcs | hcs
  · obtain ⟨l, hl, rfl⟩ := List.mem_map.1 hcs
    exact h l hl
  · rw [List.mem_singleton.1 hcs]
    exact List.not_mem_nil

end Printer

/-- The line for the message in the place `i` of a trail. -/
def Report.layerLine (i : Nat) (message : String) : String :=
  String.ofList (List.replicate (2 * (i + 1)) ' ') ++ message

/-- The lines of the report on an error: a heading and the messages of its layers, outermost first,
each two blanks further in than the one before. -/
def Report.layerLines (label : String) (e : GrammarError) : List String :=
  ("Syntax error in " ++ label ++ ":") :: e.trail.mapIdx layerLine

lemma Report.count_layerLine (i : Nat) (message : String) :
    (layerLine i message).toList.count '\n' = message.toList.count '\n' := by
  have hblanks : (List.replicate (2 * (i + 1)) ' ').count '\n' = 0 :=
    List.count_eq_zero.2 fun hmem => absurd (List.eq_of_mem_replicate hmem) (by decide)
  rw [layerLine, String.toList_append, String.toList_ofList, List.count_append, hblanks,
    Nat.zero_add]

lemma GrammarError.trail_eq (e : GrammarError) :
    e.trail = e.chain.dropLast.map Violation.message ++ [e.root.message] := by
  rw [trail, root, ← List.map_singleton, ← List.map_append, List.dropLast_append_getLast]

lemma GrammarError.nonterminals_eq (e : GrammarError) :
    e.nonterminals = e.trail.dropLast.map (before lineMark) := by
  rw [e.trail_eq, List.dropLast_concat, List.map_map]
  rfl

lemma Report.length_layerLines (label : String) (e : GrammarError) :
    (layerLines label e).length = 1 + e.trail.length := by
  rw [layerLines, List.length_cons, List.length_mapIdx, Nat.add_comm]

namespace GrammarError.IsAbout

variable {label expected : String} {e : GrammarError} {ns : List Nonterminal} {t : Token}

lemma root_eq (h : e.IsAbout label (ns.map Nonterminal.name) expected t) :
    e.root = (Sink.mk label .silent).violation t expected := by
  simp only [root, h.chain_eq, List.getLast_concat]

lemma isTrimmed (h : e.IsAbout label (ns.map Nonterminal.name) expected t) :
    ∀ m ∈ e.trail, IsTrimmed m := by
  intro m hm
  rw [trail, h.chain_eq, List.map_append, List.mem_append] at hm
  rcases hm with hm | hm
  · simp only [List.map_map, List.mem_map] at hm
    obtain ⟨n, -, rfl⟩ := hm
    exact isTrimmed_layer t.line n
  · rw [List.mem_singleton.1 hm]
    exact Sink.isTrimmed_violation label expected t

lemma not_mem_of_mem_dropLast (h : e.IsAbout label (ns.map Nonterminal.name) expected t) :
    ∀ v ∈ e.chain.dropLast, '\n' ∉ v.message.toList := by
  intro v hv
  rw [h.chain_eq, List.dropLast_concat, List.map_map] at hv
  obtain ⟨n, -, rfl⟩ := List.mem_map.1 hv
  exact not_mem_layer t.line n

lemma exists_layerLines (h : e.IsAbout label (ns.map Nonterminal.name) expected t)
    (hlabel : '\n' ∉ label.toList) : ∃ first i,
      Report.layerLines label e = first ++ [Report.layerLine i e.root.message] ∧
      ∀ l ∈ first, '\n' ∉ l.toList := by
  refine ⟨("Syntax error in " ++ label ++ ":") ::
    (e.chain.dropLast.map Violation.message).mapIdx Report.layerLine,
    (e.chain.dropLast.map Violation.message).length, ?_, ?_⟩
  · rw [Report.layerLines, e.trail_eq, List.mapIdx_concat, List.cons_append]
  · refine List.forall_mem_cons.2 ⟨?_, fun l hl => ?_⟩
    · simp [hlabel]
    · obtain ⟨i, hi, rfl⟩ := List.mem_mapIdx.1 hl
      rw [← List.count_eq_zero, Report.count_layerLine, List.count_eq_zero, List.getElem_map]
      exact h.not_mem_of_mem_dropLast _ (List.getElem_mem _)

lemma strip_layerLines (h : e.IsAbout label (ns.map Nonterminal.name) expected t) :
    (Report.layerLines label e).tail.map strip = e.trail := by
  rw [Report.layerLines, List.tail_cons]
  refine List.ext_getElem? fun i => ?_
  rw [List.getElem?_map, List.getElem?_mapIdx]
  rcases hi : e.trail[i]? with _ | m
  · rfl
  · exact congrArg some (strip_blanks (h.isTrimmed m (List.mem_of_getElem? hi)) _)

end GrammarError.IsAbout

/-- **An error report is cut into its layers at the line feeds**, unless it is about a string with
an escaped line feed. Where a text is rejected for a token, each layer of the error is written to a
line of its own, and as many line feeds come in as the value of the token holds. Only the value of a
string holds any, and only in a text with a line feed directly behind a backslash. All other reports
have the heading and the messages between their line feeds. Without the blanks at its ends, the last
line is the message of the root, and those between it and the heading tell the phrases that were
open. -/
theorem rejections_are_reported_by_lines (readFile : String → Except ReadFailure ByteArray)
    {text : String} {trace : Bool} {e : GrammarError}
    (h : (deriveFrom .language (.ofText text) (checkSink "<string>" trace)).1 =
      .error (.grammar e)) :
    let r := check readFile (.given text) trace
    let lines := Report.layerLines "<string>" e
    ∃ t, e.root.token = some t ∧ r.verdict = .ok false ∧ r.errors = textOf lines ∧
      lines.length = 1 + e.trail.length ∧
      r.errors.toList.count '\n' = lines.length + t.value.toList.count '\n' ∧
      (∀ v ∈ e.chain.dropLast, '\n' ∉ v.message.toList) ∧
      ('\n' ∈ t.value.toList → t.kind = .known .string ∧ ¬ LinesUnescaped text.toList) ∧
      ('\n' ∉ t.value.toList →
        r.errors.toList.splitOn '\n' = lines.map String.toList ++ [[]]) ∧
      lines.tail.map strip = e.trail ∧
      lines.getLast?.map strip = some e.root.message ∧
      lines.tail.dropLast.map (fun l => before GrammarError.lineMark (strip l)) =
        e.nonterminals := by
  obtain ⟨i, t, ns, gs, x, hanswer, habout, hr⟩ := exists_rejected_token h
  have habout : e.IsAbout "<string>" (ns.map Nonterminal.name) x.text t := habout
  -- Only the last line can hold line feeds of its own: those of the value of the token.
  obtain ⟨first, j, hlines, hfirst⟩ := habout.exists_layerLines (by decide)
  have hlast : (Report.layerLine j e.root.message).toList.count '\n' =
      t.value.toList.count '\n' := by
    rw [Report.count_layerLine, habout.root_eq,
      Sink.count_violation _ _ t (by decide) hr.not_mem_line]
  have hstrip := habout.strip_layerLines
  have herrors : (check readFile (.given text) trace).errors =
      textOf (Report.layerLines "<string>" e) := by
    rw [check_given, checkText_eq, h, Report.errors_ofOutcome]
    exact grammarErrors_eq "<string>" e
  refine ⟨t, ?_, ?_, herrors, Report.length_layerLines _ e, ?_, habout.not_mem_of_mem_dropLast,
    TokenSource.of_mem_line hanswer, fun hvalue => ?_, hstrip, ?_, ?_⟩
  · rw [habout.root_eq]
    rfl
  · rw [check_given, checkText_eq, h]
    rfl
  · have hrest : (textOf [Report.layerLine j e.root.message]).toList.count '\n' =
        t.value.toList.count '\n' + 1 := by
      rw [toList_textOf_cons, List.count_append, hlast, List.count_cons_self]
      rfl
    rw [herrors, hlines, textOf_append, String.toList_append, List.count_append,
      count_textOf hfirst, hrest, List.length_append, List.length_singleton]
    omega
  · rw [herrors, hlines]
    refine splitOn_textOf (List.forall_mem_append.2 ⟨hfirst, List.forall_mem_singleton.2 ?_⟩)
    rw [← List.count_eq_zero, hlast]
    exact List.count_eq_zero.2 hvalue
  · have hmap : (Report.layerLines "<string>" e).map strip =
        strip "Syntax error in <string>:" :: e.trail := congrArg (_ :: ·) hstrip
    rw [← List.getLast?_map, hmap, e.trail_eq, ← List.cons_append, List.getLast?_concat]
  · rw [e.nonterminals_eq, ← hstrip, ← List.map_dropLast, List.map_map]
    rfl

lemma deriveFrom_of_first {text : String} {t : Token}
    (h : (TokenSource.ofText text).answer 0 = .ok t) (ht : t.kind ≠ .known .kwBegin)
    (label : String) (trace : Bool) :
    (deriveFrom .language (.ofText text) (checkSink label trace)).1 = .error (.grammar
      ((GrammarError.ofViolation ((Sink.mk label .silent).violation t "<begin>")).within
        "<statement part>" t.line)) := by
  obtain ⟨s, hsink, hs, hrun⟩ := exists_run_of_ok (g := .language) h (checkSink label trace)
  obtain rfl : s.lookahead = t := Except.ok.inj ((congrFun hs 0).trans h)
  have hlabel : (s.enter .statementPart).sink.label = (Sink.mk label .silent).label := by
    rw [Session.enter, note, Sink.label_enter, hsink]
    rfl
  have haccept : (s.enter .statementPart).accept (.known .kwBegin) =
      (.error ((s.enter .statementPart).reject "<begin>").1,
        ((s.enter .statementPart).reject "<begin>").2) := if_neg ht
  have hbody : Grammar.language.body .statementPart =
      [.token .kwBegin, .phrase .statementList, .token .kwEnd] := rfl
  rw [hrun, programGoals, run_phrase, hbody, List.cons_append, run_token_error _ _ _ haccept,
    reject, Sink.violation_of_label hlabel]
  rfl

theorem rejections_are_reported_by_lines_name :
    ∃ e, (deriveFrom .language (.ofText "x") (checkSink "<string>" false)).1 =
        .error (.grammar e) ∧
      (check (fun _ => .error .notText) (.given "x") false).errors.toList.splitOn '\n' =
        (Report.layerLines "<string>" e).map String.toList ++ [[]] := by
  have hanswer : (TokenSource.ofText "x").answer 0 = .ok ⟨.known .identifier, "x", 1, 1⟩ := rfl
  have h := deriveFrom_of_first hanswer (by decide) "<string>" false
  obtain ⟨t, ht, -, -, -, -, -, -, hlines, -⟩ :=
    rejections_are_reported_by_lines (fun _ => .error .notText) h
  cases ht
  exact ⟨_, h, hlines (by decide)⟩

/-- A text that is only a string, in which a line feed is escaped: the error has two layers, and the
report has four lines. -/
theorem escaped_line_is_reported_on_two_lines :
    ∃ e, (deriveFrom .language (.ofText "\"\\\n\"") (checkSink "<string>" false)).1 =
        .error (.grammar e) ∧
      e.trail.length = 2 ∧
      let errors := (check (fun _ => .error .notText) (.given "\"\\\n\"") false).errors
      errors = "Syntax error in <string>:\n  <statement part> at line 1\n" ++
        "    Token: \"\\\n\" at line 1. In file <string>. <begin> is expected\n" ∧
      errors.toList.count '\n' ≠ 1 + e.trail.length := by
  have hanswer : (TokenSource.ofText "\"\\\n\"").answer 0 =
      .ok ⟨.known .string, "\\\n", 1, 1⟩ := rfl
  have h := deriveFrom_of_first hanswer (by decide) "<string>" false
  have herrors : (check (fun _ => .error .notText) (.given "\"\\\n\"") false).errors =
      "Syntax error in <string>:\n  <statement part> at line 1\n" ++
        "    Token: \"\\\n\" at line 1. In file <string>. <begin> is expected\n" := by
    rw [check_given, checkText_eq, h, Report.errors_ofOutcome]
    rfl
  refine ⟨_, h, rfl, herrors, ?_⟩
  rw [herrors]
  decide +kernel

end StatementLang
