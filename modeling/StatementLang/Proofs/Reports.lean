import StatementLang.Check
import StatementLang.Proofs.Bystanders
import StatementLang.Proofs.Characters
import StatementLang.Proofs.Derivation
import StatementLang.Proofs.OnDemand

/-!
What a check reports of a text.

A check derives a program while it reads the text. Its verdict is whether the text is a program;
what it writes is the derivation as far as it went, if that is asked for, and the first failure that
was met. No text leaves a check without a verdict (`check_reports`).
-/

namespace StatementLang

open TokenQueue Session

/-- The text has tokens, and they spell a statement part up to the end of the text. -/
def IsProgram (text : String) : Prop :=
  ∃ us t, tokenize text = .ok (us ++ [t]) ∧ SpellStatementPart us ∧ t.IsEnd

lemma SpellStatementPart.not_isEnd {us : List Token} (h : SpellStatementPart us) :
    ∀ t ∈ us, ¬ t.IsEnd := by
  obtain ⟨es, hes⟩ := (exists_course_statementPart_iff (k := .known .endOfFile)).2 h
  obtain ⟨f, hf, rfl, -⟩ := course_statementPart_iff.1 hes
  exact hf.not_isEnd

lemma exists_spell_iff {us : List Token} {t : Token} (hus : ∀ u ∈ us, ¬ u.IsEnd) (ht : t.IsEnd) :
    (∃ k, SpellStatementPart (firstOf (us ++ [t]) k) ∧ (padded (us ++ [t]) k).IsEnd) ↔
      SpellStatementPart us := by
  have hlast : padded (us ++ [t]) us.length = t := by
    rw [padded, List.getElem?_concat_length, Option.getD_some]
  have hfirst : firstOf (us ++ [t]) us.length = us := by
    rw [firstOf_eq_take (by simp), List.take_left]
  constructor
  · rintro ⟨k, hk, hend⟩
    obtain rfl : k = us.length := by
      rcases Nat.lt_trichotomy k us.length with hlt | heq | hgt
      · rw [padded, List.getElem?_append_left hlt, List.getElem?_eq_getElem hlt] at hend
        exact absurd hend (hus _ (List.getElem_mem hlt))
      · exact heq
      · have hmem : padded (us ++ [t]) us.length ∈ firstOf (us ++ [t]) k :=
          List.mem_map_of_mem (List.mem_range.2 hgt)
        rw [hlast] at hmem
        exact absurd ht (hk.not_isEnd t hmem)
    rwa [hfirst] at hk
  · exact fun h => ⟨us.length, hfirst.symm ▸ h, hlast.symm ▸ ht⟩

lemma Reader.exists_last {r : Reader} {ts : List Token} (h : r.readAll = (ts, none)) :
    ∃ us t, ts = us ++ [t] ∧ t.IsEnd ∧ ∀ u ∈ us, ¬ u.IsEnd := by
  fun_induction readAll r generalizing ts with
  | case1 => cases h
  | case2 r t r' hnext ht =>
    cases h
    exact ⟨[], t, rfl, ht, List.forall_mem_nil _⟩
  | case3 r t r' hnext ht hlt us fault hall ih =>
    cases h
    obtain ⟨vs, u, rfl, hu, hvs⟩ := ih hall
    exact ⟨t :: vs, u, rfl, hu, List.forall_mem_cons.2 ⟨ht, hvs⟩⟩

/-- **A program is derived while it is read** just if the text is a program. -/
theorem deriveFrom_ok_iff {text : String} {sink : Sink} :
    (deriveFrom Grammar.language (.ofText text) sink).1 = .ok () ↔ IsProgram text := by
  rcases h : (Reader.ofText text).readAll with ⟨ts, _ | e⟩
  · obtain ⟨us, t, rfl, ht, hus⟩ := Reader.exists_last h
    have htokens : tokenize text = .ok (us ++ [t]) := tokenize_eq_ok_iff_readAll.2 h
    have hprogram : IsProgram text ↔ SpellStatementPart us := by
      constructor
      · rintro ⟨us', t', htokens', hspell, -⟩
        obtain ⟨rfl, -⟩ := List.append_inj' (Except.ok.inj (htokens.symm.trans htokens')) rfl
        exact hspell
      · exact fun hspell => ⟨us, t, htokens, hspell, ht⟩
    have hok : ((fresh (us ++ [t]) sink).parseProgram Grammar.language).1 = .ok () ↔
        SpellStatementPart us := parseProgram_ok_iff.trans (exists_spell_iff hus ht)
    rw [hprogram, ← hok, TokenSource.ofText, deriveFrom_of_readAll _ h]
    rfl
  · have hfault : ¬ IsProgram text := by
      rintro ⟨us, t, htokens, -⟩
      rw [tokenize_of_fault h] at htokens
      cases htokens
    refine iff_of_false (fun hok => ?_) hfault
    rw [TokenSource.ofText] at hok
    rcases deriveFrom_of_fault h sink with ⟨⟨-, -, x, -, hx⟩, -⟩ | ⟨-, es, -, hlexical⟩
    · rw [hx] at hok
      cases hok
    · rw [hlexical] at hok
      cases hok

/-! ### What a sink is told of a text -/

namespace Session

variable {g : Grammar} {s t : Session}

lemma parseProgram_congr (h : (t.perform g .program).1 = (s.perform g .program).1) :
    (t.parseProgram g).1 = (s.parseProgram g).1 := by
  have hperform (u : Session) :
      (u.perform g .program).1 = (u.parseProgram g).1.map fun _ => none := rfl
  rw [hperform, hperform] at h
  generalize (t.parseProgram g).1 = r at h ⊢
  generalize (s.parseProgram g).1 = r' at h ⊢
  cases r <;> cases r' <;> cases h <;> rfl

lemma fst_parseProgram (hs : s.used = false) :
    (s.parseProgram g).1 = (run g programGoals s.claimed).1 := by
  rcases h : run g programGoals s.claimed with ⟨f | _, s'⟩
  · rw [parseProgram_of_error hs h]
  · rw [parseProgram_of_ok hs h]

end Session

def derivationLog (g : Grammar) (source : TokenSource) (sink : Sink) : List Record :=
  match start source sink with
  | .ok s => (s.parseProgram g).2.log
  | .error _ => []

theorem deriveFrom_told {g : Grammar} (hg : g.Plain) (source : TokenSource) (label : String) :
    ∃ tr, (deriveFrom g source ⟨label, .trace .empty⟩).2.trace? = some tr ∧ ∀ observer,
      (deriveFrom g source ⟨label, observer⟩).1 =
        (deriveFrom g source ⟨label, .trace .empty⟩).1 ∧
      (deriveFrom g source ⟨label, observer⟩).2.Holds
        (Sink.tellAll ⟨label, observer⟩ tr.events) ∧
      derivationLog g source ⟨label, observer⟩ =
        derivationLog g source ⟨label, .trace .empty⟩ := by
  rcases hs : start source ⟨label, .trace .empty⟩ with e | s
  · refine ⟨.empty, by rw [deriveFrom, hs]; rfl, fun observer => ?_⟩
    have ht := start_error hs ⟨label, observer⟩
    rw [deriveFrom, deriveFrom, derivationLog, derivationLog, hs, ht]
    exact ⟨rfl, .inl rfl, rfl⟩
  · have hc : Call.program.IsNative := rfl
    obtain ⟨es, names, notes, htelling, -, hall⟩ := perform_tells hg s hc
    obtain ⟨tr, htr, rfl⟩ := (hall s (.refl s)).2.sink.trace? htelling.proper
      (congrArg Sink.trace? (of_start hs).1)
    refine ⟨tr, by rw [deriveFrom, hs]; exact htr, fun observer => ?_⟩
    obtain ⟨t, ht, hpeers⟩ := exists_peer hs observer
    obtain ⟨hresult, hbecomes⟩ := hall t hpeers
    rw [deriveFrom, deriveFrom, derivationLog, derivationLog, hs, ht]
    refine ⟨parseProgram_congr hresult, ?_, (hpeers.perform hg hc).2.log_eq⟩
    rw [← (of_start ht).1]
    exact hbecomes.sink

/-! ### What a check writes -/

/-- The lines of the derivation that a check writes, if it is asked for. -/
def printed (trace : Bool) (es : List Event) : List String :=
  if trace then Printer.rendered Printer.defaultIndent 0 es else []

lemma Sink.tellAll_silent (label : String) (es : List Event) :
    tellAll ⟨label, .silent⟩ es = ⟨label, .silent⟩ := by
  induction es with
  | nil => rfl
  | cons e es ih =>
    have htell : tell ⟨label, .silent⟩ e = ⟨label, .silent⟩ := by
      obtain ⟨tag, name, token⟩ := e
      cases tag <;> cases token <;> rfl
    rw [tellAll_cons, htell, ih]

lemma Sink.Holds.written_eq {label : String} {trace : Bool} {es : List Event} {sink : Sink}
    (h : sink.Holds ((checkSink label trace).tellAll es)) :
    sink.written = Printer.textOf (printed trace es) := by
  cases trace with
  | false =>
    have hsilent : (checkSink label false).tellAll es = ⟨label, .silent⟩ := tellAll_silent label es
    rw [hsilent] at h
    rcases h with rfl | rfl <;> rfl
  | true =>
    obtain ⟨p, hp, -, hlines⟩ := h.printer? rfl
    rw [written, hp]
    exact congrArg Printer.textOf hlines

lemma textOf_append (as bs : List String) :
    Printer.textOf (as ++ bs) = Printer.textOf as ++ Printer.textOf bs := by
  rw [Printer.textOf, List.map_append, String.join_append]
  rfl

namespace Report

variable {r : Report} {log : List Record} {texts : List String}

lemma join_told (logName : Option String) :
    String.join ((texts.map Notice.told).map (Notice.text logName)) = String.join texts := by
  rw [List.map_map]
  cases logName <;> exact congrArg String.join (List.map_id texts)

lemma join_logged (name : String) :
    String.join ((log.map Notice.logged).map (Notice.text (some name))) =
      Printer.textOf (log.map (Record.line name)) := by
  induction log with
  | nil => rfl
  | cons entry log ih =>
    rw [List.map_cons, List.map_cons, String.join_cons, ih]
    exact (textOf_append [entry.line name] _).symm

lemma join_logged_none : String.join ((log.map Notice.logged).map (Notice.text none)) = "" := by
  induction log with
  | nil => rfl
  | cons entry log ih =>
    rw [List.map_cons, List.map_cons, String.join_cons, ih]
    rfl

lemma errors_of_notices (h : r.notices = log.map .logged ++ texts.map .told) :
    r.errors = String.join texts := by
  rw [errors, read, h, List.map_append, String.join_append, join_logged_none, join_told,
    String.empty_append]

/-- **The log is read before the errors** if it has been written before them. -/
lemma read_of_notices (h : r.notices = log.map .logged ++ texts.map .told) (name : String) :
    r.read (some name) = Printer.textOf (log.map (Record.line name)) ++ r.errors := by
  rw [errors_of_notices h, read, h, List.map_append, String.join_append, join_logged, join_told]

/-- The report on what has come of a derivation. -/
def ofOutcome (label written : String) (log : List Record) : Except Failure Unit → Report
  | .ok () => ⟨.ok true, written ++ success label, log.map .logged⟩
  | .error (.grammar e) =>
    ⟨.ok false, written, log.map .logged ++ [.told (grammarErrors label e)]⟩
  | .error (.lexical e) =>
    ⟨.ok false, written, log.map .logged ++ [.told (lexicalErrors label e)]⟩
  | .error f => ⟨.error (.broken f), written, log.map .logged⟩

/-- What is told of a failure. -/
def complaint? (label : String) : Except Failure Unit → Option String
  | .error (.grammar e) => some (grammarErrors label e)
  | .error (.lexical e) => some (lexicalErrors label e)
  | _ => none

lemma notices_ofOutcome (label written : String) (log : List Record)
    (outcome : Except Failure Unit) : (ofOutcome label written log outcome).notices =
      log.map .logged ++ (complaint? label outcome).toList.map .told := by
  rcases outcome with (e | e | u | _) | _ <;> simp [ofOutcome, complaint?]

lemma errors_ofOutcome (label written : String) (log : List Record)
    (outcome : Except Failure Unit) :
    (ofOutcome label written log outcome).errors = (complaint? label outcome).getD "" := by
  rw [errors_of_notices (notices_ofOutcome label written log outcome)]
  cases complaint? label outcome with
  | none => rfl
  | some text => exact String.empty_append

lemma ofOutcome_eq (label written : String) (log : List Record) (outcome : Except Failure Unit) :
    ofOutcome label written log outcome =
      { ofOutcome label "" log outcome with
        output := written ++ (ofOutcome label "" log outcome).output } := by
  rcases outcome with (e | e | u | _) | _ <;> simp [ofOutcome]

end Report

lemma checkText_eq (label text : String) (trace : Bool) :
    checkText label text trace =
      Report.ofOutcome label (deriveFrom .language (.ofText text) (checkSink label trace)).2.written
        (.reading label text.length ::
          derivationLog .language (.ofText text) (checkSink label trace))
        (deriveFrom .language (.ofText text) (checkSink label trace)).1 := by
  rcases hs : start (.ofText text) (checkSink label trace) with e | s
  · have hempty : (checkSink label trace).written = "" := by cases trace <;> rfl
    rw [checkText, deriveFrom, derivationLog, hs]
    dsimp only
    rw [hempty]
    rfl
  · rw [checkText, deriveFrom, derivationLog, hs]
    dsimp only [Prod.map]
    rcases s.parseProgram .language with ⟨(e | e | u | _) | _, s'⟩ <;> rfl

theorem exists_outcome (label text : String) :
    ∃ outcome tr log,
      outcome = (deriveFrom .language (.ofText text) ⟨label, .trace .empty⟩).1 ∧
      (deriveFrom .language (.ofText text) ⟨label, .trace .empty⟩).2.trace? = some tr ∧
      log = derivationLog .language (.ofText text) ⟨label, .trace .empty⟩ ∧
      ∀ trace, checkText label text trace = Report.ofOutcome label
        (Printer.textOf (printed trace tr.events)) (.reading label text.length :: log) outcome := by
  obtain ⟨tr, htr, htold⟩ := deriveFrom_told Grammar.language_plain (.ofText text) label
  refine ⟨_, tr, _, rfl, htr, rfl, fun trace => ?_⟩
  obtain ⟨hsame, hholds, hlog⟩ := htold (checkSink label trace).observer
  have hsink : (⟨label, (checkSink label trace).observer⟩ : Sink) = checkSink label trace := rfl
  rw [hsink] at hsame hholds hlog
  rw [checkText_eq, hholds.written_eq, hsame, hlog]

lemma deriveFrom_cases (g : Grammar) (source : TokenSource) (sink : Sink) :
    (deriveFrom g source sink).1 = .ok () ∨
      (∃ e, (deriveFrom g source sink).1 = .error (.grammar e)) ∨
      ∃ e, (deriveFrom g source sink).1 = .error (.lexical e) := by
  rcases hs : start source sink with e | s
  · rw [deriveFrom, hs]
    exact .inr (.inr ⟨e, rfl⟩)
  · have hresult : (deriveFrom g source sink).1 = (run g programGoals s.claimed).1 := by
      rw [deriveFrom, hs]
      exact fst_parseProgram (of_start hs).2.1
    have ho := run_outcome (g := g) programGoals s.claimed
    rw [hresult]
    generalize run g programGoals s.claimed = r at ho ⊢
    cases ho with
    | reached => exact .inl rfl
    | rejected => exact .inr (.inl ⟨_, rfl⟩)
    | fault => exact .inr (.inr ⟨_, rfl⟩)

lemma join_replicate (n : Nat) :
    String.join (List.replicate n "  ") = String.ofList (List.replicate (2 * n) ' ') := by
  induction n with
  | zero => rfl
  | succ n ih =>
    have hblanks : "  " = String.ofList [' ', ' '] := rfl
    rw [List.replicate_succ, String.join_cons, ih, hblanks, ← String.ofList_append]
    rfl

lemma grammarErrors_eq (label : String) (e : GrammarError) :
    Report.grammarErrors label e = Printer.textOf (("Syntax error in " ++ label ++ ":") ::
      e.trail.mapIdx fun i message =>
        String.ofList (List.replicate (2 * (i + 1)) ' ') ++ message) := by
  rw [Report.grammarErrors, Report.indentTrail]
  simp only [join_replicate]
  rfl

end StatementLang
