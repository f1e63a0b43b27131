import StatementLang.Command
import StatementLang.Proofs.Reports

/-!
What the flags of the command add.

The flags for the derivation and for the log do not reach what is checked. Whatever the program and
however its check ends, the one puts the lines of the derivation before what is written to the first
channel, the other puts the lines of the log before what is written to the second, and nothing else
changes (`flags_only_add`).
-/

namespace StatementLang

open Session

namespace Options

/-- Arguments that ask for a program with the flags given. -/
def arguments (o : Options) : List String :=
  (if o.isString then [Flag.string.short] else []) ++
    ((if o.trace then [Flag.trace.short] else []) ++
      ((if o.verbose then [Flag.verbose.short] else []) ++ ["--", o.source]))

theorem ofArgs_arguments (o : Options) : ofArgs o.arguments = .ok (some o) := by
  obtain ⟨source, isString, trace, verbose⟩ := o
  cases isString <;> cases trace <;> cases verbose <;> rfl

end Options

/-! ### What a check writes with a flag and without -/

theorem exists_check (readFile : String → Except ReadFailure ByteArray) (p : ProgramText) :
    ∃ (derivation : List String) (log : List Record) (report : Report),
      (∀ trace, check readFile p trace = { report with
        output := (if trace then Printer.textOf derivation else "") ++ report.output }) ∧
      (∃ texts : List String, report.notices = log.map .logged ++ texts.map .told) ∧
      match p.read readFile with
      | .error _ => derivation = [] ∧ log = []
      | .ok text =>
        (∃ tr, (deriveFrom .language (.ofText text) ⟨p.label, .trace .empty⟩).2.trace? = some tr ∧
          derivation = Printer.rendered Printer.defaultIndent 0 tr.events) ∧
        log = .reading p.label text.length ::
          derivationLog .language (.ofText text) ⟨p.label, .trace .empty⟩ := by
  rcases h : p.read readFile with f | text
  · refine ⟨[], [], ⟨.error (.unreadable f), "", []⟩, fun trace => ?_, ⟨[], rfl⟩, rfl, rfl⟩
    rw [check, h]
    cases trace <;> rfl
  · obtain ⟨outcome, tr, log, -, htr, rfl, hreport⟩ := exists_outcome p.label text
    refine ⟨_, _, Report.ofOutcome p.label "" (.reading p.label text.length :: _) outcome,
      fun trace => ?_, ⟨_, Report.notices_ofOutcome ..⟩, ⟨tr, htr, rfl⟩, rfl⟩
    rw [check, h]
    dsimp only
    rw [hreport, Report.ofOutcome_eq]
    cases trace <;> rfl

/-- **Flags only add output.** For any arguments that ask for one program, with the flag for the
derivation and with the flag for the log or without: the command ends in one way, with the same
status or the same escape. The flag for the log puts the lines of the log before the errors and
leaves the output as it is. The flag for the derivation puts its lines before the output and leaves
the errors as they are. A program that cannot be read has neither derivation nor log. -/
theorem flags_only_add (readFile : String → Except ReadFailure ByteArray)
    (logName source : String) (isString : Bool) {args : Bool → Bool → List String}
    (hargs : ∀ trace verbose,
      Options.ofArgs (args trace verbose) = .ok (some ⟨source, isString, trace, verbose⟩)) :
    let response trace verbose := Command.run readFile logName (args trace verbose)
    ∃ (derivation : List String) (log : List Record),
      (∀ trace verbose, (response trace verbose).ending = (response false false).ending) ∧
      (∀ trace, (response trace true).output = (response trace false).output ∧
        (response trace true).errors =
          Printer.textOf (log.map (Record.line logName)) ++ (response trace false).errors) ∧
      (∀ verbose, (response true verbose).errors = (response false verbose).errors ∧
        (response true verbose).output =
          Printer.textOf derivation ++ (response false verbose).output) ∧
      let program := if isString then ProgramText.given source else .file source
      match program.read readFile with
      | .error _ => derivation = [] ∧ log = []
      | .ok text =>
        (∃ tr, (deriveFrom .language (.ofText text) ⟨program.label, .trace .empty⟩).2.trace? =
            some tr ∧
          derivation = Printer.rendered Printer.defaultIndent 0 tr.events) ∧
        log = .reading program.label text.length ::
          derivationLog .language (.ofText text) ⟨program.label, .trace .empty⟩ := by
  intro response
  obtain ⟨derivation, log, report, hcheck, ⟨texts, hnotices⟩, hread⟩ :=
    exists_check readFile (if isString then ProgramText.given source else .file source)
  -- The log was written before the errors, so whoever reads it too finds it in front of them.
  have hlogged : report.read (some logName) =
      Printer.textOf (log.map (Record.line logName)) ++ report.errors :=
    Report.read_of_notices hnotices logName
  have hresponse (trace verbose : Bool) : response trace verbose =
      { response false false with
        output := (if trace then Printer.textOf derivation else "") ++ report.output
        errors := (if verbose then Printer.textOf (log.map (Record.line logName)) else "") ++
          report.errors } := by
    simp only [response, Command.run, hargs, Command.respond, Command.program, hcheck]
    cases verbose with
    | false => simp [Report.errors, Report.read]
    | true => simp [← hlogged, Report.read]
  refine ⟨derivation, log, fun trace verbose => ?_, fun trace => ⟨?_, ?_⟩,
    fun verbose => ⟨?_, ?_⟩, hread⟩
  · rw [hresponse trace verbose]
  · rw [hresponse trace true, hresponse trace false]
  · rw [hresponse trace true, hresponse trace false]
    simp
  · rw [hresponse true verbose, hresponse false verbose]
  · rw [hresponse true verbose, hresponse false verbose]
    simp

theorem flags_only_add_openAssignment :
    let request trace verbose : Options := ⟨"begin x := 1", true, trace, verbose⟩
    let response trace verbose :=
      Command.run (fun name => .error (.notFound name)) "log" (request trace verbose).arguments
    (∀ trace verbose, Options.ofArgs (request trace verbose).arguments =
        .ok (some (request trace verbose))) ∧
      ∃ (derivation : List String) (log : List Record),
        (response true true).ending = (response false false).ending ∧
        (response true true).errors =
          Printer.textOf (log.map (Record.line "log")) ++ (response true false).errors ∧
        (response true true).output =
          Printer.textOf derivation ++ (response false true).output := by
  intro request response
  have hargs (trace verbose : Bool) : Options.ofArgs (request trace verbose).arguments =
      .ok (some (request trace verbose)) := Options.ofArgs_arguments _
  obtain ⟨derivation, log, hending, hverbose, htrace, -⟩ :=
    flags_only_add (fun name => .error (.notFound name)) "log" "begin x := 1" true hargs
  exact ⟨hargs, derivation, log, hending true true, (hverbose true).2, (htrace true).2⟩

end StatementLang
