import StatementLang.Proofs.Nesting
import StatementLang.Proofs.Recognition

/-!
The trace of a program is the walk of its tree.

There is one tree over the tokens before the end of the text, and the trace tells of it depth
first. Two trees over the same tokens are walked by the same course, and a walk determines its
tree.
-/

namespace StatementLang

open StatementLang.Symbol StatementLang.Nonterminal Forest TokenQueue Session

/-- **No two trees of a statement part** have the same tokens. -/
theorem Forest.IsStatementPart.unique {f f' : Forest} (hf : f.IsStatementPart)
    (hf' : f'.IsStatementPart) (h : f.tokens = f'.tokens) : f = f' := by
  let p : Token := .atEnd 0 0
  have hc : Course Grammar.language p.kind [.phrase statementPart] f.tokens f.walk [] :=
    course_statementPart_iff.2 ⟨f, hf, rfl, rfl⟩
  have hc' : Course Grammar.language p.kind [.phrase statementPart] f'.tokens f'.walk [] :=
    course_statementPart_iff.2 ⟨f', hf', rfl, rfl⟩
  have hts : f.tokens ++ [p] = f'.tokens ++ [p] := by rw [h]
  have hwalk : f.walk = f'.walk := (hc.unique .reached hc' .reached hts).2.1
  have heq : f.walk ++ [] = f'.walk ++ [] := by rw [hwalk]
  exact (walk_injective heq closes_nil closes_nil).1

lemma endOfFile_not_mem_productions {n : Nonterminal} {qs : List Part} (h : qs ∈ productions n) :
    .symbol endOfFile ∉ qs := by
  have : ∀ qs ∈ productions n, .symbol endOfFile ∉ qs := by cases n <;> decide
  exact this qs h

lemma Forest.Derives.not_isEnd {ps : List Part} {f : Forest} (h : Derives ps f)
    (hps : .symbol endOfFile ∉ ps) : ∀ t ∈ f.tokens, ¬ t.IsEnd := by
  induction h with
  | nil => simp
  | @symbol s t ps rest ht _ ih =>
    simp only [List.mem_cons, not_or] at hps
    intro u hu
    rcases List.mem_cons.1 hu with rfl | hu
    · intro hend
      have hs : s = endOfFile := Kind.known.inj (ht.symm.trans hend)
      exact hps.1 (hs ▸ rfl)
    · exact ih hps.2 u hu
  | phrase hq _ _ ihc ih =>
    simp only [List.mem_cons, not_or] at hps
    intro u hu
    rcases List.mem_append.1 hu with hu | hu
    · exact ihc (endOfFile_not_mem_productions hq) u hu
    · exact ih hps.2 u hu

theorem Forest.IsStatementPart.not_isEnd {f : Forest} (h : f.IsStatementPart) :
    ∀ t ∈ f.tokens, ¬ t.IsEnd := by
  obtain ⟨c, rfl, qs, hq, hc⟩ := h
  simpa using hc.not_isEnd (endOfFile_not_mem_productions hq)

/-! ### What a program leaves in a trace -/

variable {ts : List Token} {sink : Sink}

lemma exists_walk_of_parseProgram {s' : Session}
    (h : (fresh ts sink).parseProgram Grammar.language = (.ok (), s')) :
    ∃ (k : Nat) (f : Forest) (es : List Event), f.IsStatementPart ∧ f.tokens = firstOf ts k ∧
      (padded ts k).IsEnd ∧ es = f.walk ++ [.ofToken (padded ts k)] ∧
      Course Grammar.language (padded ts (k + 1)).kind programGoals (firstOf ts (k + 1)) es [] ∧
      ∀ tr, sink.trace? = some tr → s'.sink.trace? = some (tr.recordAll es).succeed := by
  obtain ⟨k, hk, hend⟩ := parseProgram_ok_iff.1 (by rw [h] :
    ((fresh ts sink).parseProgram Grammar.language).1 = .ok ())
  obtain ⟨es, hc⟩ := exists_course_of_spell hk hend
  obtain ⟨f, t, hf, -, hts, hes⟩ := course_program_iff.1 hc
  rw [firstOf_succ] at hts
  obtain ⟨hyield, ht⟩ := List.append_inj' hts rfl
  obtain rfl := List.singleton_inj.1 ht
  obtain ⟨s'', hr, htrace⟩ := parseProgram_of_course sink hc
  obtain ⟨-, rfl⟩ := Prod.mk.inj (hr.symm.trans h)
  exact ⟨k, f, es, hf, hyield.symm, hend, hes, hc, htrace⟩

/-- **The trace of a program is the derivation.** There is just one tree of a statement part over
the tokens before the end of the text, and the events are its walk and then the end of the text.
So they nest, nothing is left open, and the terminals are the tokens up to the end of the text. -/
theorem program_trace_is_walk {tr : Trace} {s s' : Session}
    (hs : start (.ofTokens ts) sink = .ok s) (htr : sink.trace? = some tr)
    (h : s.parseProgram Grammar.language = (.ok (), s')) :
    ∃ k f tr', s'.sink.trace? = some tr' ∧
      (padded ts k).IsEnd ∧ (∀ i < k, ¬ (padded ts i).IsEnd) ∧
      IsStatementPart f ∧ f.tokens = firstOf ts k ∧
      (∀ f', IsStatementPart f' → f'.tokens = firstOf ts k → f' = f) ∧
      tr'.eventsSince tr = f.walk ++ [.ofToken (padded ts k)] ∧
      Event.openAfter [] (tr'.eventsSince tr) = some [] ∧
      Trace.terminals (tr'.eventsSince tr) = firstOf ts (k + 1) := by
  obtain rfl : fresh ts sink = s := Except.ok.inj ((start_ofTokens ts sink).symm.trans hs)
  obtain ⟨k, f, es, hf, hyield, hend, hes, hc, htrace⟩ := exists_walk_of_parseProgram h
  have hevents : (tr.recordAll es).succeed.eventsSince tr = es := by
    rw [Trace.eventsSince_succeed, Trace.eventsSince_recordAll]
  refine ⟨k, f, _, htrace tr htr, hend, fun i hi => ?_, hf, hyield, fun f' hf' hf'y => ?_, ?_, ?_,
    ?_⟩
  · -- the tokens of the tree do not end the text
    refine hf.not_isEnd _ ?_
    rw [hyield]
    exact List.mem_map_of_mem (List.mem_range.2 hi)
  · exact hf'.unique hf (hf'y.trans hyield.symm)
  · rw [hevents, hes]
  · rw [hevents]
    exact hc.openAfter Grammar.language_plain
  · rw [hevents]
    exact hc.terminals_eq

theorem program_trace_is_walk_assigningString :
    ∃ s', (fresh assigningString ⟨"", .trace .empty⟩).parseProgram Grammar.language = (.ok (), s') ∧
      ∃ k f tr', s'.sink.trace? = some tr' ∧ IsStatementPart f ∧
        f.tokens = firstOf assigningString k ∧
        tr'.eventsSince .empty = f.walk ++ [.ofToken (padded assigningString k)] := by
  obtain ⟨s', h⟩ := parseProgram_assigningString ⟨"", .trace .empty⟩
  obtain ⟨k, f, tr', htr', -, -, hf, hyield, -, hevents, -⟩ :=
    program_trace_is_walk (start_ofTokens _ _) rfl h
  exact ⟨s', h, k, f, tr', htr', hf, hyield, hevents⟩

end StatementLang
