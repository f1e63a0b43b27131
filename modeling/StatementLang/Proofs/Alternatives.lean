import StatementLang.Proofs.EarlyErrors
import StatementLang.Proofs.Expected
import StatementLang.Proofs.Separator

/-!
What an error says is expected, and what is taken there.

A program is derived once more with the token that was rejected replaced by one that the error
lists. Then at least one token more is taken, but for one case: where a statement is expected the
error lists the word that closes an until statement, which begins none. That word is taken just
where it closes a list, behind a separator in the block of an until statement.
-/

namespace StatementLang

open StatementLang.Symbol StatementLang.Nonterminal StatementLang.Choice TokenQueue Session

/-- The tokens that the derivation of a program takes, as a trace tells. -/
def tokensTaken (label : String) (ts : List Token) : List Token :=
  match ((fresh ts ⟨label, .trace .empty⟩).parseProgram Grammar.language).2.sink.trace? with
  | some tr => Trace.terminals tr.events
  | none => []

variable {label : String} {ts : List Token} {k : Nat} {es : List Event} {gs : List Goal}

lemma tokensTaken_of_trace {r : Except Failure Unit} {s' : Session} {tr : Trace}
    (h : (fresh ts ⟨label, .trace .empty⟩).parseProgram Grammar.language = (r, s'))
    (htr : s'.sink.trace? = some tr) : tokensTaken label ts = Trace.terminals tr.events := by
  rw [tokensTaken, h, htr]

lemma exists_final (label : String) (ts : List Token) :
    ∃ k es gs, Course Grammar.language (padded ts k).kind programGoals (firstOf ts k) es gs ∧
      Grammar.language.Final (padded ts k).kind gs ∧ tokensTaken label ts = firstOf ts k := by
  obtain ⟨k, es, s', hc, ha, hr⟩ | ⟨k, es, gs, x, s', hc, ha, hreject, hr⟩ :=
    parseProgram_cases ts ⟨label, .trace .empty⟩
  · have htr : s'.sink.trace? = some (Trace.empty.recordAll es) := ha.trace? rfl
    have hsucceed : s'.sink.succeed.trace? = some (Trace.empty.recordAll es).succeed :=
      (Sink.trace?_succeed _).trans (congrArg (Option.map _) htr)
    refine ⟨k, es, [], hc, .reached, ?_⟩
    rw [tokensTaken_of_trace hr hsucceed, Trace.events_succeed, Trace.events_recordAll]
    exact hc.terminals_eq
  · have htr : s'.sink.trace? = some (Trace.empty.recordAll es) := ha.trace? rfl
    refine ⟨k, es, gs, hc, .rejected hreject, ?_⟩
    rw [tokensTaken_of_trace hr htr, Trace.events_recordAll]
    exact hc.terminals_eq

lemma le_length_tokensTaken (label : String)
    (h : Course Grammar.language (padded ts k).kind programGoals (firstOf ts k) es gs) :
    k ≤ (tokensTaken label ts).length := by
  obtain ⟨m, fs, gs', hm, hfinal, htaken⟩ := exists_final label ts
  rw [htaken, length_firstOf]
  exact (course_goes_on h hm hfinal).1

lemma tokensTaken_of_final (label : String)
    (h : Course Grammar.language (padded ts k).kind programGoals (firstOf ts k) es gs)
    (hf : Grammar.language.Final (padded ts k).kind gs) : tokensTaken label ts = firstOf ts k := by
  obtain ⟨m, fs, gs', hm, hfinal, htaken⟩ := exists_final label ts
  obtain ⟨rfl, -, -⟩ := course_unique h hf hm hfinal
  exact htaken

/-- The innermost phrase named that is neither a statement nor a list of statements. -/
def innermostBlock (names : List String) : Option String :=
  (names.reverse.dropWhile (· ∈ [statement.name, statementList.name])).head?

lemma innermostBlock_map (ns : List Nonterminal) :
    innermostBlock (ns.reverse.map Nonterminal.name) = (enclosing ns).map Nonterminal.name := by
  have hname : (fun name => decide (name ∈ [statement.name, statementList.name])) ∘
      Nonterminal.name = fun n => decide (n ∈ [statement, statementList]) := by
    ext n
    cases n <;> decide
  rw [innermostBlock, ← List.map_reverse, List.reverse_reverse, List.dropWhile_map, hname,
    List.head?_map, enclosing]

lemma innermostBlock_eq_iff :
    innermostBlock ((Goal.openPhrases gs).reverse.map Nonterminal.name) =
      some untilStatement.name ↔ inUntil gs := by
  rw [innermostBlock_map, Option.map_eq_some_iff, inUntil, decide_eq_true_eq]
  constructor
  · rintro ⟨n, hn, hname⟩
    rwa [← Nonterminal.name_injective hname]
  · exact fun h => ⟨_, h, rfl⟩

/-! ### One token exchanged -/

variable {x : Expectation} {y : Symbol} {t : Token}

lemma course_replaced {next : Kind} {fs : List Event} {gs' : List Goal}
    (h : Course Grammar.language t.kind programGoals (firstOf ts k) es gs)
    (h' : Course Grammar.language next gs [t] fs gs') :
    Course Grammar.language next programGoals (firstOf (replaced ts k t) (k + 1)) (es ++ fs)
      gs' := by
  rw [firstOf_succ, firstOf_replaced (Nat.le_refl k), padded_replaced]
  exact Course.trans h h'

lemma tokensTaken_replaced (label : String)
    (h : Course Grammar.language t.kind programGoals (firstOf ts k) es gs)
    (hr : Grammar.language.Rejects t.kind gs x) :
    tokensTaken label (replaced ts k t) = firstOf ts k := by
  have hpadded : padded (replaced ts k t) k = t := padded_replaced
  have hfirst : firstOf (replaced ts k t) k = firstOf ts k := firstOf_replaced (Nat.le_refl k)
  rw [← hpadded, ← hfirst] at h
  rw [← hpadded] at hr
  rw [tokensTaken_of_final label h (.rejected hr), hfirst]

lemma taken_of_alternative (label : String)
    (hc : Course Grammar.language (padded ts k).kind programGoals (firstOf ts k) es gs)
    (hr : Grammar.language.Rejects (padded ts k).kind gs x) (hy : .symbol y ∈ x.alternatives)
    (hu : y = kwUntil → x = .symbol kwUntil) (ht : t.kind = .known y) :
    k < (tokensTaken label (replaced ts k t)).length := by
  have hfits : Fits [endOfFile] programGoals := by decide
  obtain ⟨hwants, fs, gs', htake⟩ := exists_taking hr hy hu ht
  have hretarget := (hc.retarget hfits hr hwants).1
  rw [← ht] at hretarget
  exact le_length_tokensTaken label (course_replaced hretarget (htake _))

lemma until_taken_iff (label : String) {e : Expectation}
    (hc : Course Grammar.language (padded ts k).kind programGoals (firstOf ts k) es
      (.choice statementForm :: gs))
    (hr : Grammar.language.select statementForm (padded ts k).kind = .error e)
    (ht : t.kind = .known kwUntil) :
    k < (tokensTaken label (replaced ts k t)).length ↔
      (∃ j, k = j + 1 ∧ (padded ts j).kind = .known semicolon) ∧ inUntil gs := by
  -- With the word in place of the rejected token, the course comes to the goal of some symbol; the
  -- word is taken just if it is that symbol.
  obtain ⟨fs, x, rest, hcourse, hx⟩ := until_ahead hc hr
  have hlast : (∃ us u, firstOf ts k = us ++ [u] ∧ u.kind = .known semicolon) ↔
      ∃ j, k = j + 1 ∧ (padded ts j).kind = .known semicolon := by
    constructor
    · rintro ⟨us, u, hus, hu⟩
      have hk : k = us.length + 1 := by simpa using congrArg List.length hus
      subst hk
      rw [firstOf_succ] at hus
      obtain ⟨-, rfl⟩ := List.append_singleton_inj.1 hus
      exact ⟨_, rfl, hu⟩
    · rintro ⟨j, rfl, hj⟩
      exact ⟨_, _, firstOf_succ ts j, hj⟩
  rw [← hlast, ← hx]
  rw [← ht] at hcourse
  constructor
  · intro hlt
    by_contra hne
    have hreject : Grammar.language.Rejects t.kind (.token x :: rest) (.symbol x) :=
      .token (fun h => hne (Kind.known.inj (h.symm.trans ht))) rest
    rw [tokensTaken_replaced label hcourse hreject, length_firstOf] at hlt
    exact Nat.lt_irrefl k hlt
  · rintro rfl
    exact le_length_tokensTaken label (course_replaced hcourse (.token ht (.refl rest)))

lemma misplaced_until (hr : Grammar.language.Rejects (padded ts k).kind gs x)
    (hy : .symbol kwUntil ∈ x.alternatives) (hx : x ≠ .symbol kwUntil) :
    x.text ≠ kwUntil.bracketed ∧ ∃ gs₁, gs = .choice statementForm :: gs₁ ∧
      Grammar.language.select statementForm (padded ts k).kind = .error x := by
  cases hr with
  | @token z =>
    obtain rfl : kwUntil = z := by simpa [Expectation.symbol] using hy
    exact absurd rfl hx
  | @choice c x hc gs₁ =>
    have hall : ∀ x ∈ c.expectations, .symbol kwUntil ∈ x.alternatives →
        x.text ≠ kwUntil.bracketed ∧ c = statementForm := by
      cases c <;> decide
    obtain ⟨htext, rfl⟩ := hall x (mem_expectations hc) hy
    exact ⟨htext, gs₁, rfl, hc⟩

/-- **What an error lists is taken in place of the rejected token.** The one exception is the word
that closes an until statement, where a statement is expected: it is listed there, but it is taken
only behind a separator in the block of an until statement. -/
theorem listed_symbols_are_taken (label : String) {ts : List Token} {e : GrammarError}
    {s' : Session}
    (h : (fresh ts ⟨label, .trace .empty⟩).parseProgram Grammar.language =
      (.error (.grammar e), s')) :
    ∃ k text, tokensTaken label ts = firstOf ts k ∧ e.root.token = some (padded ts k) ∧
      e.root.expected = some text ∧
      ∀ (y : Symbol) (t : Token), y.bracketed ∈ Expectation.listed text → t.kind = .known y →
        (k < (tokensTaken label (replaced ts k t)).length ↔
          y ≠ kwUntil ∨ text = kwUntil.bracketed ∨
            (∃ j, k = j + 1 ∧ (padded ts j).kind = .known semicolon) ∧
              innermostBlock e.nonterminals = some untilStatement.name) := by
  obtain ⟨k, es, gs, x, hc, hr, htoken, hexpected, hnames, -⟩ := exists_rejects h
  have htaken := tokensTaken_of_final label hc (.rejected hr)
  refine ⟨k, x.text, htaken, htoken, hexpected, fun y t hy ht => ?_⟩
  have hmem := mem_alternatives hr hy
  by_cases hu : y = kwUntil → x = .symbol kwUntil
  · refine iff_of_true (taken_of_alternative label hc hr hmem hu ht) ?_
    by_cases hne : y = kwUntil
    · exact .inr (.inl (by rw [hu hne, Expectation.text_symbol]))
    · exact .inl hne
  · obtain ⟨rfl, hx⟩ : y = kwUntil ∧ x ≠ .symbol kwUntil := by simpa using hu
    obtain ⟨htext, gs₁, rfl, hselect⟩ := misplaced_until hr hmem hx
    rw [until_taken_iff label hc hselect ht, hnames, innermostBlock_eq_iff]
    simp only [ne_eq, not_true_eq_false, false_or, htext]
    exact Iff.rfl

/-! ### A program without statements -/

def emptyProgram : List Token := [⟨.known kwBegin, "begin", 1, 1⟩, ⟨.known kwEnd, "end", 1, 7⟩]

/-- The word that closes an until statement, where the empty program ends. -/
def misplacedUntil : Token := ⟨.known kwUntil, "until", 1, 7⟩

/-- What the empty program wants in place of its end. -/
def statementStarts : Expectation :=
  .symbols [identifier, kwWhile, kwIf, kwCall, kwDo, kwUntil, kwFor]

lemma rejects_emptyProgram : ∃ es gs,
    Course Grammar.language (padded emptyProgram 1).kind programGoals (firstOf emptyProgram 1) es
      gs ∧
    Grammar.language.Rejects (padded emptyProgram 1).kind gs statementStarts :=
  ⟨_, _, .phrase (.token rfl (.phrase (.phrase (.refl _)))), .choice rfl _⟩

lemma parseProgram_emptyProgram (label : String) : ∃ e s',
    (fresh emptyProgram ⟨label, .trace .empty⟩).parseProgram Grammar.language =
      (.error (.grammar e), s') ∧ e.root.expected = some statementStarts.text := by
  obtain ⟨es, gs, hc, hr⟩ := rejects_emptyProgram
  exact error_of_rejects _ hc hr

theorem listed_symbols_are_taken_emptyProgram :
    ∃ e s' k text, (fresh emptyProgram ⟨"", .trace .empty⟩).parseProgram Grammar.language =
        (.error (.grammar e), s') ∧
      tokensTaken "" emptyProgram = firstOf emptyProgram k ∧ e.root.expected = some text ∧
      ∀ t : Token, t.kind = .known kwWhile →
        k < (tokensTaken "" (replaced emptyProgram k t)).length := by
  obtain ⟨e, s', h, hstarts⟩ := parseProgram_emptyProgram ""
  obtain ⟨k, text, htaken, -, hexpected, htake⟩ := listed_symbols_are_taken "" h
  obtain rfl : text = statementStarts.text := Option.some.inj (hexpected.symm.trans hstarts)
  have hlisted : kwWhile.bracketed ∈ Expectation.listed statementStarts.text := by decide
  refine ⟨e, s', k, _, h, htaken, hexpected, fun t ht => ?_⟩
  exact (htake kwWhile t hlisted ht).2 (.inl (by decide))

/-- The word that closes an until statement is listed where the empty program is rejected, and in
that place it is rejected itself. -/
theorem listed_until_is_rejected_emptyProgram :
    ∃ e s', (fresh emptyProgram ⟨"", .trace .empty⟩).parseProgram Grammar.language =
        (.error (.grammar e), s') ∧
      (tokensTaken "" emptyProgram).length = 1 ∧ e.root.expected = some statementStarts.text ∧
      kwUntil.bracketed ∈ Expectation.listed statementStarts.text ∧
      misplacedUntil.kind = .known kwUntil ∧
      (tokensTaken "" (replaced emptyProgram 1 misplacedUntil)).length = 1 := by
  obtain ⟨e, s', h, hstarts⟩ := parseProgram_emptyProgram ""
  obtain ⟨es, gs, hc, hr⟩ := rejects_emptyProgram
  have htaken := tokensTaken_of_final "" hc (.rejected hr)
  refine ⟨e, s', h, by rw [htaken, length_firstOf], hstarts, by decide, rfl, ?_⟩
  -- the until statement that is begun wants another word
  obtain ⟨fs, gs', hc', hr'⟩ : ∃ fs gs',
      Course Grammar.language misplacedUntil.kind programGoals (firstOf emptyProgram 1) fs gs' ∧
      Grammar.language.Rejects misplacedUntil.kind gs' (.symbol kwDo) :=
    ⟨_, _, .phrase (.token rfl (.phrase (.phrase (.choice rfl (.phrase (.refl _)))))),
      .token (by decide) _⟩
  rw [tokensTaken_replaced "" hc' hr', length_firstOf]

end StatementLang
