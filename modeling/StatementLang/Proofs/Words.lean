import StatementLang.Proofs.Trees

/-!
The words of the language, by repetition and option.

`Word` says of a sequence of symbols that it spells a phrase. Repetition is flat here, and for
arguments even ambiguous; the productions nest it to the right. Still every tree spells a word
(`IsBody.exists_word`) and every word has a tree (`Word.exists_isBody`), because `Word` is the
least family of words that is closed under the productions.
-/

namespace StatementLang

open StatementLang.Symbol StatementLang.Nonterminal Forest

inductive Word : Nonterminal → List Symbol → Prop
  | part {w : List Symbol} (h : Word statementList w) :
    Word statementPart ([kwBegin] ++ w ++ [kwEnd])
  /-- A statement, then any number of statements behind separators, and perhaps a last separator. -/
  | list {v last : List Symbol} {l : List (List Symbol)} (h : Word statement v)
    (hs : ∀ u ∈ l, Word statement u) (hlast : last = [] ∨ last = [semicolon]) :
    Word statementList (v ++ l.flatMap ([semicolon] ++ ·) ++ last)
  | form {n : Nonterminal} {w : List Symbol}
    (hn : n ∈ [assignment, whileStatement, ifStatement, procedureCall, untilStatement,
      forStatement]) (h : Word n w) : Word statement w
  | assignString : Word assignment [identifier, becomes, string]
  | assign {w : List Symbol} (h : Word expression w) :
    Word assignment ([identifier, becomes] ++ w)
  | oneTerm {w : List Symbol} (h : Word term w) : Word expression w
  | sum {o : Symbol} {v w : List Symbol} (ho : o ∈ [plus, minus]) (h : Word term v)
    (h' : Word expression w) : Word expression (v ++ [o] ++ w)
  | oneFactor {w : List Symbol} (h : Word factor w) : Word term w
  | product {o : Symbol} {v w : List Symbol} (ho : o ∈ [times, divide]) (h : Word factor v)
    (h' : Word term w) : Word term (v ++ [o] ++ w)
  | operand {s : Symbol} (hs : s ∈ [identifier, number]) : Word factor [s]
  | parenthesised {w : List Symbol} (h : Word expression w) :
    Word factor ([leftParen] ++ w ++ [rightParen])
  | whileLoop {v w : List Symbol} (h : Word condition v) (h' : Word statementList w) :
    Word whileStatement ([kwWhile] ++ v ++ [kwLoop] ++ w ++ [kwEnd, kwLoop])
  | forLoop {u v u' w : List Symbol} (h : Word assignment u) (h' : Word condition v)
    (h'' : Word assignment u') (hw : Word statementList w) :
    Word forStatement ([kwFor, leftParen] ++ u ++ [semicolon] ++ v ++ [semicolon] ++ u' ++
      [rightParen, kwDo] ++ w ++ [kwEnd, kwLoop])
  | ifThen {v w : List Symbol} (h : Word condition v) (h' : Word statementList w) :
    Word ifStatement ([kwIf] ++ v ++ [kwThen] ++ w ++ [kwEnd, kwIf])
  | ifElse {v w w' : List Symbol} (h : Word condition v) (h' : Word statementList w)
    (h'' : Word statementList w') :
    Word ifStatement ([kwIf] ++ v ++ [kwThen] ++ w ++ [kwElse] ++ w' ++ [kwEnd, kwIf])
  | callEmpty : Word procedureCall [kwCall, identifier, leftParen, rightParen]
  | call {w : List Symbol} (h : Word argumentList w) :
    Word procedureCall ([kwCall, identifier, leftParen] ++ w ++ [rightParen])
  | arguments {l : List (List Symbol)} (hs : ∀ u ∈ l, Word argumentList u) :
    Word argumentList ([identifier] ++ l.flatMap ([comma] ++ ·))
  | untilLoop {v w : List Symbol} (h : Word statementList w) (h' : Word condition v) :
    Word untilStatement ([kwDo] ++ w ++ [kwUntil] ++ v)
  | comparison {s : Symbol} {o : List Symbol} (h : Word conditionalOperator o)
    (hs : s ∈ [identifier, number]) : Word condition ([identifier] ++ o ++ [s])
  | operator {o : Symbol} (ho : o ∈ [equal, notEqual, less, greater]) :
    Word conditionalOperator [o]

/-- A word is spelled part by part, where `P` says how phrases are spelled. -/
def Spelled (P : Nonterminal → List Symbol → Prop) : List Part → List Symbol → Prop
  | [], w => w = []
  | .symbol s :: ps, w => ∃ v, w = s :: v ∧ Spelled P ps v
  | .phrase n :: ps, w => ∃ u v, w = u ++ v ∧ P n u ∧ Spelled P ps v

/-- What is spelled by a production of a phrase is a word of the phrase. -/
def ClosedUnderProductions (P : Nonterminal → List Symbol → Prop) : Prop :=
  ∀ n, ∀ qs ∈ productions n, ∀ w, Spelled P qs w → P n w

lemma Word.list_cons {v w : List Symbol} (h : Word statement v) (h' : Word statementList w) :
    Word statementList (v ++ [semicolon] ++ w) := by
  cases h' with
  | @list u last us hu hus hlast =>
    have := Word.list (l := u :: us) h (by simpa using ⟨hu, hus⟩) hlast
    simpa using this

lemma Word.arguments_cons {w : List Symbol} (h : Word argumentList w) :
    Word argumentList ([identifier, comma] ++ w) := by
  simpa using Word.arguments (l := [w]) (by simpa using h)

theorem Word.closed : ClosedUnderProductions Word := by
  intro n qs hq w hw
  -- Lists and arguments are words of any length, and nesting makes them longer. The other
  -- productions are rules as they stand.
  cases n <;> simp only [productions, List.mem_cons, List.not_mem_nil, or_false] at hq
  case statementPart =>
    subst hq
    simp [Spelled] at hw
    obtain ⟨u, rfl, hu⟩ := hw
    simpa using Word.part hu
  case statementList =>
    rcases hq with rfl | rfl | rfl <;> simp [Spelled] at hw
    · simpa using Word.list (l := []) hw (by simp) (.inl rfl)
    · obtain ⟨u, rfl, hu⟩ := hw
      simpa using Word.list (l := []) hu (by simp) (.inr rfl)
    · obtain ⟨u, v, rfl, hu, hv⟩ := hw
      simpa using Word.list_cons hu hv
  case statement =>
    rcases hq with rfl | rfl | rfl | rfl | rfl | rfl <;> simp [Spelled] at hw <;>
      exact .form (by decide) hw
  case assignment =>
    rcases hq with rfl | rfl <;> simp [Spelled] at hw
    · exact hw ▸ .assignString
    · obtain ⟨u, rfl, hu⟩ := hw
      exact .assign hu
  case expression =>
    rcases hq with rfl | rfl | rfl <;> simp [Spelled] at hw
    · exact .oneTerm hw
    all_goals
      obtain ⟨u, v, rfl, hu, hv⟩ := hw
      simpa using Word.sum (by decide) hu hv
  case term =>
    rcases hq with rfl | rfl | rfl <;> simp [Spelled] at hw
    · exact .oneFactor hw
    all_goals
      obtain ⟨u, v, rfl, hu, hv⟩ := hw
      simpa using Word.product (by decide) hu hv
  case factor =>
    rcases hq with rfl | rfl | rfl <;> simp [Spelled] at hw
    · exact hw ▸ .operand (by decide)
    · exact hw ▸ .operand (by decide)
    · obtain ⟨u, rfl, hu⟩ := hw
      simpa using Word.parenthesised hu
  case whileStatement =>
    subst hq
    simp [Spelled] at hw
    obtain ⟨u, v, rfl, hu, hv⟩ := hw
    simpa using Word.whileLoop hu hv
  case forStatement =>
    subst hq
    simp [Spelled] at hw
    obtain ⟨u, v, u', w, rfl, hu, hv, hu', hw⟩ := hw
    simpa using Word.forLoop hu hv hu' hw
  case ifStatement =>
    rcases hq with rfl | rfl <;> simp [Spelled] at hw
    · obtain ⟨u, v, rfl, hu, hv⟩ := hw
      simpa using Word.ifThen hu hv
    · obtain ⟨u, v, v', rfl, hu, hv, hv'⟩ := hw
      simpa using Word.ifElse hu hv hv'
  case procedureCall =>
    rcases hq with rfl | rfl <;> simp [Spelled] at hw
    · exact hw ▸ .callEmpty
    · obtain ⟨u, rfl, hu⟩ := hw
      simpa using Word.call hu
  case argumentList =>
    rcases hq with rfl | rfl <;> simp [Spelled] at hw
    · simpa [hw] using Word.arguments (l := [])
    · obtain ⟨u, rfl, hu⟩ := hw
      exact .arguments_cons hu
  case untilStatement =>
    subst hq
    simp [Spelled] at hw
    obtain ⟨u, v, rfl, hu, hv⟩ := hw
    simpa using Word.untilLoop hu hv
  case condition =>
    rcases hq with rfl | rfl <;> simp [Spelled] at hw
    all_goals
      obtain ⟨u, rfl, hu⟩ := hw
      simpa using Word.comparison hu (by decide)
  case conditionalOperator =>
    rcases hq with rfl | rfl | rfl | rfl <;> simp [Spelled] at hw <;>
      exact hw ▸ .operator (by decide)

/-- An argument list of one argument and so many more. -/
def argumentsWord (k : Nat) : List Symbol :=
  identifier :: (List.replicate k [comma, identifier]).flatten

lemma Word.exists_arguments {w : List Symbol} (h : Word argumentList w) :
    ∃ k, w = argumentsWord k := by
  generalize hn : argumentList = n at h
  induction h with
  | @arguments vs hs ih =>
    clear hs
    induction vs with
    | nil => exact ⟨0, rfl⟩
    | cons u vs ihv =>
      obtain ⟨i, rfl⟩ := ih u (by simp) rfl
      obtain ⟨j, hj⟩ := ihv fun u hu => ih u (by simp [hu])
      have hj' : vs.flatMap ([comma] ++ ·) = (List.replicate j [comma, identifier]).flatten :=
        (List.cons.inj hj).2
      refine ⟨i + 1 + j, ?_⟩
      unfold argumentsWord
      rw [← List.replicate_append_replicate, List.replicate_succ, List.flatten_append, ← hj']
      rfl
  | _ => cases hn

/-- **Words are the least** that is closed under the productions. -/
theorem Word.least {P : Nonterminal → List Symbol → Prop} (hP : ClosedUnderProductions P)
    {n : Nonterminal} {w : List Symbol} (h : Word n w) : P n w := by
  induction h with
  | part _ ih =>
    exact hP _ [kwBegin, statementList, kwEnd] (by decide) _ (by simpa [Spelled] using ih)
  | @list v last vs h hs hlast ih ihs =>
    induction vs generalizing v with
    | nil =>
      rcases hlast with rfl | rfl
      · exact hP _ [statement] (by decide) _ (by simpa [Spelled] using ih)
      · exact hP _ [statement, semicolon] (by decide) _ (by simpa [Spelled] using ih)
    | cons u vs ihv =>
      have hrest : P statementList (u ++ vs.flatMap ([semicolon] ++ ·) ++ last) :=
        ihv (hs u (by simp)) (fun u hu => hs u (by simp [hu])) (ihs u (by simp))
          fun u hu => ihs u (by simp [hu])
      exact hP _ [statement, semicolon, statementList] (by decide) _
        ⟨v, [semicolon] ++ (u ++ vs.flatMap ([semicolon] ++ ·) ++ last), by simp, ih, _, rfl, _, [],
          by simp, hrest, rfl⟩
  | @form n w hn _ ih =>
    have hq : ∀ n ∈ [assignment, whileStatement, ifStatement, procedureCall, untilStatement,
        forStatement], [Part.phrase n] ∈ productions statement := by decide
    exact hP _ _ (hq n hn) _ (by simpa [Spelled] using ih)
  | assignString =>
    exact hP _ [identifier, becomes, string] (by decide) _ (by simp [Spelled])
  | assign _ ih =>
    exact hP _ [identifier, becomes, expression] (by decide) _ (by simpa [Spelled] using ih)
  | oneTerm _ ih => exact hP _ [term] (by decide) _ (by simpa [Spelled] using ih)
  | @sum o v w ho _ _ ih ih' =>
    have hq : [Part.phrase term, .symbol o, .phrase expression] ∈ productions expression := by
      revert o; decide
    exact hP _ _ hq _ (by simpa [Spelled] using ⟨v, w, rfl, ih, ih'⟩)
  | oneFactor _ ih => exact hP _ [factor] (by decide) _ (by simpa [Spelled] using ih)
  | @product o v w ho _ _ ih ih' =>
    have hq : [Part.phrase factor, .symbol o, .phrase term] ∈ productions term := by
      revert o; decide
    exact hP _ _ hq _ (by simpa [Spelled] using ⟨v, w, rfl, ih, ih'⟩)
  | @operand s hs =>
    have hq : [Part.symbol s] ∈ productions factor := by revert s; decide
    exact hP _ _ hq _ (by simp [Spelled])
  | parenthesised _ ih =>
    exact hP _ [leftParen, expression, rightParen] (by decide) _ (by simpa [Spelled] using ih)
  | @whileLoop v w _ _ ih ih' =>
    exact hP _ [kwWhile, condition, kwLoop, statementList, kwEnd, kwLoop] (by decide) _
      (by simpa [Spelled] using ⟨v, w, rfl, ih, ih'⟩)
  | @forLoop u v u' w _ _ _ _ ihu ihv ihu' ihw =>
    exact hP _ [kwFor, leftParen, assignment, semicolon, condition, semicolon, assignment,
      rightParen, kwDo, statementList, kwEnd, kwLoop] (by decide) _
      (by simpa [Spelled] using ⟨u, v, u', w, rfl, ihu, ihv, ihu', ihw⟩)
  | @ifThen v w _ _ ih ih' =>
    exact hP _ [kwIf, condition, kwThen, statementList, kwEnd, kwIf] (by decide) _
      (by simpa [Spelled] using ⟨v, w, rfl, ih, ih'⟩)
  | @ifElse v w w' _ _ _ ih ih' ih'' =>
    exact hP _ [kwIf, condition, kwThen, statementList, kwElse, statementList, kwEnd, kwIf]
      (by decide) _ (by simpa [Spelled] using ⟨v, w, w', rfl, ih, ih', ih''⟩)
  | callEmpty =>
    exact hP _ [kwCall, identifier, leftParen, rightParen] (by decide) _ (by simp [Spelled])
  | call _ ih =>
    exact hP _ [kwCall, identifier, leftParen, argumentList, rightParen] (by decide) _
      (by simpa [Spelled] using ih)
  | arguments hs _ =>
    -- the words that are nested here need not be those that the productions nest
    obtain ⟨k, hk⟩ := (Word.arguments hs).exists_arguments
    rw [hk]
    clear hk
    induction k with
    | zero => exact hP _ [identifier] (by decide) _ (by simp [Spelled, argumentsWord])
    | succ k ihk =>
      exact hP _ [identifier, comma, argumentList] (by decide) _
        (by simpa [Spelled, argumentsWord, List.replicate_succ] using ihk)
  | @untilLoop v w _ _ ih ih' =>
    exact hP _ [kwDo, statementList, kwUntil, condition] (by decide) _
      (by simpa [Spelled] using ⟨w, v, rfl, ih, ih'⟩)
  | @comparison s o _ hs ih =>
    have hq : [Part.symbol identifier, .phrase conditionalOperator, .symbol s] ∈
        productions condition := by
      revert s; decide
    exact hP _ _ hq _ (by simpa [Spelled] using ih)
  | @operator o ho =>
    have hq : [Part.symbol o] ∈ productions conditionalOperator := by revert o; decide
    exact hP _ _ hq _ (by simp [Spelled])

/-! ### Words and trees -/

/-- The leaves of a forest are of the kinds that a word says. -/
def Forest.Spells (f : Forest) (w : List Symbol) : Prop :=
  f.tokens.map Token.kind = w.map Kind.known

lemma Forest.Derives.exists_spelled {ps : List Part} {f : Forest} (h : Derives ps f) :
    ∃ w, Spelled Word ps w ∧ f.Spells w := by
  induction h with
  | nil => exact ⟨[], rfl, rfl⟩
  | @symbol s t ps rest ht _ ih =>
    obtain ⟨w, hw, hf⟩ := ih
    exact ⟨s :: w, ⟨w, rfl, hw⟩, by simpa [Spells, ht] using hf⟩
  | @phrase n qs ps children rest hq _ _ ihc ih =>
    obtain ⟨u, hu, hc⟩ := ihc
    obtain ⟨v, hv, hr⟩ := ih
    refine ⟨u ++ v, ⟨u, v, rfl, Word.closed n qs hq u hu, hv⟩, ?_⟩
    rw [Spells, tokens_node, List.map_append, List.map_append, hc, hr]

lemma Spelled.exists_derives {ps : List Part} {w : List Symbol}
    (h : Spelled (fun n w => ∃ f, IsBody n f ∧ f.Spells w) ps w) :
    ∃ f, Derives ps f ∧ f.Spells w := by
  induction ps generalizing w with
  | nil => exact ⟨.nil, .nil, by rw [show w = [] from h]; rfl⟩
  | cons p ps ih =>
    cases p with
    | symbol s =>
      obtain ⟨v, rfl, hv⟩ := h
      obtain ⟨f, hf, hs⟩ := ih hv
      refine ⟨.leaf ⟨.known s, "", 0, 0⟩ f, .symbol rfl hf, ?_⟩
      simpa [Spells] using hs
    | phrase n =>
      obtain ⟨u, v, rfl, ⟨c, ⟨qs, hq, hc⟩, hu⟩, hv⟩ := h
      obtain ⟨f, hf, hs⟩ := ih hv
      refine ⟨.node n c f, .phrase hq hc hf, ?_⟩
      rw [Spells, tokens_node, List.map_append, List.map_append, hu, hs]

lemma Forest.IsBody.exists_word {n : Nonterminal} {f : Forest} (h : IsBody n f) :
    ∃ w, Word n w ∧ f.Spells w := by
  obtain ⟨qs, hq, hd⟩ := h
  obtain ⟨w, hw, hf⟩ := hd.exists_spelled
  exact ⟨w, Word.closed n qs hq w hw, hf⟩

lemma Word.exists_isBody {n : Nonterminal} {w : List Symbol} (h : Word n w) :
    ∃ f, IsBody n f ∧ f.Spells w := by
  refine h.least (P := fun n w => ∃ f, IsBody n f ∧ f.Spells w) fun n qs hq w hw => ?_
  obtain ⟨f, hf, hs⟩ := Spelled.exists_derives hw
  exact ⟨f, ⟨qs, hq, hf⟩, hs⟩

end StatementLang
