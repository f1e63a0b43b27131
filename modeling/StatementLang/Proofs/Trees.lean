import StatementLang.Proofs.Prediction

/-!
The phrases that are built are the trees of the grammar that the next token does not go on with
(`parsed_iff`).

What follows a phrase inside a production is always a symbol, and one that may follow the phrase;
such a symbol never goes on with a tree (`IsBody.stops`). So only the right edge of a tree is in
question.
-/

namespace StatementLang

open StatementLang.Symbol StatementLang.Nonterminal Forest

namespace Forest

def length : Forest → Nat
  | nil => 0
  | leaf _ rest => rest.length + 1
  | node _ _ rest => rest.length + 1

/-- A token of kind `k` does not go on with the last tree of a forest, nor with what is last in
that tree. -/
def Ended (k : Kind) : Forest → Prop
  | nil => True
  | leaf _ rest => rest.Ended k
  | node n children nil => halts n children.length k ∧ children.Ended k
  | node _ _ rest => rest.Ended k

/-- A token of kind `k` does not go on with a phrase whose body is the forest. -/
def Stops (n : Nonterminal) (k : Kind) (f : Forest) : Prop := halts n f.length k ∧ f.Ended k

@[simp] lemma ended_nil (k : Kind) : nil.Ended k := trivial

@[simp] lemma ended_leaf {k : Kind} {t : Token} {rest : Forest} :
    (leaf t rest).Ended k ↔ rest.Ended k := Iff.rfl

@[simp] lemma ended_node_nil {k : Kind} {n : Nonterminal} {children : Forest} :
    (node n children nil).Ended k ↔ children.Stops n k := Iff.rfl

lemma ended_node {k : Kind} {n : Nonterminal} {children rest : Forest} (h : rest ≠ nil) :
    (node n children rest).Ended k ↔ rest.Ended k := by
  cases rest with
  | nil => exact absurd rfl h
  | leaf => rfl
  | node => rfl

lemma Derives.length_eq {ps : List Part} {f : Forest} (h : Derives ps f) :
    f.length = ps.length := by
  induction h with
  | nil => rfl
  | symbol _ _ ih => simp [length, ih]
  | phrase _ _ _ _ ih => simp [length, ih]

end Forest

def follow : Nonterminal → List Symbol
  | statementPart => [endOfFile]
  | statementList => listClosers
  | statement | whileStatement | forStatement | ifStatement | procedureCall | untilStatement =>
    semicolon :: listClosers
  | assignment | expression => rightParen :: semicolon :: listClosers
  | term => addingOperators ++ rightParen :: semicolon :: listClosers
  | factor => multiplyingOperators ++ addingOperators ++ rightParen :: semicolon :: listClosers
  | argumentList => [rightParen]
  | condition => kwLoop :: kwThen :: semicolon :: listClosers
  | conditionalOperator => comparands

/-- Every phrase among the parts is the last of them, or comes before a symbol that may follow. -/
def Separated : List Part → Bool
  | [] => true
  | [.phrase _] => true
  | .phrase n :: .symbol s :: ps => s ∈ follow n && Separated (.symbol s :: ps)
  | .phrase _ :: .phrase _ :: _ => false
  | .symbol _ :: ps => Separated ps

lemma separated_productions {n : Nonterminal} {qs : List Part} (h : qs ∈ productions n) :
    Separated qs := by
  have : ∀ qs ∈ productions n, Separated qs := by cases n <;> decide
  exact this qs h

lemma follow_productions {n : Nonterminal} {qs : List Part} {s : Symbol} (h : qs ∈ productions n)
    (hs : s ∈ follow n) :
    halts n qs.length (.known s) ∧ ∀ m, qs.getLast? = some (.phrase m) → s ∈ follow m := by
  have : ∀ qs ∈ productions n, ∀ s ∈ follow n, halts n qs.length (.known s) ∧
      ∀ m ∈ Nonterminal.all, qs.getLast? = some (.phrase m) → s ∈ follow m := by
    cases n <;> decide
  exact ⟨(this qs h s hs).1, fun m => (this qs h s hs).2 m m.mem_all⟩

/-! ### Trees are built -/

lemma Forest.Derives.ended {ps : List Part} {f : Forest} {s : Symbol} (h : Derives ps f)
    (hs : ∀ m, ps.getLast? = some (.phrase m) → s ∈ follow m) : f.Ended (.known s) := by
  induction h with
  | nil => exact ended_nil _
  | symbol _ _ ih => exact ih fun m hm => hs m (by simp [List.getLast?_cons, hm])
  | @phrase n qs ps children rest hq hc h ihc ih =>
    by_cases hrest : rest = .nil
    · -- the edge goes on into the last tree
      subst hrest
      cases h
      have hn : s ∈ follow n := hs n rfl
      have hfollow := follow_productions hq hn
      exact ⟨by rw [hc.length_eq]; exact hfollow.1, ihc hfollow.2⟩
    · rw [ended_node hrest]
      exact ih fun m hm => hs m (by simp [List.getLast?_cons, hm])

theorem Forest.IsBody.stops {n : Nonterminal} {f : Forest} {s : Symbol} (h : IsBody n f)
    (hs : s ∈ follow n) : f.Stops n (.known s) := by
  obtain ⟨qs, hq, hd⟩ := h
  have hfollow := follow_productions hq hs
  exact ⟨by rw [hd.length_eq]; exact hfollow.1, hd.ended hfollow.2⟩

lemma foretold_symbol_iff {k : Kind} {s : Symbol} {ps : List Part} {f : Forest}
    (hrest : ∀ r : Forest, r.size < f.size → (Foretold k ps r ↔ Derives ps r ∧ r.Ended k)) :
    Foretold k (.symbol s :: ps) f ↔ Derives (.symbol s :: ps) f ∧ f.Ended k := by
  rw [Foretold.symbol_iff, derives_symbol_iff]
  constructor
  · rintro ⟨t, rest, rfl, ht, h⟩
    obtain ⟨hd, he⟩ := (hrest rest (by simp only [size]; omega)).1 h
    exact ⟨⟨t, rest, rfl, ht, hd⟩, he⟩
  · rintro ⟨⟨t, rest, rfl, ht, hd⟩, he⟩
    exact ⟨t, rest, rfl, ht, (hrest rest (by simp only [size]; omega)).2 ⟨hd, he⟩⟩

lemma foretold_last_iff {k : Kind} {n : Nonterminal} {f : Forest}
    (hbody : ∀ c : Forest, c.size < f.size → (Parsed n k c ↔ IsBody n c ∧ c.Stops n k)) :
    Foretold k [.phrase n] f ↔ Derives [.phrase n] f ∧ f.Ended k := by
  rw [Foretold.phrase_iff, derives_phrase_iff]
  constructor
  · rintro ⟨c, rest, rfl, hc, h⟩
    obtain rfl := Foretold.nil_iff.1 h
    obtain ⟨hb, hs⟩ := (hbody c (by simp only [size]; omega)).1 hc
    exact ⟨⟨c, .nil, rfl, hb, .nil⟩, hs⟩
  · rintro ⟨⟨c, rest, rfl, hb, h⟩, hs⟩
    obtain rfl := derives_nil_iff.1 h
    exact ⟨c, .nil, rfl, (hbody c (by simp only [size]; omega)).2 ⟨hb, hs⟩, .nil⟩

lemma foretold_inner_iff {k : Kind} {n : Nonterminal} {s : Symbol} {ps : List Part} {f : Forest}
    (hs : s ∈ follow n)
    (hbody : ∀ c : Forest, c.size < f.size →
      (Parsed n (.known s) c ↔ IsBody n c ∧ c.Stops n (.known s)))
    (hrest : ∀ r : Forest, r.size < f.size →
      (Foretold k (.symbol s :: ps) r ↔ Derives (.symbol s :: ps) r ∧ r.Ended k)) :
    Foretold k (.phrase n :: .symbol s :: ps) f ↔
      Derives (.phrase n :: .symbol s :: ps) f ∧ f.Ended k := by
  rw [Foretold.phrase_iff, derives_phrase_iff]
  constructor
  · rintro ⟨c, rest, rfl, hc, h⟩
    obtain ⟨hd, he⟩ := (hrest rest (by simp only [size]; omega)).1 h
    obtain ⟨t, r, rfl, ht, -⟩ := derives_symbol_iff.1 hd
    rw [tokens_leaf, ahead_cons, ht] at hc
    obtain ⟨hb, -⟩ := (hbody c (by simp only [size]; omega)).1 hc
    exact ⟨⟨c, .leaf t r, rfl, hb, hd⟩, he⟩
  · rintro ⟨⟨c, rest, rfl, hb, hd⟩, he⟩
    obtain ⟨t, r, rfl, ht, -⟩ := derives_symbol_iff.1 hd
    have hc : Parsed n (.known s) c :=
      (hbody c (by simp only [size]; omega)).2 ⟨hb, hb.stops hs⟩
    have h := (hrest (.leaf t r) (by simp only [size]; omega)).2 ⟨hd, he⟩
    exact ⟨c, .leaf t r, rfl, by rwa [tokens_leaf, ahead_cons, ht], h⟩

lemma foretold_iff_of_smaller {k : Kind} {N : Nat}
    (ih : ∀ m c k', c.size < N → (Parsed m k' c ↔ IsBody m c ∧ c.Stops m k')) {ps : List Part}
    (hps : Separated ps) {f : Forest} (hN : f.size ≤ N) :
    Foretold k ps f ↔ Derives ps f ∧ f.Ended k := by
  induction ps generalizing f with
  | nil =>
    rw [Foretold.nil_iff, derives_nil_iff]
    exact ⟨fun h => ⟨h, h ▸ ended_nil k⟩, And.left⟩
  | cons p ps ihp =>
    cases p with
    | symbol s => exact foretold_symbol_iff fun r hr => ihp hps (by omega)
    | phrase n =>
      rcases ps with _ | ⟨s | m, ps⟩
      · exact foretold_last_iff fun c hc => ih n c k (by omega)
      · simp only [Separated, Bool.and_eq_true, decide_eq_true_eq] at hps
        exact foretold_inner_iff hps.1 (fun c hc => ih n c _ (by omega))
          fun r hr => ihp hps.2 (by omega)
      · simp [Separated] at hps

/-- **The phrases that are built are the trees of the grammar** that the next token does not go on
with. -/
theorem parsed_iff {n : Nonterminal} {k : Kind} {f : Forest} :
    Parsed n k f ↔ IsBody n f ∧ f.Stops n k := by
  induction hN : f.size using Nat.strongRecOn generalizing n k f with
  | ind N ih =>
    have ih' : ∀ m c k', c.size < N → (Parsed m k' c ↔ IsBody m c ∧ c.Stops m k') :=
      fun m c k' hc => ih c.size hc rfl
    rw [parsed_iff_foretold]
    constructor
    · rintro ⟨qs, hq, hf, hh⟩
      obtain ⟨hd, he⟩ :=
        (foretold_iff_of_smaller ih' (separated_productions hq) (Nat.le_of_eq hN)).1 hf
      exact ⟨⟨qs, hq, hd⟩, by rwa [hd.length_eq], he⟩
    · rintro ⟨⟨qs, hq, hd⟩, hh, he⟩
      refine ⟨qs, hq, ?_, by rwa [← hd.length_eq]⟩
      exact (foretold_iff_of_smaller ih' (separated_productions hq) (Nat.le_of_eq hN)).2 ⟨hd, he⟩

end StatementLang
