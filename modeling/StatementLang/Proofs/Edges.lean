import Mathlib.Data.List.Chain
import StatementLang.Proofs.Words

/-!
What stands at the edges of trees.

A phrase begins with one of a few symbols, and ends with one of a few. Where two tokens stand side
by side, the first is the last one of a part of a production and the second is the first one of the
part after it; so what holds of the edges of neighbouring parts holds of all neighbouring tokens
(`Forest.Derives.isChain`).
-/

namespace StatementLang

open StatementLang.Symbol StatementLang.Nonterminal Forest

lemma exists_mem_both {k : Kind} {ss ss' : List Symbol} (h : k ∈ ss.map Kind.known)
    (h' : k ∈ ss'.map Kind.known) : ∃ s ∈ ss, s ∈ ss' := by
  obtain ⟨s, hs, hsk⟩ := List.mem_map.1 h
  obtain ⟨s', hs', hsk'⟩ := List.mem_map.1 h'
  obtain rfl : s = s' := Kind.known.inj (hsk.trans hsk'.symm)
  exact ⟨s, hs, hs'⟩

/-- The symbols that a part can begin with. -/
def Part.first : Part → List Symbol
  | symbol s => [s]
  | phrase n => StatementLang.first n

lemma exists_mem_follow (n : Nonterminal) : ∃ s, s ∈ follow n := by
  cases n <;> exact ⟨_, List.mem_cons_self ..⟩

lemma Forest.IsBody.begins {n : Nonterminal} {f : Forest} (h : IsBody n f) :
    f.Begins (first n) := by
  obtain ⟨s, hs⟩ := exists_mem_follow n
  have hparsed : Parsed n (.known s) f := parsed_iff.2 ⟨h, h.stops hs⟩
  exact hparsed.begins

lemma Forest.Derives.begins {p : Part} {ps : List Part} {f : Forest} (h : Derives (p :: ps) f) :
    f.Begins p.first := by
  cases h with
  | symbol ht _ => exact .leaf ht (List.mem_singleton_self _)
  | phrase hq hc _ =>
    have hbody : IsBody _ _ := ⟨_, hq, hc⟩
    exact hbody.begins.node (List.Subset.refl _)

lemma Forest.Derives.head {ps : List Part} {f : Forest} (h : Derives ps f) :
    ∀ t ∈ f.tokens.head?, ∃ p ∈ ps.head?, t.kind ∈ p.first.map Kind.known := by
  intro t ht
  cases ps with
  | nil =>
    obtain rfl := derives_nil_iff.1 h
    cases ht
  | cons p ps =>
    obtain ⟨u, us, hus, hk⟩ := h.begins
    rw [hus] at ht
    cases ht
    exact ⟨p, rfl, hk⟩

/-! ### Last tokens -/

def statementEnds : List Symbol := [identifier, number, string, rightParen, kwLoop, kwIf]

def last : Nonterminal → List Symbol
  | statementPart => [kwEnd]
  | statementList => semicolon :: statementEnds
  | statement => statementEnds
  | assignment => [identifier, number, string, rightParen]
  | expression | term | factor => [identifier, number, rightParen]
  | whileStatement | forStatement => [kwLoop]
  | ifStatement => [kwIf]
  | procedureCall => [rightParen]
  | argumentList => [identifier]
  | untilStatement | condition => comparands
  | conditionalOperator => conditionalOperators

def Part.last : Part → List Symbol
  | symbol s => [s]
  | phrase n => StatementLang.last n

lemma last_productions {n : Nonterminal} {qs : List Part} (h : qs ∈ productions n) :
    ∃ q ∈ qs.getLast?, q.last ⊆ last n := by
  have : ∀ qs ∈ productions n, (qs.getLast?.any fun q => q.last ⊆ last n) := by
    cases n <;> decide
  obtain ⟨q, hq, hlast⟩ := (Option.any_eq_true ..).1 (this qs h)
  exact ⟨q, hq, of_decide_eq_true hlast⟩

/-- The last token of a forest is one of some symbols. -/
def Forest.Ends (ss : List Symbol) (f : Forest) : Prop :=
  ∃ ts t, f.tokens = ts ++ [t] ∧ t.kind ∈ ss.map Kind.known

namespace Forest.Ends

variable {ss ss' : List Symbol} {f rest : Forest}

lemma getLast (h : f.Ends ss) : ∀ t ∈ f.tokens.getLast?, t.kind ∈ ss.map Kind.known := by
  obtain ⟨ts, u, hu, hk⟩ := h
  intro t ht
  rw [hu, List.getLast?_concat] at ht
  cases ht
  exact hk

lemma mono (h : f.Ends ss) (hs : ss ⊆ ss') : f.Ends ss' := by
  obtain ⟨ts, t, ht, hk⟩ := h
  exact ⟨ts, t, ht, List.map_subset _ hs hk⟩

lemma leaf (t : Token) (h : rest.Ends ss) : (Forest.leaf t rest).Ends ss := by
  obtain ⟨ts, u, hu, hk⟩ := h
  exact ⟨t :: ts, u, by rw [tokens_leaf, hu, List.cons_append], hk⟩

lemma node (n : Nonterminal) (children : Forest) (h : rest.Ends ss) :
    (Forest.node n children rest).Ends ss := by
  obtain ⟨ts, u, hu, hk⟩ := h
  exact ⟨children.tokens ++ ts, u, by rw [tokens_node, hu, List.append_assoc], hk⟩

end Forest.Ends

lemma Forest.Derives.ends {ps : List Part} {f : Forest} (h : Derives ps f) :
    ∀ p ∈ ps.getLast?, f.Ends p.last := by
  induction h with
  | nil => nofun
  | @symbol s t ps rest ht h ih =>
    intro p hp
    cases ps with
    | nil =>
      obtain rfl := derives_nil_iff.1 h
      cases hp
      exact ⟨[], t, rfl, ht ▸ List.mem_singleton_self _⟩
    | cons q ps =>
      rw [List.getLast?_cons_cons] at hp
      exact (ih p hp).leaf t
  | @phrase n qs ps children rest hq _ h ihc ih =>
    intro p hp
    cases ps with
    | nil =>
      obtain rfl := derives_nil_iff.1 h
      cases hp
      obtain ⟨q, hqs, hlast⟩ := last_productions hq
      obtain ⟨ts, t, ht, hk⟩ := (ihc q hqs).mono hlast
      exact ⟨ts, t, by rw [tokens_node, tokens_nil, List.append_nil, ht], hk⟩
    | cons q ps =>
      rw [List.getLast?_cons_cons] at hp
      exact (ih p hp).node n children

theorem Forest.IsBody.ends {n : Nonterminal} {f : Forest} (h : IsBody n f) : f.Ends (last n) := by
  obtain ⟨qs, hq, hd⟩ := h
  obtain ⟨q, hqs, hlast⟩ := last_productions hq
  exact (hd.ends q hqs).mono hlast

/-! ### Neighbours -/

/-- Two tokens are of symbols that a relation allows side by side. -/
def Token.Beside (R : Symbol → Symbol → Prop) (t u : Token) : Prop :=
  ∀ x y, t.kind = .known x → u.kind = .known y → R x y

/-- The edges of two parts are of symbols that a relation allows side by side. -/
def Part.Beside (R : Symbol → Symbol → Prop) (p q : Part) : Prop :=
  ∀ x ∈ p.last, ∀ y ∈ q.first, R x y

instance (R : Symbol → Symbol → Prop) [DecidableRel R] : DecidableRel (Part.Beside R) :=
  fun p q => inferInstanceAs (Decidable (∀ x ∈ p.last, ∀ y ∈ q.first, R x y))

variable {R : Symbol → Symbol → Prop}

lemma Part.Beside.token {p q : Part} {t u : Token} (h : p.Beside R q)
    (ht : t.kind ∈ p.last.map Kind.known) (hu : u.kind ∈ q.first.map Kind.known) :
    t.Beside R u := by
  obtain ⟨x, hx, hxt⟩ := List.mem_map.1 ht
  obtain ⟨y, hy, hyu⟩ := List.mem_map.1 hu
  intro x' y' hx' hy'
  obtain rfl : x = x' := Kind.known.inj (hxt.trans hx')
  obtain rfl : y = y' := Kind.known.inj (hyu.trans hy')
  exact h x hx y hy

/-- **Neighbouring tokens** stand side by side as the edges of neighbouring parts do. -/
theorem Forest.Derives.isChain (hR : ∀ n, ∀ qs ∈ productions n, qs.IsChain (Part.Beside R))
    {ps : List Part} {f : Forest} (h : Derives ps f) (hps : ps.IsChain (Part.Beside R)) :
    f.tokens.IsChain (Token.Beside R) := by
  induction h with
  | nil => exact .nil
  | @symbol s t ps rest ht h ih =>
    rw [List.isChain_cons] at hps
    refine List.isChain_cons.2 ⟨fun u hu => ?_, ih hps.2⟩
    obtain ⟨q, hq, hk⟩ := h.head u hu
    exact (hps.1 q hq).token (ht ▸ List.mem_singleton_self _) hk
  | @phrase n qs ps children rest hq hc h ihc ih =>
    rw [List.isChain_cons] at hps
    refine List.isChain_append.2 ⟨ihc (hR n qs hq), ih hps.2, fun t ht u hu => ?_⟩
    have hbody : IsBody n children := ⟨qs, hq, hc⟩
    obtain ⟨q, hqs, hk⟩ := h.head u hu
    exact (hps.1 q hqs).token (hbody.ends.getLast t ht) hk

def NotBothSeparators (x y : Symbol) : Prop := ¬ (x = semicolon ∧ y = semicolon)

instance : DecidableRel NotBothSeparators := fun x y =>
  inferInstanceAs (Decidable (¬ (x = semicolon ∧ y = semicolon)))

theorem Forest.IsBody.not_separators {n : Nonterminal} {f : Forest} (h : IsBody n f)
    (us vs : List Token) {s s' : Token} (hs : s.kind = .known semicolon)
    (hs' : s'.kind = .known semicolon) : f.tokens ≠ us ++ s :: s' :: vs := by
  have hR : ∀ n, ∀ qs ∈ productions n, qs.IsChain (Part.Beside NotBothSeparators) := by
    intro n
    cases n <;> decide
  obtain ⟨qs, hq, hd⟩ := h
  intro htokens
  have hchain : f.tokens.IsChain (Token.Beside NotBothSeparators) := hd.isChain hR (hR n qs hq)
  rw [htokens] at hchain
  have hbeside : s.Beside NotBothSeparators s' :=
    (List.isChain_cons_cons.1 (List.isChain_append.1 hchain).2.1).1
  exact hbeside semicolon semicolon hs hs' ⟨rfl, rfl⟩

end StatementLang
