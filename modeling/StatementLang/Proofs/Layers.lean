import Mathlib.Tactic.Lemma
import StatementLang.Session.Run

/-!
The layers of an error that passes through open phrases.

Every phrase that is left by a failure adds one layer, all of them with the same line. The names
can be read off the layers again (`nonterminals_rejection`), because no name holds the mark
between a name and its line, nor a beginning of it that the mark could complete.
-/

namespace StatementLang

namespace Text

/-- No mark begins inside the text, whatever comes after it. -/
def avoids (mark : List Char) : List Char → Bool
  | [] => true
  | c :: cs => !mark.isPrefixOf (c :: cs) && !(c :: cs).isPrefixOf mark && avoids mark cs

lemma beforeChars_append {mark as : List Char} (h : avoids mark as) (hm : mark ≠ [])
    (rest : List Char) : beforeChars mark (as ++ (mark ++ rest)) = as := by
  induction as with
  | nil =>
    obtain ⟨m, ms, rfl⟩ := List.exists_cons_of_ne_nil hm
    rw [List.nil_append, List.cons_append, beforeChars, if_pos]
    exact List.isPrefixOf_iff_prefix.2 (List.prefix_append (m :: ms) rest)
  | cons a as ih =>
    simp only [avoids, Bool.and_eq_true, Bool.not_eq_true', ← Bool.not_eq_true,
      List.isPrefixOf_iff_prefix] at h
    obtain ⟨⟨hmark, has⟩, h⟩ := h
    have hn : ¬ mark <+: a :: (as ++ (mark ++ rest)) := fun hp =>
      (List.prefix_or_prefix_of_prefix hp (List.prefix_append (a :: as) _)).elim hmark has
    rw [List.cons_append, beforeChars, if_neg (by rwa [List.isPrefixOf_iff_prefix]), ih h]

lemma before_append {mark text : String} (h : avoids mark.toList text.toList)
    (hm : mark.toList ≠ []) (rest : String) : before mark (text ++ mark ++ rest) = text := by
  rw [before, String.toList_append, String.toList_append, List.append_assoc,
    beforeChars_append h hm, String.ofList_toList]

end Text

namespace GrammarError

/-- The same error inside phrases that stopped on one line, the innermost first. -/
def withinAll (e : GrammarError) (ns : List Nonterminal) (line : Int) : GrammarError :=
  ns.foldl (fun e n => e.within n.name line) e

/-- What an error adds for a phrase that stopped on a line. -/
def layer (line : Int) (name : String) : Violation :=
  ⟨name ++ lineMark ++ toString line, none, none⟩

lemma chain_withinAll (e : GrammarError) (ns : List Nonterminal) (line : Int) :
    (e.withinAll ns line).chain = (ns.reverse.map fun n => layer line n.name) ++ e.chain := by
  induction ns generalizing e with
  | nil => rfl
  | cons n ns ih =>
    rw [withinAll, List.foldl_cons, ← withinAll, ih, chain_within]
    simp [layer]

lemma root_withinAll (e : GrammarError) (ns : List Nonterminal) (line : Int) :
    (e.withinAll ns line).root = e.root := by
  induction ns generalizing e with
  | nil => rfl
  | cons n ns ih =>
    rw [withinAll, List.foldl_cons, ← withinAll, ih, root_within]

lemma avoids_lineMark (n : Nonterminal) : Text.avoids lineMark.toList n.name.toList := by
  cases n <;> decide

lemma before_layer (line : Int) (n : Nonterminal) :
    Text.before lineMark (layer line n.name).message = n.name :=
  Text.before_append (avoids_lineMark n) (by decide) _

end GrammarError

lemma Sink.violation_of_label {sink sink' : Sink} (h : sink'.label = sink.label) (t : Token)
    (expected : String) : sink'.violation t expected = sink.violation t expected := by
  unfold violation
  rw [h]

namespace Session

/-- The error with which goals reject the token ahead. -/
def rejection (s : Session) (gs : List Goal) (e : Expectation) : GrammarError :=
  .withinAll (.ofViolation (s.sink.violation s.lookahead e.text)) (Goal.openPhrases gs)
    s.lookahead.line

lemma rejection_congr {s t : Session} (hahead : t.lookahead = s.lookahead)
    (hlabel : t.sink.label = s.sink.label) (gs : List Goal) (e : Expectation) :
    t.rejection gs e = s.rejection gs e := by
  rw [rejection, rejection, hahead, Sink.violation_of_label hlabel]

variable (s : Session) (gs : List Goal) (e : Expectation)

lemma reject_within : (s.reject e.text).1.within (Goal.openPhrases gs) s.lookahead.line =
    .grammar (s.rejection gs e) := rfl

lemma chain_rejection : (s.rejection gs e).chain =
    ((Goal.openPhrases gs).reverse.map fun n => GrammarError.layer s.lookahead.line n.name) ++
      [s.sink.violation s.lookahead e.text] :=
  GrammarError.chain_withinAll ..

lemma root_rejection : (s.rejection gs e).root = s.sink.violation s.lookahead e.text :=
  GrammarError.root_withinAll ..

/-- **The phrases that an error names** are those that were open, the outermost first. -/
theorem nonterminals_rejection : (s.rejection gs e).nonterminals =
    (Goal.openPhrases gs).reverse.map Nonterminal.name := by
  rw [GrammarError.nonterminals, chain_rejection, List.dropLast_concat, List.map_map]
  exact List.map_congr_left fun n _ => GrammarError.before_layer _ n

end Session

end StatementLang
