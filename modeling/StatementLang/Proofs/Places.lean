import Mathlib.Data.List.Induction
import Mathlib.Tactic.Lemma
import StatementLang.Place

/-!
Places, counted from what stands before them.

A place in a text is given by the characters before it: its line by how many of them are line feeds,
its column by how many stand behind the last line feed. A reader counts its place while it goes; the
two agree (`advance_start`).
-/

namespace StatementLang.Place

/-- The characters behind the last line feed. -/
def lastLine (cs : List Char) : List Char := (cs.reverse.takeWhile (· ≠ '\n')).reverse

/-- The place behind the characters that a text begins with. -/
def behind (cs : List Char) : Place := ⟨1 + cs.count '\n', 1 + (lastLine cs).length⟩

@[simp] lemma behind_nil : behind [] = start := rfl

lemma behind_snoc (cs : List Char) (c : Char) : behind (cs ++ [c]) = (behind cs).after c := by
  by_cases hc : c = '\n'
  · subst hc
    simp [behind, lastLine, after, Int.add_assoc]
  · simp [behind, lastLine, after, hc, Int.add_assoc]

/-- **A reader that goes on counts what stands before it.** -/
theorem advance_behind (as bs : List Char) : (behind as).advance bs = behind (as ++ bs) := by
  induction bs using List.reverseRecOn with
  | nil => simp
  | append_singleton bs c ih =>
    rw [advance_append, ih, ← List.append_assoc, behind_snoc, advance_cons, advance_nil]

theorem advance_start (cs : List Char) : start.advance cs = behind cs := advance_behind [] cs

end StatementLang.Place
