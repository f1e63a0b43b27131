/-!
Places in a text: lines and columns, counted in characters. A line feed belongs to the line that it
ends, and no other character ends a line.
-/

namespace StatementLang

structure Place where
  line : Int
  column : Int
  deriving DecidableEq

namespace Place

/-- The place of the first character of a text. -/
def start : Place := ⟨1, 1⟩

/-- The place behind one character. -/
def after (p : Place) (c : Char) : Place :=
  if c = '\n' then ⟨p.line + 1, 1⟩ else ⟨p.line, p.column + 1⟩

/-- The place behind a run of characters. -/
def advance (p : Place) (cs : List Char) : Place := cs.foldl after p

@[simp] theorem advance_nil (p : Place) : p.advance [] = p := rfl
@[simp] theorem advance_cons (p : Place) (c : Char) (cs : List Char) :
    p.advance (c :: cs) = (p.after c).advance cs := rfl
theorem advance_append (p : Place) (as bs : List Char) :
    p.advance (as ++ bs) = (p.advance as).advance bs := by
  simp [advance, List.foldl_append]

end Place

end StatementLang
