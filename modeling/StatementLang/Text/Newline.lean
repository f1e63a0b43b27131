/-!
Line ends of text files. A carriage return, a line feed, or the two together end a line; in memory
every line ends with a line feed.
-/

namespace StatementLang.Text

/-- Makes every line end a single line feed. -/
def unifyNewlines : List Char → List Char
  | '\r' :: '\n' :: cs => '\n' :: unifyNewlines cs
  | '\r' :: cs => '\n' :: unifyNewlines cs
  | c :: cs => c :: unifyNewlines cs
  | [] => []

@[simp] theorem unifyNewlines_nil : unifyNewlines [] = [] := by simp [unifyNewlines]

/-- No carriage return is left. -/
theorem not_mem_unifyNewlines (cs : List Char) : '\r' ∉ unifyNewlines cs := by
  fun_induction unifyNewlines cs with
  | case1 cs ih => simpa using ih
  | case2 cs _ ih => simpa using ih
  | case3 c cs _ hc ih => simpa using ⟨fun h => hc h.symm, ih⟩
  | case4 => simp

/-- A text without carriage returns is kept. -/
theorem unifyNewlines_of_not_mem {cs : List Char} (h : '\r' ∉ cs) : unifyNewlines cs = cs := by
  fun_induction unifyNewlines cs with
  | case1 => simp at h
  | case2 => simp at h
  | case3 c cs _ _ ih => rw [ih fun hc => h (List.mem_cons_of_mem _ hc)]
  | case4 => rfl

end StatementLang.Text
