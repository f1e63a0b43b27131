/-!
The part of a text before a mark.
-/

namespace StatementLang.Text

/-- The characters before the first occurrence of `mark`, or all of them if there is none. -/
def beforeChars (mark : List Char) : List Char → List Char
  | [] => []
  | c :: cs => if mark.isPrefixOf (c :: cs) then [] else c :: beforeChars mark cs

/-- The text before the first occurrence of `mark`. -/
def before (mark text : String) : String :=
  String.ofList (beforeChars mark.toList text.toList)

end StatementLang.Text
