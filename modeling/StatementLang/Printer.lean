import StatementLang.Text.Quoted
import StatementLang.Token

/-!
Printers write a derivation as it goes, a line for each event, indented by the number of phrases
open. Indent and depth may be negative, and then no blanks are written.
-/

namespace StatementLang

structure Printer where
  /-- Blanks for each phrase that is open. -/
  indent : Int
  depth : Int
  /-- The lines written, the last one first. -/
  latest : List String

namespace Printer

def ofIndent (indent : Int) : Printer := ⟨indent, 0, []⟩

def defaultIndent : Int := 2

/-- The lines written, in order. -/
def lines (p : Printer) : List String := p.latest.reverse

def linesSince (p earlier : Printer) : List String := p.lines.drop earlier.lines.length

/-- Lines as a text, each with its line end. -/
def textOf (lines : List String) : String := String.join (lines.map (· ++ "\n"))

/-- Writes a line at the present depth. -/
def write (p : Printer) (line : String) : Printer :=
  let blanks := String.ofList (List.replicate (p.indent * p.depth).toNat ' ')
  { p with latest := (blanks ++ line) :: p.latest }

def enter (p : Printer) (name : String) : Printer :=
  let p := p.write ("-> " ++ name)
  { p with depth := p.depth + 1 }

def leave (p : Printer) (name : String) : Printer :=
  { p with depth := p.depth - 1 }.write ("<- " ++ name)

/-- Writes a token under the name of its kind. -/
def token (p : Printer) (kindName : String) (t : Token) : Printer :=
  p.write (kindName ++ " " ++ Text.quoted t.value ++ " (line " ++ toString t.line ++ ")")

end Printer

end StatementLang
