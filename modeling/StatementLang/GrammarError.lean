import StatementLang.Text.Before
import StatementLang.Token

/-!
Errors in the form of a program.

The innermost violation names the token that could not be taken and what was expected instead.
Around it lies one violation for each phrase that was open, outermost first, which says where the
phrase stopped. An error may also rest on causes of another sort; its chain ends before them.
-/

namespace StatementLang

/-- One layer of an error. -/
structure Violation where
  message : String
  token : Option Token
  expected : Option String
  deriving DecidableEq

/-- What another layer of an error rests on. -/
inductive Cause where
  | violation (v : Violation)
  /-- Another fault of the text, such as a faulty lexeme. -/
  | fault (message : String)
  /-- Something that is not about the text. -/
  | unrelated (message : String)
  deriving DecidableEq

namespace Cause

def message : Cause → String
  | violation v => v.message
  | fault message => message
  | unrelated message => message

/-- Whether the cause is a fault of the text. -/
def isAboutText : Cause → Bool
  | unrelated _ => false
  | _ => true

end Cause

structure GrammarError where
  outermost : Violation
  /-- What each layer rests on, from the outermost inward. -/
  causes : List Cause
  deriving DecidableEq

namespace GrammarError

/-- The violations up to the first cause of another sort. -/
def violations : List Cause → List Violation
  | .violation v :: cs => v :: violations cs
  | _ => []

/-- The violations, outermost first. -/
def chain (e : GrammarError) : List Violation := e.outermost :: violations e.causes

theorem chain_ne_nil (e : GrammarError) : e.chain ≠ [] := List.cons_ne_nil _ _

/-- The innermost violation. -/
def root (e : GrammarError) : Violation := e.chain.getLast e.chain_ne_nil

def message (e : GrammarError) : String := e.outermost.message

/-- The messages of all violations, outermost first. -/
def trail (e : GrammarError) : List String := e.chain.map Violation.message

/-- What stands between a phrase and the line on which it stopped. -/
def lineMark : String := " at line "

/-- The phrases named by the outer violations. -/
def nonterminals (e : GrammarError) : List String :=
  e.chain.dropLast.map fun v => Text.before lineMark v.message

/-- The error of a single violation. -/
def ofViolation (v : Violation) : GrammarError := ⟨v, []⟩

/-- The same error inside the phrase `name`, which stopped on a line. -/
def within (e : GrammarError) (name : String) (line : Int) : GrammarError :=
  ⟨⟨name ++ lineMark ++ toString line, none, none⟩, .violation e.outermost :: e.causes⟩

@[simp] theorem chain_ofViolation (v : Violation) : (ofViolation v).chain = [v] := rfl

@[simp] theorem chain_within (e : GrammarError) (name : String) (line : Int) :
    (e.within name line).chain = ⟨name ++ lineMark ++ toString line, none, none⟩ :: e.chain := rfl

@[simp] theorem root_within (e : GrammarError) (name : String) (line : Int) :
    (e.within name line).root = e.root := by
  unfold root
  simp only [chain_within]
  exact List.getLast_cons e.chain_ne_nil

end GrammarError

end StatementLang
