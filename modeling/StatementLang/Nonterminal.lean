/-!
The nonterminals of the grammar, with the names that traces and messages give them.
-/

namespace StatementLang

inductive Nonterminal where
  | statementPart | statementList | statement
  | assignment | expression | term | factor
  | whileStatement | forStatement | ifStatement
  | procedureCall | argumentList
  | untilStatement | condition | conditionalOperator
  deriving DecidableEq

namespace Nonterminal

def all : List Nonterminal :=
  [statementPart, statementList, statement, assignment, expression, term, factor,
   whileStatement, forStatement, ifStatement, procedureCall, argumentList,
   untilStatement, condition, conditionalOperator]

theorem mem_all (n : Nonterminal) : n ∈ all := by cases n <;> decide

/-- The words of a name, without the brackets around them. -/
def title : Nonterminal → String
  | statementPart => "statement part"
  | statementList => "statement list"
  | statement => "statement"
  | assignment => "assignment statement"
  | expression => "expression"
  | term => "term"
  | factor => "factor"
  | whileStatement => "while statement"
  | forStatement => "for statement"
  | ifStatement => "if statement"
  | procedureCall => "procedure statement"
  | argumentList => "argument list"
  | untilStatement => "until statement"
  | condition => "condition"
  | conditionalOperator => "conditional operator"

def name (n : Nonterminal) : String := "<" ++ n.title ++ ">"

def ofName? (text : String) : Option Nonterminal := all.find? (·.name = text)

@[simp] theorem ofName?_name (n : Nonterminal) : ofName? n.name = some n := by
  cases n <;> decide

theorem name_injective {m n : Nonterminal} (h : m.name = n.name) : m = n := by
  have := ofName?_name m
  rw [h, ofName?_name] at this
  exact (Option.some.inj this).symm

end Nonterminal

end StatementLang
