import StatementLang.Grammar.Language
import StatementLang.Session.Run

/-!
What can be asked of a session: a whole program, which can be asked for once, or any part of one.
-/

namespace StatementLang

inductive Call where
  /-- A statement part and then the end of the text. -/
  | program
  /-- A statement part, whatever follows. -/
  | statementPart
  | accept (k : Kind)
  | phrase (n : Nonterminal)
  deriving DecidableEq

namespace Session

def programGoals : List Goal := [.phrase .statementPart, .token .endOfFile]

/-- Runs goals for a call that claims the session, which must not have been claimed before. -/
def claim (g : Grammar) (goals : List Goal) (s : Session) : Except Failure Unit × Session :=
  if s.used then (.error .alreadyUsed, s) else run g goals { s with used := true }

def parseProgram (g : Grammar) (s : Session) : Except Failure Unit × Session :=
  match s.claim g programGoals with
  | (.ok (), s) => (.ok (), { s with sink := s.sink.succeed }.note (.success s.sink.label))
  | failed => failed

def parseStatementPart (g : Grammar) (s : Session) : Except Failure Unit × Session :=
  s.claim g [.phrase .statementPart]

/-- Derives a phrase, without claiming the session. -/
def parsePhrase (g : Grammar) (n : Nonterminal) (s : Session) : Except Failure Unit × Session :=
  s.run g [.phrase n]

/-- Answers a call. Only the taking of a token has a result. -/
def perform (g : Grammar) (s : Session) : Call → Except Failure (Option Token) × Session
  | .program => Prod.map (·.map fun _ => none) id (s.parseProgram g)
  | .statementPart => Prod.map (·.map fun _ => none) id (s.parseStatementPart g)
  | .accept k => Prod.map (·.map some) id (s.accept k)
  | .phrase n => Prod.map (·.map fun _ => none) id (s.parsePhrase g n)

end Session

end StatementLang
