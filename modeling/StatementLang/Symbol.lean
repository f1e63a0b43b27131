/-!
The symbols of the language: what a program is made of once blanks and spellings are gone.

A keyword or an operator has one spelling, its lexeme. Every symbol has a code, by which tools
refer to it, and a name, by which messages do. Codes are distinct, and so are lexemes.
-/

namespace StatementLang

/-- A terminal symbol of the grammar, the end of a text, or a character that starts no lexeme. -/
inductive Symbol where
  | identifier | number | string
  | kwBegin | kwEnd | kwWhile | kwIf | kwFor | kwCall | kwUntil | kwDo | kwThen | kwElse | kwLoop
  | becomes | semicolon | comma | leftParen | rightParen
  | plus | minus | times | divide
  | equal | notEqual | less | greater
  | endOfFile | unknown
  deriving DecidableEq

namespace Symbol

def all : List Symbol :=
  [identifier, number, string,
   kwBegin, kwEnd, kwWhile, kwIf, kwFor, kwCall, kwUntil, kwDo, kwThen, kwElse, kwLoop,
   becomes, semicolon, comma, leftParen, rightParen,
   plus, minus, times, divide, equal, notEqual, less, greater,
   endOfFile, unknown]

theorem mem_all (s : Symbol) : s ∈ all := by cases s <;> decide

/-! ### Spellings -/

/-- The word that spells a keyword. -/
def keyword? : Symbol → Option String
  | kwBegin => some "begin"
  | kwEnd => some "end"
  | kwWhile => some "while"
  | kwIf => some "if"
  | kwFor => some "for"
  | kwCall => some "call"
  | kwUntil => some "until"
  | kwDo => some "do"
  | kwThen => some "then"
  | kwElse => some "else"
  | kwLoop => some "loop"
  | _ => none

/-- The one or two characters that spell an operator or a punctuation mark. -/
def operator? : Symbol → Option String
  | becomes => some ":="
  | semicolon => some ";"
  | comma => some ","
  | leftParen => some "("
  | rightParen => some ")"
  | plus => some "+"
  | minus => some "-"
  | times => some "*"
  | divide => some "/"
  | equal => some "="
  | notEqual => some "<>"
  | less => some "<"
  | greater => some ">"
  | _ => none

/-- The spelling of a symbol that has just one. -/
def lexeme? (s : Symbol) : Option String := s.keyword? <|> s.operator?

def ofKeyword? (text : String) : Option Symbol := all.find? (·.keyword? = some text)
def ofOperator? (text : String) : Option Symbol := all.find? (·.operator? = some text)
def ofLexeme? (text : String) : Option Symbol := all.find? (·.lexeme? = some text)

/-! ### Codes and names -/

/-- The code by which tools refer to a symbol. -/
def code : Symbol → String
  | identifier => "IDENT"
  | number => "NUMBER"
  | string => "STRING"
  | kwBegin => "BEGIN"
  | kwEnd => "END"
  | kwWhile => "WHILE"
  | kwIf => "IF"
  | kwFor => "FOR"
  | kwCall => "CALL"
  | kwUntil => "UNTIL"
  | kwDo => "DO"
  | kwThen => "THEN"
  | kwElse => "ELSE"
  | kwLoop => "LOOP"
  | becomes => "BECOMES"
  | semicolon => "SEMICOLON"
  | comma => "COMMA"
  | leftParen => "LPAREN"
  | rightParen => "RPAREN"
  | plus => "PLUS"
  | minus => "SUB"
  | times => "MULT"
  | divide => "DIV"
  | equal => "EQ"
  | notEqual => "NE"
  | less => "LT"
  | greater => "GT"
  | endOfFile => "EOF"
  | unknown => "ERROR"

def ofCode? (text : String) : Option Symbol := all.find? (·.code = text)

/-- The name by which messages refer to a symbol: its lexeme if it has one. -/
def name : Symbol → String
  | identifier => "identifier"
  | number => "numberConstant"
  | string => "stringConstant"
  | endOfFile => "end of file"
  | unknown => "unknown"
  | s => s.lexeme?.getD ""

/-- The name in the angle brackets that messages put around what they expect. -/
def bracketed (s : Symbol) : String := "<" ++ s.name ++ ">"

@[simp] theorem ofCode?_code (s : Symbol) : ofCode? s.code = some s := by
  cases s <;> decide

theorem code_of_ofCode? {text : String} {s : Symbol} (h : ofCode? text = some s) :
    s.code = text := by
  simpa [ofCode?] using List.find?_some h

theorem code_injective {s t : Symbol} (h : s.code = t.code) : s = t := by
  have := ofCode?_code s
  rw [h, ofCode?_code] at this
  exact (Option.some.inj this).symm

theorem ofLexeme?_of_lexeme? {s : Symbol} {text : String} (h : s.lexeme? = some text) :
    ofLexeme? text = some s := by
  cases s <;> simp only [lexeme?, keyword?, operator?] at h <;> first
    | (cases h; decide)
    | cases h

theorem lexeme?_of_ofLexeme? {s : Symbol} {text : String} (h : ofLexeme? text = some s) :
    s.lexeme? = some text := by
  simpa [ofLexeme?] using List.find?_some h

/-! ### Groups of symbols between which the grammar does not distinguish -/

def addingOperators : List Symbol := [plus, minus]
def multiplyingOperators : List Symbol := [times, divide]
def conditionalOperators : List Symbol := [equal, notEqual, less, greater]

/-- What may stand to the right of a conditional operator. -/
def comparands : List Symbol := [identifier, number]

/-- The keywords that end a statement list; a separator may stand before them. -/
def listClosers : List Symbol := [kwEnd, kwElse, kwUntil]

end Symbol

end StatementLang
