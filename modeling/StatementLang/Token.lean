import StatementLang.Symbol
import StatementLang.Text.Quoted

/-!
Tokens: a kind, the text it was read from, and where that text began.

A kind given by a code need not be a symbol of the language. Such a foreign kind keeps its code,
with the fact that no symbol has that code, so that two kinds are equal just if their codes are.
-/

namespace StatementLang

/-- What a token is said to be: a symbol of the language, or a code that no symbol has. -/
inductive Kind where
  | known (s : Symbol)
  | foreign (code : String) (h : Symbol.ofCode? code = none)
  deriving DecidableEq

namespace Kind

/-- The kind that a code stands for. -/
def ofCode (code : String) : Kind :=
  match h : Symbol.ofCode? code with
  | some s => known s
  | none => foreign code h

def code : Kind → String
  | known s => s.code
  | foreign code _ => code

def symbol? : Kind → Option Symbol
  | known s => some s
  | foreign _ _ => none

@[simp] theorem code_ofCode (text : String) : (ofCode text).code = text := by
  unfold ofCode
  split
  · next s h => exact Symbol.code_of_ofCode? h
  · rfl

@[simp] theorem ofCode_code (k : Kind) : ofCode k.code = k := by
  cases k with
  | known s =>
    unfold ofCode code
    split
    · next t h => simpa using h.symm
    · next h => simp at h
  | foreign code h =>
    unfold ofCode Kind.code
    split
    · next s hs => simp [h] at hs
    · rfl

theorem code_injective {k l : Kind} (h : k.code = l.code) : k = l := by
  rw [← ofCode_code k, h, ofCode_code]

/-- The name of a kind, unless it is foreign. -/
def name? (k : Kind) : Option String := k.symbol?.map Symbol.name

end Kind

/-- The complaint about a kind that has no name. -/
structure UnknownKind where
  code : String
  deriving DecidableEq

def UnknownKind.message (u : UnknownKind) : String := Text.quoted u.code

/-- The name of a kind, or the complaint that it has none. -/
def Kind.name (k : Kind) : Except UnknownKind String :=
  match k.name? with
  | some name => .ok name
  | none => .error ⟨k.code⟩

@[simp] theorem Kind.name_known (s : Symbol) : (Kind.known s).name = .ok s.name := rfl

/-- A token, with the line and column of its first character. -/
structure Token where
  kind : Kind
  value : String
  line : Int
  column : Int
  deriving DecidableEq

namespace Token

/-- The short form of a token, without its place. -/
def display (t : Token) : String := "Token(" ++ t.kind.code ++ ", " ++ t.value ++ ")"

/-- The token that stands for the end of the text. -/
def atEnd (line column : Int) : Token :=
  ⟨.known .endOfFile, Symbol.endOfFile.code, line, column⟩

/-- The token closes its text. -/
def IsEnd (t : Token) : Prop := t.kind = .known .endOfFile

instance (t : Token) : Decidable t.IsEnd := inferInstanceAs (Decidable (_ = _))

@[simp] theorem isEnd_atEnd (line column : Int) : (atEnd line column).IsEnd := rfl

end Token

end StatementLang
