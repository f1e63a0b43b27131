import StatementLang.Reader

/-!
Cursors stand anywhere in a text, also before its beginning or behind its end.

A position before the beginning counts from the end of the text, as far as there are characters. A
cursor there sees no characters ahead, yet it moves over those that it counts: skipping blanks
leads it to the beginning of the text, and from there on it behaves like a reader.
-/

namespace StatementLang

structure Cursor where
  source : List Char
  position : Int
  place : Place

namespace Cursor

/-- Why a cursor cannot do what it is asked. -/
inductive Failure where
  | pastEnd (position line : Int)
  | outOfRange
  | lexical (e : LexError)

def Failure.message : Failure → String
  | pastEnd position line =>
    s!"Attempted to read past end of source at position=<{position}>, line=<{line}>"
  | outOfRange => "string index out of range"
  | lexical e => e.message

def ofText (text : String) (position : Int) (place : Place) : Cursor :=
  ⟨text.toList, position, place⟩

def atEnd (c : Cursor) : Bool := c.position ≥ c.source.length

/-- The character so many places ahead, if there is one. -/
def peek (c : Cursor) (offset : Int) : Option Char :=
  let index := c.position + offset
  if index < 0 then none else c.source[index.toNat]?

/-- The character under the cursor, where positions before the beginning count from the end. -/
def current? (c : Cursor) : Option Char :=
  if 0 ≤ c.position then c.source[c.position.toNat]?
  else if -c.position ≤ c.source.length then
    c.source[(c.source.length + c.position).toNat]?
  else none

/-- Takes one character. -/
def advance (c : Cursor) : Except Failure Char × Cursor :=
  if c.atEnd then (.error (.pastEnd c.position c.place.line), c)
  else
    match c.current? with
    | some ch => (.ok ch, { c with position := c.position + 1, place := c.place.after ch })
    | none => (.error .outOfRange, c)

/-! ### Reading from the beginning on -/

/-- What a reader at the cursor would read. -/
def reader (c : Cursor) : Reader := ⟨c.source.drop c.position.toNat, c.place⟩

/-- The cursor where a reader that started at `c` has come to. -/
def moveTo (c : Cursor) (r : Reader) : Cursor :=
  { c with
    position := c.position + ((c.reader.rest.length : Int) - r.rest.length)
    place := r.place }

/-- The cursor moved forward to the beginning of the text, if it stands before it. -/
def toBeginning (c : Cursor) : Except Failure Unit × Cursor :=
  if 0 ≤ c.position then (.ok (), c)
  else if -c.position ≤ c.source.length then
    let passed := c.source.drop (c.source.length + c.position).toNat
    (.ok (), { c with position := 0, place := c.place.advance passed })
  else (.error .outOfRange, c)

def skipBlanks (c : Cursor) : Except Failure Unit × Cursor :=
  match c.toBeginning with
  | (.ok (), c) => (.ok (), c.moveTo c.reader.skipBlanks)
  | failed => failed

/-- Takes the operator, or the keyword of at most two letters, at the cursor. -/
def matchOperator (c : Cursor) : Option Token × Cursor :=
  if c.position < 0 then (none, c)
  else
    match Lexeme.operator? c.reader.rest with
    | none => (none, c)
    | some l =>
      ((Reader.reading c.place l).toOption, c.moveTo ⟨l.rest, c.place.advance l.raw⟩)

def nextToken (c : Cursor) : Except Failure Token × Cursor :=
  match c.toBeginning with
  | (.error e, c) => (.error e, c)
  | (.ok (), c) =>
    let (outcome, r) := c.reader.next
    (outcome.mapError .lexical, c.moveTo r)

end Cursor

end StatementLang
