import TokenMacros.Text.Lowercase

/-!
# Cursors

A place in a source text: the text that remains, how many characters were
passed, and the line.  A cursor may be moved past the end; nothing remains
there.
-/

namespace TokenMacros

structure Cursor where
  source : List Char
  /-- Characters passed so far. -/
  position : Nat
  /-- Line of the next character, counted from one. -/
  line : Nat
  /-- What is still to be read. -/
  rest : List Char
  rest_eq : rest = source.drop position

namespace Cursor

def start (source : List Char) : Cursor where
  source := source
  position := 0
  line := 1
  rest := source
  rest_eq := rfl

/-- Passes the next `count` characters, or as many as there are. -/
def advance (cursor : Cursor) (count : Nat) : Cursor where
  source := cursor.source
  position := cursor.position + count
  line := cursor.line + (cursor.rest.take count).count '\n'
  rest := cursor.rest.drop count
  rest_eq := by rw [cursor.rest_eq, List.drop_drop]

/-- Nothing remains. -/
def isExhausted (cursor : Cursor) : Bool :=
  cursor.rest.isEmpty

inductive Failure where
  /-- A cursor only moves forward, by one character at least. -/
  | noProgress
  /-- The place asked for lies before the beginning of the source. -/
  | beforeBeginning
  deriving Repr, DecidableEq

def Failure.message : Failure → String
  | .noProgress => "Lexer must consume at least one character"
  | .beforeBeginning => "string index out of range"

/-- The character `offset` places after the next one, none beyond the end.  A
place before the beginning of the source is counted from its end. -/
def peek (cursor : Cursor) (offset : Int) : Except Failure (Option Char) :=
  let index := (cursor.position : Int) + offset
  if 0 ≤ index then .ok cursor.source[index.toNat]?
  else
    let wrapped := index + cursor.source.length
    if 0 ≤ wrapped then .ok cursor.source[wrapped.toNat]? else .error .beforeBeginning

/-- As many characters as `start` has agree with it, up to case if `ignoreCase`
is set. -/
def beginsWith (cursor : Cursor) (start : List Char) (ignoreCase : Bool) :
    Bool :=
  let chunk := cursor.rest.take start.length
  if ignoreCase then Text.lower chunk == Text.lower start else chunk == start

/-- Reads the text up to the given position; answers it with the line it starts
on. -/
def readTo (cursor : Cursor) (position : Int) :
    Except Failure ((List Char × Nat) × Cursor) :=
  if (cursor.position : Int) < position then
    let count := (position - cursor.position).toNat
    .ok ((cursor.rest.take count, cursor.line), cursor.advance count)
  else .error .noProgress

end Cursor

end TokenMacros
