import TokenMacros.Delimiter
import TokenMacros.Rule.Basic
import TokenMacros.Text.Split

/-!
# Definition lines

A line `$(macro) {pattern} >> {replacement}` defines a rule.  Blanks may stand
around every part, braces in pattern and replacement must balance, and anything
may follow.  All other lines define nothing, so a text with malformed lines
still defines the rules of its valid ones.
-/

namespace TokenMacros

open Text (splitOn trim trimLeft)

namespace Definition

/-- A text between balanced braces at the front: the trimmed text, and what
follows. -/
def braced? (text : List Char) : Option (List Char × List Char) :=
  match text with
  | '\x7b' :: body =>
    (closingBraceOffset? 1 body).map fun offset => (trim (body.take offset), body.drop (offset + 1))
  | _ => none

/-- Pattern and replacement of a trimmed definition line. -/
def parts? (line : List Char) : Option (List Char × List Char) := do
  let rest ← Mark.exactly? ['$', '(', 'm', 'a', 'c', 'r', 'o', ')'] line
  let (pattern, rest) ← braced? (trimLeft rest)
  let rest ← Mark.exactly? ['>', '>'] (trimLeft rest)
  let (replacement, _) ← braced? (trimLeft rest)
  return (pattern, replacement)

/-- A trimmed line that is there for its readers. -/
def isComment (line : List Char) : Bool :=
  ['#'].isPrefixOf line || ['/', '/'].isPrefixOf line

/-- The rule that a line defines, if it defines one. -/
def parseLine? (line : String) (file : Option String) (number : Option Int) :
    Option Rule :=
  let line := trim line.toList
  if line.isEmpty || isComment line then none
  else do
    let (pattern, replacement) ← parts? line
    (Rule.define
      { pattern := String.ofList pattern
        replacement := String.ofList replacement
        file := file
        line := number }).toOption

/-- The rules that the lines of a text define, in order. -/
def parseText (text : String) (file : Option String) : List Rule :=
  (splitOn '\n' text.toList).zipIdx.filterMap fun (line, index) =>
    parseLine? (String.ofList line) file (some (index + 1 : Nat))

end Definition

end TokenMacros
