import TokenMacros.Source.Extent
import TokenMacros.Text.Word

/-!
# Marks in rule texts

Captures are written `$(layer() as name)` in a pattern, references `$(name)` in
a replacement.  A rule text is cut at its marks into the stretches between them,
from left to right and without overlap.
-/

namespace TokenMacros

open Text (isBlank isWord)

namespace Mark

/-- Reads the given characters at the front. -/
def exactly? (expected text : List Char) : Option (List Char) :=
  if expected.isPrefixOf text then some (text.drop expected.length) else none

/-- Reads one or more characters of a class at the front. -/
def some? (p : Char → Bool) (text : List Char) :
    Option (List Char × List Char) :=
  let run := text.takeWhile p
  if run.isEmpty then none else some (run, text.drop run.length)

/-- A capture at the front of the text: its name, and the text behind it. -/
def capture? (text : List Char) : Option (List Char × List Char) := do
  let rest ← exactly? ['$', '(', 'l', 'a', 'y', 'e', 'r', '(', ')'] text
  let (_, rest) ← some? isBlank rest
  let rest ← exactly? ['a', 's'] rest
  let (_, rest) ← some? isBlank rest
  let (name, rest) ← some? isWord rest
  let rest ← exactly? [')'] rest
  return (name, rest)

/-- A reference at the front of the text: its name, and the text behind it. -/
def reference? (text : List Char) : Option (List Char × List Char) := do
  let rest ← exactly? ['$', '('] text
  let (name, rest) ← some? isWord rest
  let rest ← exactly? [')'] rest
  return (name, rest)

end Mark

/-- A text cut at its marks. -/
structure Stretches where
  /-- The text in front of the first mark. -/
  lead : List Char
  /-- The name of each mark, with the text that follows up to the next one. -/
  marked : List (List Char × List Char)
  deriving Repr, DecidableEq

/-- Cuts a text at the marks that `mark?` recognises.  A mark takes at least one
character. -/
def Stretches.cut (mark? : List Char → Option (List Char × List Char)) :
    List Char → Stretches
  | [] => ⟨[], []⟩
  | c :: rest =>
    match mark? (c :: rest) with
    | some (name, behind) =>
      if _shorter : behind.length < (c :: rest).length then
        let stretches := cut mark? behind
        ⟨[], (name, stretches.lead) :: stretches.marked⟩
      else
        let stretches := cut mark? rest
        ⟨c :: stretches.lead, stretches.marked⟩
    | none =>
      let stretches := cut mark? rest
      ⟨c :: stretches.lead, stretches.marked⟩
  termination_by text => text.length
  decreasing_by
    · exact _shorter
    · exact Nat.lt_succ_self _
    · exact Nat.lt_succ_self _

end TokenMacros
