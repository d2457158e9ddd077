import TokenMacros.Rule.Chunk
import TokenMacros.Rule.Element
import TokenMacros.Rule.Mark
import TokenMacros.Source.Lex

/-!
# Patterns

Reading the pattern of a rule.  A pattern without captures is code, white space
included.  In a pattern with captures, the captures become placeholders,
numbered from left to right, and the chunks between them code without trivia.
-/

namespace TokenMacros

structure Pattern where
  elements : List PatternElement
  /-- Marker and name of every capture, in order. -/
  captures : List (String × String)
  deriving Repr, DecidableEq

namespace Pattern

/-- The names of the captures of a cut text, each with its number. -/
def numberedNames (stretches : Stretches) : List (Nat × String) :=
  stretches.marked.zipIdx.map fun ((name, _), index) => (index, String.ofList name)

/-- The text with a marker in place of each capture. -/
def markedText (stretches : Stretches) : List Char :=
  stretches.lead ++
    stretches.marked.zipIdx.flatMap fun ((_, stretch), index) => (marker index).toList ++ stretch

/-- The elements of one chunk.  A chunk that is the marker of a capture stands
for it. -/
def chunkElements (names : List (Nat × String)) (chunk : List Char) :
    List PatternElement :=
  match names.find? fun (index, _) => (marker index).toList == chunk with
  | some (index, name) => [.placeholder index name]
  | none =>
    match chunk with
    | [c] =>
      if isBracket c then [.token (.bare (String.singleton c))]
      else codeElements chunk
    | _ => codeElements chunk
where
  /-- The tokens of a chunk of code, trivia dropped. -/
  codeElements (chunk : List Char) : List PatternElement :=
    ((lexCode (String.ofList chunk)).filter (!·.isTrivia)).map .token

def parse (text : String) : Pattern :=
  let stretches := Stretches.cut Mark.capture? text.toList
  if stretches.marked.isEmpty then ⟨(lexCode text).map .token, []⟩
  else
    let names := numberedNames stretches
    ⟨(chunks (markedText stretches)).flatMap (chunkElements names),
      names.map fun (index, name) => (marker index, name)⟩

end Pattern

end TokenMacros
