import TokenMacros.Source.Extent

/-!
# Chunks of a pattern

A pattern with captures is first split into chunks: single brackets, capture
markers, and the runs between them.  White space separates runs and is dropped.
-/

namespace TokenMacros

open Text (isBlank)

/-- What every capture marker begins with. -/
def markerStart : List Char := ['_', '_', 'C', 'A', 'P', 'T', 'U', 'R', 'E', '_']

def isBracket (c : Char) : Bool :=
  c == '(' || c == ')' || c == '\x7b' || c == '\x7d' || c == '[' || c == ']'

/-- Length of the text through the first pair of underscores. -/
def throughUnderscores? : List Char → Option Nat
  | [] => none
  | c :: rest =>
    if beginsWith ['_', '_'] (c :: rest) then some 2
    else (throughUnderscores? rest).map (· + 1)

/-- Length of a capture marker at the front of the text. -/
def markerExtent? (text : List Char) : Option Nat :=
  if beginsWith markerStart text then
    (throughUnderscores? (text.drop markerStart.length)).map (· + markerStart.length)
  else none

/-- The chunk made of the characters of `run`, which are in reverse; none if
there are none. -/
def runChunk (run : List Char) : List (List Char) :=
  if run.isEmpty then [] else [run.reverse]

/-- The chunks of a text that follows the characters `run`, given in reverse. -/
def chunksAfter (run : List Char) : List Char → List (List Char)
  | [] => runChunk run
  | c :: rest =>
    match markerExtent? (c :: rest) with
    | some extent =>
      runChunk run ++ (c :: rest).take extent :: chunksAfter [] (rest.drop (extent - 1))
    | none =>
      if isBracket c then runChunk run ++ [c] :: chunksAfter [] rest
      else if isBlank c then runChunk run ++ chunksAfter [] rest
      else chunksAfter (c :: run) rest
  termination_by text => text.length

def chunks (text : List Char) : List (List Char) :=
  chunksAfter [] text

end TokenMacros
