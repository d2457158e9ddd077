import TokenMacros.Source.Extent

/-!
# Heredocs

A literal that begins with `<<<` and a label and runs to the first later line
that begins with the label.  The label of the begin line may be quoted; the
closing one may be indented.
-/

namespace TokenMacros

namespace Extent

/-- A space or a tab. -/
def isIndent (c : Char) : Bool :=
  c == ' ' || c == '\t'

/-- The line break at the front of the text: none takes no character. -/
def lineBreak : List Char → Nat
  | '\r' :: '\n' :: _ => 2
  | '\n' :: _ => 1
  | _ => 0

/-- The begin line of a heredoc behind its `<<<`: the label, and how many
characters the line takes.  Nothing, if the line has another form. -/
def heredocHeader? (text : List Char) : Option (List Char × Nat) :=
  let indent := (text.takeWhile isIndent).length
  let afterIndent := text.drop indent
  let quote := (afterIndent.take 1).filter fun c => c == '\x27' || c == '\x22'
  let afterQuote := afterIndent.drop quote.length
  let label := afterQuote.takeWhile isIdentifierPart
  let afterLabel := afterQuote.drop label.length
  let newline := lineBreak (afterLabel.drop quote.length)
  if label.head?.any isIdentifierStart && quote.isPrefixOf afterLabel && newline != 0 then
    some (label, indent + quote.length + label.length + quote.length + newline)
  else none

/-- The label, possibly indented, as a word of its own at the front of the text:
the number of characters through its end. -/
def closingLabel? (label text : List Char) : Option Nat :=
  let indent := (text.takeWhile isIndent).length
  let atLabel := text.drop indent
  if label.isPrefixOf atLabel && !(atLabel.drop label.length).head?.any isIdentifierPart then
    some (indent + label.length)
  else none

/-- The body of a heredoc through its closing label, or all that is left if
there is none. -/
def heredocBody (label : List Char) : (atLineStart : Bool) → List Char → Nat
  | _, [] => 0
  | atLineStart, c :: rest =>
    match if atLineStart then closingLabel? label (c :: rest) else none with
    | some extent => extent
    | none => 1 + heredocBody label (c == '\n') rest

/-- A heredoc at the front of the text, if its begin line is well formed. -/
def heredoc? (text : List Char) : Option Nat :=
  (heredocHeader? (text.drop 3)).map fun (label, header) =>
    3 + header + heredocBody label true (text.drop (3 + header))

end Extent

end TokenMacros
