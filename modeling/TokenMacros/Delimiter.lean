import TokenMacros.Source.Token

/-!
# Delimiters

The three pairs of brackets, and the two searches that respect nesting: tokens
up to the closing delimiter of a pair, and the brace that closes a brace of a
text.  Both count one pair only; brackets of the other pairs are ordinary
content.
-/

namespace TokenMacros

/-- The opening partner of a closing delimiter. -/
def opening? : (closing : String) → Option String
  | ")" => some "("
  | "\x7d" => some "\x7b"
  | "]" => some "["
  | _ => none

def isClosing (text : String) : Bool :=
  (opening? text).isSome

/-- The tokens in front of the first closing delimiter that is not nested, all
tokens if there is none.  `depth` counts the delimiters that are open already.
-/
def balancedRun (opening closing : String) :
    (depth : Nat) → List Token → List Token
  | _, [] => []
  | depth, token :: rest =>
    if token.text = opening then token :: balancedRun opening closing (depth + 1) rest
    else if token.text = closing then
      match depth with
      | 0 => []
      | depth + 1 => token :: balancedRun opening closing depth rest
    else token :: balancedRun opening closing depth rest

/-- A text that is no closing delimiter where one is needed. -/
structure NotClosing where
  text : String
  deriving Repr, DecidableEq

def NotClosing.message (failure : NotClosing) : String :=
  "Expected closing delimiter for balanced capture, got `" ++ failure.text ++ "`"

/-- The tokens in front of the closing delimiter that ends the surrounding pair.
-/
def captureUntil (closing : String) (tokens : List Token) :
    Except NotClosing (List Token) :=
  match opening? closing with
  | some opening => .ok (balancedRun opening closing 0 tokens)
  | none => .error ⟨closing⟩

/-- Offset of the brace that closes the outermost of the open braces.  `depth`
counts these; there is one at least. -/
def closingBraceOffset? : (depth : Nat) → List Char → Option Nat
  | _, [] => none
  | depth, c :: rest =>
    if c = '\x7b' then (closingBraceOffset? (depth + 1) rest).map (· + 1)
    else if c = '\x7d' then
      if depth - 1 = 0 then some 0
      else (closingBraceOffset? (depth - 1) rest).map (· + 1)
    else (closingBraceOffset? depth rest).map (· + 1)

/-- Index of the brace that closes the one at `openIndex`. -/
def matchingBrace? (text : List Char) (openIndex : Nat) : Option Nat :=
  (closingBraceOffset? 1 (text.drop (openIndex + 1))).map (· + (openIndex + 1))

end TokenMacros
