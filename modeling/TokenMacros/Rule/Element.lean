import TokenMacros.Source.Token

/-!
# Elements of patterns and replacements

A pattern is a list of tokens and placeholders, a replacement a list of tokens
and references.  Each placeholder and reference also has a textual form.
-/

namespace TokenMacros

/-- The text that stands for the placeholder of the given number while a pattern
is read. -/
def marker (index : Nat) : String :=
  "__CAPTURE_" ++ toString index ++ "__"

/-- The text of a reference to a capture. -/
def referenceText (name : String) : String :=
  "$(" ++ name ++ ")"

inductive PatternElement where
  /-- A token of the input must have the same text. -/
  | token (token : Token)
  /-- Tokens of the input are captured under a name. -/
  | placeholder (index : Nat) (name : String)
  deriving Repr, DecidableEq

namespace PatternElement

/-- The text of a token, the marker of a placeholder. -/
def text : PatternElement → String
  | .token expected => expected.text
  | .placeholder index _ => marker index

/-- White space or a comment. -/
def isTrivia : PatternElement → Bool
  | .token expected => expected.isTrivia
  | .placeholder .. => false

/-- The element asks for a token with the text of the given one.  A placeholder
asks for none. -/
def accepts (element : PatternElement) (actual : Token) : Bool :=
  match element with
  | .token expected => expected.text == actual.text
  | .placeholder .. => false

def isPlainSpace (element : PatternElement) : Bool :=
  element.isTrivia && element.text == " "

end PatternElement

inductive ReplacementElement where
  /-- Copied to the output. -/
  | token (token : Token)
  /-- Replaced by the tokens captured under the name. -/
  | reference (name : String)
  deriving Repr, DecidableEq

namespace ReplacementElement

def text : ReplacementElement → String
  | .token copied => copied.text
  | .reference name => referenceText name

def isTrivia : ReplacementElement → Bool
  | .token copied => copied.isTrivia
  | .reference _ => false

def isPlainSpace : ReplacementElement → Bool
  | .token copied => copied.isPlainSpace
  | .reference _ => false

end ReplacementElement

end TokenMacros
