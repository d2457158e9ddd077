/-!
# Tokens

A source is a list of tokens.  Single punctuation characters are bare; every
other token has a kind and the line it starts on.  Matching looks at texts only,
so kind and line inform but do not distinguish.
-/

namespace TokenMacros

inductive Kind where
  | openTag
  | closeTag
  | inlineHtml
  | whitespace
  | comment
  | docComment
  | variable
  | identifier
  | keyword
  | integer
  | float
  | string
  | operator
  deriving Repr, DecidableEq

/-- White space and comments carry no meaning for the host language. -/
def Kind.isTrivia : Kind → Bool
  | .whitespace | .comment | .docComment => true
  | _ => false

inductive Token where
  /-- A character that belongs to no class. -/
  | bare (text : String)
  /-- A classified piece of text and the line, counted from one, it starts on.
  -/
  | classified (kind : Kind) (text : String) (line : Nat)
  deriving Repr, DecidableEq

namespace Token

/-- The piece of source a token stands for. -/
def text : Token → String
  | .bare text => text
  | .classified _ text _ => text

def kind? : Token → Option Kind
  | .bare _ => none
  | .classified kind _ _ => some kind

/-- White space or a comment. -/
def isTrivia : Token → Bool
  | .bare _ => false
  | .classified kind _ _ => kind.isTrivia

/-- Trivia that is a single space. -/
def isPlainSpace (token : Token) : Bool :=
  token.isTrivia && token.text == " "

def render (tokens : List Token) : String :=
  String.join (tokens.map text)

end Token

end TokenMacros
