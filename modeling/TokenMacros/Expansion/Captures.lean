import TokenMacros.Source.Token

/-!
# Captured tokens

What a match has bound to the names of its pattern.  Names keep the order of
their first capture; a name that is captured again keeps its place and takes the
later tokens.
-/

namespace TokenMacros

/-- Names with the tokens captured under them. -/
abbrev Captures := List (String × List Token)

namespace Captures

def bind (captures : Captures) (name : String) (tokens : List Token) :
    Captures :=
  match captures with
  | [] => [(name, tokens)]
  | (bound, held) :: rest =>
    if bound = name then (bound, tokens) :: rest else (bound, held) :: bind rest name tokens

def find? (captures : Captures) (name : String) : Option (List Token) :=
  captures.lookup name

end Captures

end TokenMacros
