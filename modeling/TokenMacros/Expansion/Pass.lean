import TokenMacros.Expansion.Matching
import TokenMacros.Expansion.Substitution

/-!
# One pass over the tokens

A pass rebuilds a token list from left to right.  At each place the first rule
that applies replaces what it matches; where none does, the token is copied.
-/

namespace TokenMacros

/-- A rule applied to a single token because its pattern begins with that
token's text. -/
def Rule.singleTokenCandidate? (rule : Rule) (token : Token) :
    Option Candidate :=
  if rule.elements.head?.any (·.accepts token) then some ⟨rule, [], 1⟩ else none

/-- The candidate that is applied at the front of the tokens.  With the
fallback, a rule whose pattern only begins there is applied to the first token
if no rule matches. -/
def chosen? (rules : List Rule) (fallback : Bool) (tokens : List Token) :
    Option Candidate :=
  match rules.findSome? (·.candidate? tokens) with
  | some candidate => some candidate
  | none =>
    if fallback then
      tokens.head?.bind fun token => rules.findSome? (·.singleTokenCandidate? token)
    else none

/-- Rebuilds a token list. -/
def pass (rules : List Rule) (fallback : Bool) : List Token → List Token
  | [] => []
  | token :: rest =>
    match chosen? rules fallback (token :: rest) with
    | none => token :: pass rules fallback rest
    | some candidate =>
      instantiate candidate.rule.template candidate.captures ++
        pass rules fallback (rest.drop (candidate.consumed - 1))
  termination_by tokens => tokens.length

end TokenMacros
