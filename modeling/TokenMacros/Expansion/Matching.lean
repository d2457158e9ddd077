import TokenMacros.Delimiter
import TokenMacros.Expansion.Captures
import TokenMacros.Rule.Basic

/-!
# Matching a rule against tokens

A pattern without captures must agree with the input token by token, white space
included.  A pattern with captures is walked along the input: trivia in front of
its tokens is skipped, and each placeholder captures up to what follows it in
the pattern.
-/

namespace TokenMacros

structure Candidate where
  rule : Rule
  captures : Captures
  /-- How many tokens the match takes. -/
  consumed : Nat
  deriving Repr, DecidableEq

/-- The tokens without the trivia in front. -/
def skipTrivia (tokens : List Token) : List Token :=
  tokens.dropWhile Token.isTrivia

/-- Every element accepts the token at its place. -/
def acceptsAll : List PatternElement → List Token → Bool
  | [], _ => true
  | _ :: _, [] => false
  | element :: elements, token :: tokens => element.accepts token && acceptsAll elements tokens

/-- Walks a pattern along the input.  Answers the captures and the input that is
left.

A single space in the pattern is looked for as it is; any other token may have
trivia in front.  A placeholder in front of a closing delimiter captures the
balanced tokens up to it, one in front of another element the tokens up to the
first that this element accepts, trivia in front dropped; the last element of a
pattern captures all that is left, which must be something. -/
def walk : List PatternElement → List Token → Captures → Option (Captures × List Token)
  | [], rest, captures => some (captures, rest)
  | _ :: _, [], _ => none
  | .token expected :: pattern, token :: tokens, captures =>
    let input := if expected.text = " " then token :: tokens else skipTrivia (token :: tokens)
    match input with
    | [] => none
    | first :: rest => if expected.text = first.text then walk pattern rest captures else none
  | [.placeholder _ name], token :: tokens, captures =>
    some (captures.bind name (token :: tokens), [])
  | .placeholder _ name :: terminator :: pattern, token :: tokens, captures =>
    match opening? terminator.text with
    | some opening =>
      let captured := balancedRun opening terminator.text 0 (token :: tokens)
      match (token :: tokens).drop captured.length with
      | [] => none
      | _ :: rest => walk pattern rest (captures.bind name captured)
    | none =>
      let input := skipTrivia (token :: tokens)
      let captured := input.takeWhile fun t => !terminator.accepts t
      walk (terminator :: pattern) (input.drop captured.length) (captures.bind name captured)

namespace Rule

/-- The rule applies at the front of the tokens.  It is tried only if its first
element accepts the first token. -/
def candidate? (rule : Rule) (tokens : List Token) : Option Candidate :=
  match rule.elements, tokens with
  | first :: _, token :: _ =>
    if !first.accepts token then none
    else if rule.hasCaptures then
      (walk rule.elements tokens []).map fun (captures, rest) =>
        ⟨rule, captures, tokens.length - rest.length⟩
    else if acceptsAll rule.elements tokens then some ⟨rule, [], rule.elements.length⟩
    else none
  | _, _ => none

end Rule

/-- The rules that apply at the front of the tokens, in the order given. -/
def candidates (rules : List Rule) (tokens : List Token) : List Candidate :=
  rules.filterMap (·.candidate? tokens)

/-- The rules that apply at a position; none if the tokens have no such
position. -/
def candidatesAt (rules : List Rule) (tokens : List Token) (position : Int) :
    List Candidate :=
  if 0 ≤ position then candidates rules (tokens.drop position.toNat) else []

end TokenMacros
