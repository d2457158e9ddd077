import TokenMacros.Expansion.Pass
import TokenMacros.Source.Lex

/-!
# Expanding to a fixed point

Rules are applied in rounds until a round changes no text, or a limit is
reached.  A round makes one pass for every rule, so what one pass produces can
be matched by the next.
-/

namespace TokenMacros

open Text (lower trimLeft)

/-- The number of rounds that is allowed if nothing else is said. -/
def defaultMaxIterations : Nat := 3

structure Limits where
  maxIterations : Nat := defaultMaxIterations
  /-- Apply a rule to a single token when its pattern only begins there. -/
  singleTokenFallback : Bool := false
  maxIterations_pos : 0 < maxIterations := by decide

namespace Limits

/-- Limits with the given number of rounds, which must be positive. -/
def ofInt? (maxIterations : Int) (singleTokenFallback : Bool) : Option Limits :=
  if positive : 0 < maxIterations.toNat then
    some ⟨maxIterations.toNat, singleTokenFallback, positive⟩
  else none

def refusal : String := "Transformer must perform at least one iteration"

end Limits

structure Outcome where
  tokens : List Token
  /-- How many rounds were made. -/
  iterations : Nat
  /-- The last round changed nothing. -/
  converged : Bool
  deriving Repr, DecidableEq

def Outcome.text (outcome : Outcome) : String :=
  Token.render outcome.tokens

def texts (tokens : List Token) : List String :=
  tokens.map Token.text

/-- Makes `count` passes.  Answers the tokens and whether a pass changed a text.
-/
def passes (rules : List Rule) (fallback : Bool) :
    (count : Nat) → List Token → List Token × Bool
  | 0, tokens => (tokens, false)
  | count + 1, tokens =>
    let rebuilt := pass rules fallback tokens
    let changed := texts rebuilt != texts tokens
    let (result, changedLater) := passes rules fallback count rebuilt
    (result, changed || changedLater)

/-- One round: as many passes as there are rules. -/
def round (rules : List Rule) (fallback : Bool) (tokens : List Token) :
    List Token × Bool :=
  passes rules fallback rules.length tokens

/-- Makes rounds until one changes nothing, at most `limit` of them. -/
def rounds (rules : List Rule) (fallback : Bool) :
    (limit : Nat) → List Token → Outcome
  | 0, tokens => ⟨tokens, 0, false⟩
  | limit + 1, tokens =>
    let (result, changed) := round rules fallback tokens
    if changed then
      let outcome := rounds rules fallback limit result
      { outcome with iterations := outcome.iterations + 1 }
    else ⟨result, 1, true⟩

/-- Applies rules, given in the order in which they are tried, to tokens. -/
def expandTokens (rules : List Rule) (limits : Limits) (tokens : List Token) :
    Outcome :=
  if rules.isEmpty then ⟨tokens, 0, true⟩
  else rounds rules limits.singleTokenFallback limits.maxIterations tokens

/-- How a source begins: as template text if its first word is the long open
tag, in any case. -/
def sourceMode (source : String) : Mode :=
  if beginsWith openTagMark (lower (trimLeft source.toList)) then .template else .code

def expandSource (rules : List Rule) (limits : Limits) (source : String) :
    Outcome :=
  expandTokens rules limits (lex (sourceMode source) source)

end TokenMacros
