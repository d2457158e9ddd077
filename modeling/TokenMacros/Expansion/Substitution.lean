import TokenMacros.Expansion.Captures
import TokenMacros.Rule.Element

/-!
# Instantiating a replacement

References are replaced by the tokens captured under their names; a name that
was not captured is written out as its reference.  Where captured tokens bring
white space of their own, a single space beside them is left out.
-/

namespace TokenMacros

/-- The instance of the remaining elements behind the tokens `emitted`, which
are in reverse.  `skipSpace` tells that the last capture ended with trivia. -/
def instantiateAfter (captures : Captures) (emitted : List Token)
    (skipSpace : Bool) :
    List ReplacementElement → List Token
  | [] => emitted.reverse
  | element :: elements =>
    if skipSpace && element.isPlainSpace then instantiateAfter captures emitted false elements
    else
      match element with
      | .token token => instantiateAfter captures (token :: emitted) false elements
      | .reference name =>
        match captures.find? name with
        | none =>
          instantiateAfter captures (.bare (referenceText name) :: emitted) false elements
        | some captured =>
          let bringsSpace := captured.head?.any Token.isTrivia
          let kept :=
            if bringsSpace && emitted.head?.any Token.isPlainSpace then emitted.tail else emitted
          instantiateAfter captures (captured.reverse ++ kept)
            (captured.getLast?.any Token.isTrivia) elements

def instantiate (template : List ReplacementElement) (captures : Captures) :
    List Token :=
  instantiateAfter captures [] false template

end TokenMacros
