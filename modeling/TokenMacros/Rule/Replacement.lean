import TokenMacros.Rule.Element
import TokenMacros.Rule.Mark
import TokenMacros.Source.Lex

/-!
# Replacements

Reading the replacement of a rule: its references, and the stretches between
them as code.  Every stretch is cut into tokens on its own.
-/

namespace TokenMacros

namespace Replacement

/-- The tokens of a stretch of code. -/
def codeElements (stretch : List Char) : List ReplacementElement :=
  (lexCode (String.ofList stretch)).map .token

def parse (text : String) : List ReplacementElement :=
  let stretches := Stretches.cut Mark.reference? text.toList
  codeElements stretches.lead ++
    stretches.marked.flatMap fun (name, stretch) =>
      .reference (String.ofList name) :: codeElements stretch

end Replacement

end TokenMacros
