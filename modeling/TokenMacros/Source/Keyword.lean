import TokenMacros.Text.Lowercase

/-!
# Keywords

The reserved words of the host language.  Case does not matter, in the sense of
the full lower-case mapping.
-/

namespace TokenMacros

/-- Reserved words, in lower case. -/
def keywords : List String :=
  ["abstract", "and", "array", "as", "break", "callable", "case", "catch", "class", "clone",
   "const", "continue", "declare", "default", "do", "echo", "else", "elseif", "empty",
   "enddeclare", "endfor", "endforeach", "endif", "endswitch", "endwhile", "enum", "eval",
   "exit", "die", "extends", "final", "finally", "fn", "for", "foreach", "function", "global",
   "goto", "if", "implements", "include", "include_once", "instanceof", "insteadof",
   "interface", "isset", "list", "match", "namespace", "new", "or", "print", "private",
   "protected", "public", "readonly", "require", "require_once", "return", "static", "switch",
   "throw", "trait", "try", "unset", "use", "var", "while", "xor", "yield"]

def isKeyword (word : List Char) : Bool :=
  keywords.contains (String.ofList (Text.lower word))

end TokenMacros
