import TokenMacros.Text.Lowercase

/-!
# Kebab case

Names of error kinds are shown in kebab case: words that began with a capital
are joined by hyphens and lowered.
-/

namespace TokenMacros.Text

def hyphenate : List Char → List Char
  | [] => []
  | c :: rest => if c.isUpper then '-' :: c :: hyphenate rest else c :: hyphenate rest

/-- Splits a name in front of its ASCII capitals, the first character apart, and
lowers it. -/
def kebab (name : String) : String :=
  match name.toList with
  | [] => ""
  | c :: rest => String.ofList (lower (c :: hyphenate rest))

end TokenMacros.Text
