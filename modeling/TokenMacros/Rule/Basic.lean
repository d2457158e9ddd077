import TokenMacros.Failure
import TokenMacros.Rule.Pattern
import TokenMacros.Rule.Replacement

/-!
# Rules

A rule replaces what its pattern matches.  It is looked up by the first token of
the pattern, so the pattern must have elements and must not begin with a
capture.
-/

namespace TokenMacros

/-- A pattern, its replacement, and what is known about where they come from. -/
structure Rule where
  pattern : String
  replacement : String
  name : Option String
  file : Option String
  line : Option Int
  /-- Rules of higher priority are tried first. -/
  priority : Int
  /-- The pattern as it is matched. -/
  elements : List PatternElement
  /-- Marker and name of every capture of the pattern. -/
  captures : List (String × String)
  /-- The replacement as it is instantiated. -/
  template : List ReplacementElement
  deriving Repr, DecidableEq

/-- What a rule is made from. -/
structure RuleSource where
  pattern : String
  replacement : String
  name : Option String := none
  file : Option String := none
  line : Option Int := none
  priority : Int := 0
  deriving Repr, DecidableEq

namespace Rule

def define (source : RuleSource) : Except Failure Rule :=
  let pattern := Pattern.parse source.pattern
  let rule : Rule :=
    { pattern := source.pattern
      replacement := source.replacement
      name := source.name
      file := source.file
      line := source.line
      priority := source.priority
      elements := pattern.elements
      captures := pattern.captures
      template := Replacement.parse source.replacement }
  match pattern.elements with
  | [] => .error (.emptyPattern source.file source.line)
  | .placeholder .. :: _ => .error (.leadingCapture source.pattern source.file source.line)
  | .token _ :: _ => .ok rule

def hasCaptures (rule : Rule) : Bool :=
  !rule.captures.isEmpty

/-- Names in the replacement that the pattern does not capture. -/
def unresolved (rule : Rule) : List String :=
  let captured := rule.captures.map (·.2)
  rule.template.filterMap fun
    | .reference name => if captured.contains name then none else some name
    | .token _ => none

end Rule

end TokenMacros
