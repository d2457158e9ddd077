import TokenMacros.Text.Split

/-!
# Paths

A path is a root, possibly empty, and a list of components.  Empty components
and single dots have no meaning and are dropped when a path is read; double dots
are kept, because what they mean depends on the files.
-/

namespace TokenMacros

structure Path where
  /-- Empty for a relative path. -/
  root : String := ""
  parts : List String := []
  deriving Repr, DecidableEq

namespace Path

/-- Reads a path.  Two slashes in front make a root of their own, any other
number the usual one. -/
def ofString (text : String) : Path :=
  let slashes := text.toList.takeWhile (· == '/')
  let root := match slashes.length with
    | 0 => ""
    | 2 => "//"
    | _ => "/"
  let parts := (Text.splitOn '/' (text.toList.drop slashes.length)).map String.ofList
  ⟨root, parts.filter fun part => part != "" && part != "."⟩

/-- The text of a path; the empty path is a single dot. -/
def toString (path : Path) : String :=
  if path.root == "" && path.parts.isEmpty then "."
  else path.root ++ String.intercalate "/" path.parts

/-- A path below another one; an absolute path stands for itself. -/
def join (base path : Path) : Path :=
  if path.root == "" then ⟨base.root, base.parts ++ path.parts⟩ else path

def name (path : Path) : String :=
  path.parts.getLast?.getD ""

def parent (path : Path) : Path :=
  ⟨path.root, path.parts.dropLast⟩

def withName (path : Path) (name : String) : Path :=
  ⟨path.root, path.parts.dropLast ++ [name]⟩

/-- Whether the components of a path do not come after those of another one. -/
def partsLe : List String → List String → Bool
  | [], _ => true
  | _ :: _, [] => false
  | part :: parts, other :: others =>
    if part = other then partsLe parts others else decide (part < other)

/-- The order in which files are visited: component by component. -/
def le (left right : Path) : Bool :=
  partsLe (left.root :: left.parts) (right.root :: right.parts)

end Path

end TokenMacros
