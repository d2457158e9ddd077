import TokenMacros.Host.FileSystem
import TokenMacros.Rule.Definition
import TokenMacros.Rule.Registry

/-!
# Loading rules

Rules are loaded from texts, from files, and from the definition files of a
directory in the order of their names.  Every loader answers how many rules it
has added; when it is stopped, what was added before stays.
-/

namespace TokenMacros.RuleBook

variable {m : Type → Type} [Monad m] [FileSystem m]

/-- Adds the rules that a text defines. -/
def loadText (book : RuleBook) (text : String) (file : Option String) :
    Except Stop Nat × RuleBook :=
  let rules := Definition.parseText text file
  match book.addAll rules with
  | (none, book) => (.ok rules.length, book)
  | (some failure, book) => (.error (.failed failure), book)

/-- The text of a definition file, which must exist. -/
def definitionText (path : Path) : Run m String := do
  if !(← FileSystem.isFile path) then
    throw (.failed (.ruleFileMissing path.toString))
  FileSystem.readText path

def loadFile (book : RuleBook) (path : Path) :
    m (Except Stop Nat × RuleBook) := do
  match ← (definitionText path : Run m String).run with
  | .error stop => return (.error stop, book)
  | .ok text => return book.loadText text (some path.toString)

/-- Adds the rules of those paths that lead to files. -/
def loadFiles (book : RuleBook) : List Path → m (Except Stop Nat × RuleBook)
  | [] => return (.ok 0, book)
  | path :: paths => do
    match ← (FileSystem.isFile path : Run m Bool).run with
    | .error stop => return (.error stop, book)
    | .ok false => loadFiles book paths
    | .ok true =>
      match ← loadFile book path with
      | (.error stop, book) => return (.error stop, book)
      | (.ok loaded, book) =>
        let (rest, book) ← loadFiles book paths
        return (rest.map (loaded + ·), book)

def isDefinitionName (name : String) : Bool :=
  ['.', 's', 'y', 'n'].isSuffixOf name.toList

/-- The definition files of a directory, in order. -/
def definitionFiles (directory : Path) : Run m (List Path) := do
  if !(← FileSystem.isDirectory directory) then
    throw (.failed (.ruleDirectoryMissing directory.toString))
  let names ← FileSystem.attempt (FileSystem.names directory)
  return FileSystem.sorted
    ((names.filter isDefinitionName).map fun name =>
      directory.join ⟨"", [name]⟩)

/-- Adds the rules of the definition files of a directory. -/
def loadDirectory (book : RuleBook) (directory : Path) :
    m (Except Stop Nat × RuleBook) := do
  match ← (definitionFiles directory : Run m (List Path)).run with
  | .error stop => return (.error stop, book)
  | .ok paths => loadFiles book paths

end TokenMacros.RuleBook
