import TokenMacros.Failure
import TokenMacros.Host.Path
import TokenMacros.Text.Quoted

/-!
# File systems

What a run needs of the files around it, as operations that may be refused, and
what stops a run.  Reading text, telling files from directories and creating
directories with their parents are derived from these operations.
-/

namespace TokenMacros

inductive SystemFailure where
  | notFound (path : Path)
  | exists (path : Path)
  | notDirectory (path : Path)
  | isDirectory (path : Path)
  | nameTooLong (path : Path)
  /-- The path holds a character that no name may hold. -/
  | unnameable (path : Path)
  /-- Any other reason, in the words of whoever refused. -/
  | other (text : String)
  deriving Repr, DecidableEq

/-- The words for a refusal. -/
def SystemFailure.message : SystemFailure → String
  | .notFound path => "[Errno 2] No such file or directory: " ++ shown path
  | .exists path => "[Errno 17] File exists: " ++ shown path
  | .notDirectory path => "[Errno 20] Not a directory: " ++ shown path
  | .isDirectory path => "[Errno 21] Is a directory: " ++ shown path
  | .nameTooLong path => "[Errno 36] File name too long: " ++ shown path
  | .unnameable _ => "embedded null byte"
  | .other text => text
where
  shown (path : Path) : String := String.ofList (Text.quoted path.toString.toList)

inductive Stop where
  /-- A failure that is explained to the user. -/
  | failed (failure : Failure)
  /-- The system refused an operation. -/
  | refused (failure : SystemFailure)
  /-- A file that should hold text is not valid UTF-8. -/
  | undecodable (path : Path)
  /-- An infinite number where a whole one is needed. -/
  | infinite
  /-- A value of a kind that cannot be used in its place. -/
  | wrongKind (reason : String)
  /-- A value of the right kind that cannot be used in its place. -/
  | wrongValue (reason : String)
  /-- A value that is no table where entries are looked up. -/
  | noTable (reason : String)
  /-- A key that nothing is found under. -/
  | missingKey (key : String)
  /-- A module that cannot be imported. -/
  | unimportable (reason : String)
  /-- The user interrupted the run. -/
  | interrupted
  /-- Whatever else foreign code raises. -/
  | raised (kind reason : String)
  deriving Repr, DecidableEq

inductive EntryKind where
  | file
  | directory
  deriving Repr, DecidableEq

class FileSystem (m : Type → Type) where
  /-- What the path leads to, if anything. -/
  kind? : Path → m (Except SystemFailure (Option EntryKind))
  read : Path → m (Except SystemFailure ByteArray)
  /-- Writes a file in an existing directory; what it held is lost. -/
  write : Path → ByteArray → m (Except SystemFailure Unit)
  /-- Creates a directory in an existing one. -/
  makeDirectory : Path → m (Except SystemFailure Unit)
  /-- The names in a directory, in no particular order. -/
  names : Path → m (Except SystemFailure (List String))
  /-- Paths, below the given one, of all that is in a directory and in those
  within. -/
  descendants : Path → m (Except SystemFailure (List Path))

/-- A computation that may be stopped. -/
abbrev Run (m : Type → Type) := ExceptT Stop m

namespace FileSystem

variable {m : Type → Type} [Monad m] [FileSystem m]

/-- How a refusal stops a run.  A path that is no path at all is a wrong value.
-/
def stopOf : SystemFailure → Stop
  | .unnameable path => .wrongValue (SystemFailure.unnameable path).message
  | failure => .refused failure

/-- Performs an operation that the system may refuse. -/
def attempt {α : Type} (operation : m (Except SystemFailure α)) : Run m α :=
  ExceptT.mk (return (← operation).mapError stopOf)

def isFile (path : Path) : Run m Bool :=
  return (← attempt (kind? path)) == some .file

def isDirectory (path : Path) : Run m Bool :=
  return (← attempt (kind? path)) == some .directory

def readText (path : Path) : Run m String := do
  match Text.decode? (← attempt (read path)) with
  | some text => return text
  | none => throw (.undecodable path)

def writeText (path : Path) (text : String) : Run m Unit :=
  attempt (write path text.toUTF8)

/-- Accepts a refusal to create a directory that is there already. -/
def unlessPresent (path : Path) (failure : SystemFailure) : Run m Unit := do
  if !(← isDirectory path) then throw (stopOf failure)

/-- Creates a directory in an existing one, if it is not there. -/
def createDirectory (path : Path) : Run m Unit := do
  match ← (makeDirectory path : m _) with
  | .ok () => return ()
  | .error (.notFound refused) => throw (.refused (.notFound refused))
  | .error failure => unlessPresent path failure

/-- Creates the directory whose components, in reverse, are given; first the one
above it, if that is missing. -/
def ensureDirectoryIn (root : String) : List String → Run m Unit
  | [] => createDirectory ⟨root, []⟩
  | part :: parents => do
    let path : Path := ⟨root, (part :: parents).reverse⟩
    match ← (makeDirectory path : m _) with
    | .ok () => return ()
    | .error (.notFound _) =>
      ensureDirectoryIn root parents
      createDirectory path
    | .error failure => unlessPresent path failure

/-- Creates a directory and those above it, as far as they are missing. -/
def ensureDirectory (path : Path) : Run m Unit :=
  ensureDirectoryIn path.root path.parts.reverse

/-- Sorts paths in the order in which they are visited. -/
def sorted (paths : List Path) : List Path :=
  paths.mergeSort Path.le

end FileSystem

end TokenMacros
