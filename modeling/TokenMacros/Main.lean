import TokenMacros.CommandLine.Run
import TokenMacros.Session.Catalogue

/-!
# The program

The command line on the files, the streams and the clock of the system.
-/

namespace TokenMacros.Program

/-- A path for the system. -/
def located (path : Path) :=
  (IO.FS.DirEntry.mk "." path.toString).path

/-- Why the system refused an operation on a path. -/
def refusal (path : Path) : IO.Error → SystemFailure
  | .noFileOrDirectory .. => .notFound path
  | .alreadyExists .. => .exists path
  | .inappropriateType .. => .notDirectory path
  | failure => .other (toString failure)

def attempt {α : Type} (path : Path) (operation : IO α) :
    IO (Except SystemFailure α) := do
  match ← operation.toBaseIO with
  | .ok answer => return .ok answer
  | .error failure => return .error (refusal path failure)

def entryKind (path : Path) : IO (Option EntryKind) := do
  match ← (located path).metadata.toBaseIO with
  | .ok metadata =>
    return match metadata.type with
      | .file => some .file
      | .dir => some .directory
      | _ => none
  | .error _ => return none

def entryNames (path : Path) : IO (List String) := do
  return (← (located path).readDir).toList.map (·.fileName)

/-- All paths below a directory. -/
partial def entriesBelow (path : Path) : IO (List Path) := do
  let mut found := []
  for name in ← entryNames path do
    let entry := path.join ⟨"", [name]⟩
    found := entry :: found
    if (← entryKind entry) == some .directory then found := (← entriesBelow entry) ++ found
  return found

instance : FileSystem IO where
  kind? path := attempt path (entryKind path)
  read path := attempt path (IO.FS.readBinFile (located path))
  write path bytes := attempt path (IO.FS.writeBinFile (located path) bytes)
  makeDirectory path := attempt path (IO.FS.createDir (located path))
  names path := attempt path (entryNames path)
  descendants path := attempt path (entriesBelow path)

def stream : Stream → BaseIO IO.FS.Stream
  | .output => IO.getStdout
  | .errors => IO.getStderr

instance : Console IO where
  print target text := do (← stream target).putStr text
  isTerminal target := do (← stream target).isTty

/-- A fact that the system keeps in a file. -/
def fact (file : String) : IO String := do
  match ← (IO.FS.readFile file).toBaseIO with
  | .ok text => return text.trimAscii.toString
  | .error _ => return "unknown"

instance : Machine IO where
  now := IO.monoNanosNow
  facts := return [("Platform",
    (← fact "/proc/sys/kernel/ostype") ++ "-" ++ (← fact "/proc/sys/kernel/osrelease"))]

/-- The words for what stopped a run that nobody explained. -/
def unexplained : Stop → String
  | .failed failure => failure.message
  | .refused failure => failure.message
  | .undecodable path => "'" ++ path.toString ++ "' is not valid UTF-8"
  | .infinite => "cannot convert float infinity to integer"
  | .wrongKind reason => reason
  | .wrongValue reason => reason
  | .noTable reason => reason
  | .missingKey key => String.ofList (Text.quoted key.toList)
  | .unimportable reason => reason
  | .interrupted => "interrupted"
  | .raised kind reason => kind ++ ": " ++ reason

end TokenMacros.Program

/-- Runs the command line. -/
def main (words : List String) : IO UInt32 := do
  let programFile := (← IO.appPath).toString
  let invocation : TokenMacros.Invocation := { programFile := programFile, words := words }
  let noPlugins := TokenMacros.Catalogue.code []
  match ← (TokenMacros.CommandLine.run noPlugins [] invocation : TokenMacros.Run IO Nat).run with
  | .ok code => return code.toUInt32
  | .error stop =>
    IO.eprintln (TokenMacros.Program.unexplained stop)
    return 1
