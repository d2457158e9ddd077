import TokenMacros.Host.Console
import TokenMacros.Session.Loading
import TokenMacros.Session.Plugin
import TokenMacros.Settings.Configuration

/-!
# Sessions

A session gathers the rules of its configuration and of its plugins, and expands
sources with them: a text, a file into a file, or all sources of a directory
into another one.
-/

namespace TokenMacros

/-- A configuration with the rules that were loaded for it. -/
structure Session where
  configuration : Configuration
  book : RuleBook

structure FileOutcome where
  file : Path
  output : Path
  lines : Nat
  iterations : Nat
  converged : Bool
  deriving Repr, DecidableEq

/-- The endings of source names that are replaced in the names of outputs,
longest first. -/
def sourceEndings : List (List Char) :=
  [['.', 's', 'y', 'n', '.', 'p', 'h', 'p'], ['.', 's', 'y', 'n']]

def isSourceName (name : String) : Bool :=
  sourceEndings.any fun ending => ending.isSuffixOf name.toList

/-- The name of the output for a source of the given name. -/
def outputName (name : String) : String :=
  match sourceEndings.find? fun ending => ending.isSuffixOf name.toList with
  | some ending =>
    String.ofList (name.toList.take (name.toList.length - ending.length)) ++
      ".php"
  | none => name

namespace Session

variable {m : Type → Type} [Monad m] [FileSystem m] [Console m]

/-- The rules of a session in the order in which they are tried. -/
def rules (session : Session) : List Rule :=
  session.book.serve.1

def expand (session : Session) (source : String) : Except Stop Outcome :=
  return expandSource session.rules (← session.configuration.limits) source

/-- Registers plugins by import path. -/
def registerAll {code : PluginCode} : List String → Hosted code Unit
  | [] => return ()
  | path :: paths => do
    let _ ← PluginHost.register path
    registerAll paths

/-- Says how many rules were loaded from where. -/
def reportLoaded (verbose : Bool) (loaded : Nat) (path : Path) : m Unit :=
  Console.progress verbose
    ("Loaded " ++ toString loaded ++ " macro(s) from '" ++ path.toString ++ "'")

/-- Loads rules from paths of one kind, and warns about those that are not
there. -/
def loadAll (verbose : Bool) (noun : String) (isThere : Path → Run m Bool)
    (load : RuleBook → Path → m (Except Stop Nat × RuleBook)) :
    List Path → RuleBook → Run m RuleBook
  | [], book => return book
  | path :: paths, book => do
    if ← isThere path then
      let (loaded, book) ← (load book path : m _)
      reportLoaded verbose (← ExceptT.mk (pure loaded) : Nat) path
      loadAll verbose noun isThere load paths book
    else
      Console.message .warning
        ("Macro " ++ noun ++ " '" ++ path.toString ++
          "' not found, it will be skipped!")
      loadAll verbose noun isThere load paths book

def warnUnresolved : List Rule → m Unit
  | [] => return ()
  | rule :: rules => do
    if !rule.unresolved.isEmpty then
      Console.message .warning
        ("Macro `" ++ rule.pattern ++ "` references unknown capture(s) " ++
          String.intercalate ", " rule.unresolved ++
            ", they will be emitted as-is!")
    warnUnresolved rules

/-- Opens a session: registers and configures its plugins, then loads the rules
of directories, files and plugins. -/
def start {code : PluginCode} (configuration : Configuration)
    (host : PluginHost code) : Run m Session := do
  let ((), host) ← host.consult (registerAll configuration.plugins)
  let ((), host) ←
    host.consult (PluginHost.configure configuration.pluginSettings)
  let verbose := configuration.isVerbose
  let book ←
    loadAll verbose "directory" FileSystem.isDirectory RuleBook.loadDirectory
    configuration.macroDirectories {}
  let book ← loadAll verbose "file" FileSystem.isFile RuleBook.loadFile
    configuration.macroFiles book
  let (supplied, _) ← host.consult PluginHost.rules
  let (failure?, book) := book.addAll supplied
  if let some failure := failure? then throw (.failed failure)
  let session : Session := ⟨configuration, book⟩
  warnUnresolved session.rules
  return session

/-- Expands a source file into an output file, whose directory is created if it
is missing. -/
def expandInto (session : Session) (input output : Path) :
    Run m FileOutcome := do
  let source ← FileSystem.readText input
  let outcome ← ExceptT.mk (pure (session.expand source))
  if !outcome.converged then
    Console.message .warning
      ("Macros for '" ++ input.toString ++ "' were still applying after " ++
        toString outcome.iterations ++
        " iteration(s), output may be partially transformed!")
  FileSystem.ensureDirectory output.parent
  FileSystem.writeText output outcome.text
  Console.progress session.configuration.isVerbose
    ("Processed '" ++ input.toString ++ "' into '" ++ output.toString ++ "'")
  return {
    file := input
    output := output
    lines := source.toList.count '\n' + 1
    iterations := outcome.iterations
    converged := outcome.converged }

/-- Expands a source file.  An output that is a directory gets a file of the
output's name. -/
def processFile (session : Session) (input output : Path) :
    Run m FileOutcome := do
  if !(← FileSystem.isFile input) then
    throw (.failed (.inputMissing input.toString))
  let output ← if ← FileSystem.isDirectory output then
      pure (output.join ⟨"", [outputName input.name]⟩)
    else pure output
  session.expandInto input output

/-- Expands those of the given paths below `input` that lead to sources. -/
def expandEach (session : Session) (input output : Path) :
    List Path → Run m (List FileOutcome)
  | [] => return []
  | path :: paths => do
    if (← FileSystem.isFile path) && isSourceName path.name then
      let relative : Path := ⟨"", path.parts.drop input.parts.length⟩
      let outcome ← session.expandInto path
        (output.join (relative.withName (outputName path.name)))
      return outcome :: (← session.expandEach input output paths)
    else session.expandEach input output paths

/-- Expands all sources of a directory and of those within, each to the same
place in the output directory. -/
def processDirectory (session : Session) (input output : Path) :
    Run m (List FileOutcome) := do
  if !(← FileSystem.isDirectory input) then
    throw (.failed (.inputMissing input.toString))
  FileSystem.ensureDirectory output
  let paths ← FileSystem.attempt (FileSystem.descendants input)
  session.expandEach input output (FileSystem.sorted paths)

def process (session : Session) (input output : Path) :
    Run m (List FileOutcome) := do
  if ← FileSystem.isFile input then return [← session.processFile input output]
  if ← FileSystem.isDirectory input then
    return ← session.processDirectory input output
  throw (.failed (.inputMissing input.toString))

end Session

end TokenMacros
