import TokenMacros.CommandLine.Arguments
import TokenMacros.CommandLine.Table
import TokenMacros.CommandLine.Usage
import TokenMacros.Host.Machine
import TokenMacros.Session.Basic

/-!
# Runs of the command line

A run reads its arguments, reports the version or expands sources, and answers
an exit code: 0 if it did what it was asked for or was interrupted, 1 if it
failed, 2 if the command line was misused.  Failures are explained to the user;
what nobody explains stops the run.
-/

namespace TokenMacros

structure Invocation where
  /-- The name to show; if it is absent or empty, that of the program's file. -/
  name : Option String := none
  programFile : String
  words : List String
  deriving Repr, DecidableEq

namespace Invocation

def program (invocation : Invocation) : String :=
  match invocation.name with
  | some name => if name == "" then fileName else name
  | none => fileName
where
  /-- The last component of the path of the program's file. -/
  fileName : String := (Path.ofString invocation.programFile).name

end Invocation

def version : String := "0.1.0"

namespace Arguments

/-- What the arguments override in a configuration. -/
def overrides (arguments : Arguments) : Overrides where
  macroDirectories := some (arguments.ruleDirectories.map Path.ofString)
  macroFiles := some (arguments.ruleFiles.map Path.ofString)
  verbose := some (.boolean arguments.verbose)
  maxIterations := arguments.maxIterations.map Value.integer
  singleTokenFallback := some (.boolean arguments.singleTokenFallback)

/-- A path that may be absent; an empty text is none. -/
def pathOf (text : Option String) : Option Path :=
  (text.filter (· != "")).map Path.ofString

end Arguments

namespace CommandLine

variable {m : Type → Type} [Monad m] [FileSystem m] [Console m] [Machine m]

/-- Prints an error message and answers the exit code for failures. -/
def abort (text : String) : m Nat := do
  Console.message .error text
  return 1

def printLines : List String → m Unit
  | [] => return ()
  | line :: lines => do
    Console.line .output line
    printLines lines

def reportVersion : m Nat := do
  let facts ← Machine.facts
  printLines ([
    "[Syn preprocessor]",
    "\tVersion: " ++ version,
    "\tDefault max iterations: " ++ toString defaultMaxIterations,
    "Host machine:"] ++ facts.map fun (label, fact) => "\t" ++ label ++ ": " ++ fact)
  return 0

def outcomeTable (outcomes : List FileOutcome) : List String :=
  Table.lines ["File", "Lines", "Iterations", "Converged"]
    (outcomes.map fun outcome => [
      outcome.file.toString, toString outcome.lines, toString outcome.iterations,
      if outcome.converged then "yes" else "no"])

/-- The configuration of a file, or else the default one, with overrides. -/
def configuration (file : Option Path) (overrides : Overrides) :
    Run m Configuration := do
  let base ←
    match file with
    | some path => Configuration.load path
    | none => pure {}
  ExceptT.mk (pure (overrides.merge base))

def expandSources (code : PluginCode) (world : code.World)
    (configuration : Configuration) (input output : Path) : Run m Nat := do
  let host : PluginHost code := { world := world }
  let session ← Session.start configuration host
  Console.progress configuration.isVerbose
    ("Loaded " ++ toString session.book.count ++ " macro(s) in total")
  let outcomes ← session.process input output
  if configuration.isVerbose then printLines (outcomeTable outcomes)
  Console.message .info
    ("Processed " ++ toString outcomes.length ++ " file(s) successfully")
  return 0

def perform (code : PluginCode) (world : code.World) (arguments : Arguments) :
    Run m Nat := do
  if arguments.version then reportVersion
  else
    match Arguments.pathOf arguments.input, Arguments.pathOf arguments.output with
    | none, _ => abort "Expected input file or directory to process!"
    | some _, none => abort "Output path is required, please specify it via `--out`!"
    | some input, some output =>
      let configuration ←
        configuration (Arguments.pathOf arguments.configuration) arguments.overrides
      expandSources code world configuration input output

/-- Nanoseconds as seconds with two decimals. -/
def seconds (nanoseconds : Nat) : String :=
  let hundredths := (nanoseconds + 5000000) / 10000000
  let decimals := toString (hundredths % 100)
  toString (hundredths / 100) ++ "." ++ (if decimals.length < 2 then "0" else "") ++ decimals

/-- Does what the arguments ask for, and tells how long it took unless it was
stopped. -/
def performTimed (code : PluginCode) (world : code.World) (arguments : Arguments) :
    Run m Nat := do
  let start ← Machine.now
  let exitCode ← perform code world arguments
  let finish ← Machine.now
  Console.progress arguments.verbose
    ("Performing an goal took " ++ seconds (finish - start) ++ " seconds!")
  return exitCode

/-- Explains what stopped a run, if it can be explained and should be. -/
def explain (arguments : Arguments) (stop : Stop) : Run m Nat := do
  match stop with
  | .failed failure =>
    if arguments.explainsFailures then abort failure.message else throw stop
  | .refused failure => abort ("I/O failure: " ++ failure.message)
  | .interrupted =>
    Console.line .output ""
    Console.message .info "Interrupted by user (Ctrl+C)!"
    return 0
  | _ => throw stop

/-- The name of a program file that was not installed. -/
def bareProgram : String := "__main__.py"

/-- Runs the command line and answers the exit code. -/
def run (code : PluginCode) (world : code.World) (invocation : Invocation) :
    Run m Nat := do
  let program := invocation.program
  if program == bareProgram then
    Console.message .warning
      ("Running with prog == '" ++ bareProgram ++ "', consider proper installation!")
  match Arguments.parse invocation.words with
  | .error .help =>
    let text ← ExceptT.mk (pure (Usage.help program))
    Console.print .output text
    return 0
  | .error (.misuse misuse) =>
    let text ← ExceptT.mk (pure (Usage.misuse program misuse.message))
    Console.print .errors text
    return 2
  | .ok arguments =>
    tryCatch (performTimed code world arguments) (explain arguments)

end CommandLine

end TokenMacros
