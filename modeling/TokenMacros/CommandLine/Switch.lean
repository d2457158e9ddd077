/-!
# Options

The options of the command line with their names.  A name of one dash and one
character may be written together with other such names and with a value.
-/

namespace TokenMacros

inductive Switch where
  | help
  | output
  | version
  | ruleDirectory
  | ruleFile
  | configuration
  | maxIterations
  | singleTokenFallback
  | verbose
  /-- Failures are not explained but leave the program as they are. -/
  | rawFailures
  deriving Repr, DecidableEq

namespace Switch

def all : List Switch :=
  [help, output, version, ruleDirectory, ruleFile, configuration, maxIterations,
   singleTokenFallback, verbose, rawFailures]

/-- The names of an option, in the order in which messages show them. -/
def names : Switch → List String
  | help => ["-h", "--help"]
  | output => ["--out", "-o"]
  | version => ["--version"]
  | ruleDirectory => ["--macro-dir", "-m"]
  | ruleFile => ["--macro-file", "-f"]
  | configuration => ["--config", "-c"]
  | maxIterations => ["--max-iterations"]
  | singleTokenFallback => ["--legacy-single-token-fallback"]
  | verbose => ["--verbose", "-v"]
  | rawFailures => ["--debug-unwrap-errors"]

def shown (switch : Switch) : String :=
  String.intercalate "/" switch.names

/-- The option takes a value. -/
def takesValue : Switch → Bool
  | output => true
  | ruleDirectory => true
  | ruleFile => true
  | configuration => true
  | maxIterations => true
  | _ => false

def ofName? (name : List Char) : Option Switch :=
  all.find? fun switch => switch.names.any (·.toList == name)

end Switch

end TokenMacros
