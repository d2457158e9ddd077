import TokenMacros.Text.Kebab

/-!
# Failures

Everything that can go wrong and is explained to the user, as a cause with its
data.  One function words them all; each explanation ends with the tag of its
kind.
-/

namespace TokenMacros

inductive Failure where
  /-- A rule whose pattern has no element. -/
  | emptyPattern (file : Option String) (line : Option Int)
  /-- A rule whose pattern begins with a capture. -/
  | leadingCapture (pattern : String) (file : Option String) (line : Option Int)
  | ruleFileMissing (path : String)
  | ruleDirectoryMissing (path : String)
  | configurationMissing (path : String)
  | configurationInvalid (path reason : String)
  | pluginMissing (plugin : String)
  /-- A plugin that lacks a part of what plugins provide. -/
  | pluginUnfit (plugin : String)
  | inputMissing (path : String)
  /-- An iteration limit below one. -/
  | iterationLimit (value : String)
  | undocumented (kind : String)
  deriving Repr, DecidableEq

namespace Failure

def kind : Failure → String
  | emptyPattern .. => "MacroEmptyPatternError"
  | leadingCapture .. => "MacroLeadingCaptureError"
  | ruleFileMissing .. => "MacroFileNotFoundError"
  | ruleDirectoryMissing .. => "MacroDirectoryNotFoundError"
  | configurationMissing .. => "ConfigurationFileNotFoundError"
  | configurationInvalid .. => "ConfigurationFileInvalidError"
  | pluginMissing .. => "PluginNotFoundError"
  | pluginUnfit .. => "PluginInterfaceError"
  | inputMissing .. => "InputPathNotFoundError"
  | iterationLimit .. => "InvalidMaxIterationsError"
  | undocumented kind => kind

/-- The kind in kebab case between brackets. -/
def tag (failure : Failure) : String :=
  "[" ++ Text.kebab failure.kind ++ "]"

/-- Where a rule was defined. -/
def location : (file : Option String) → (line : Option Int) → String
  | none, _ => "'(in-memory)'"
  | some file, none => "'" ++ file ++ "'"
  | some file, some line => "'" ++ file ++ ":" ++ toString line ++ "'"

def explanation : Failure → String
  | emptyPattern file line =>
    "Macro defined at " ++ location file line ++ " has an empty pattern!\n\n" ++
      "Empty pattern cannot match anything, please specify at least one token to match."
  | leadingCapture pattern file line =>
    "Macro pattern `" ++ pattern ++ "` defined at " ++ location file line ++
      " starts with capture!\n\n" ++
      "Macros are looked up by their first pattern token, so pattern must begin with an " ++
      "literal token."
  | ruleFileMissing path =>
    "Macro file '" ++ path ++ "' not found!\n\n" ++
      "Did you mistype path to an macro definitions file (`.syn`)?"
  | ruleDirectoryMissing path => "Macro directory '" ++ path ++ "' not found!"
  | configurationMissing path => "Configuration file '" ++ path ++ "' not found!"
  | configurationInvalid path reason =>
    "Configuration file '" ++ path ++ "' is invalid: " ++ reason ++ "\n\n" ++
      "Configuration must be an TOML document with known keys, e.g:\n" ++
      "  macro_directories = [\"macros/\"]\n" ++
      "  max_iterations = 3"
  | pluginMissing plugin =>
    "Plugin '" ++ plugin ++ "' not found!\n\n" ++
      "Plugins are referenced by import path of their class, e.g `package.module:PluginClass`."
  | pluginUnfit plugin =>
    "Plugin '" ++ plugin ++ "' does not implement macro plugin interface!\n\n" ++
      "Plugin must provide `name`, `version`, `enabled` and `initialize`, `get_macros`, " ++
      "`get_metadata` methods."
  | inputMissing path => "Input file or directory '" ++ path ++ "' not found!"
  | iterationLimit value =>
    "Maximum iterations must be at least 1, got " ++ value ++ "!\n\n" ++
      "Transformer must perform at least one iteration to apply macros."
  | undocumented kind =>
    "Some internal error occurred (" ++ kind ++ "()), that is currently not documented"

/-- The full text shown for a failure; an undocumented one has no tag. -/
def message (failure : Failure) : String :=
  match failure with
  | undocumented _ => failure.explanation
  | _ => failure.explanation ++ "\n\n" ++ failure.tag

end Failure

end TokenMacros
