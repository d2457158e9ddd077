import TokenMacros.Expansion.Run
import TokenMacros.Settings.Toml.Document

/-!
# Configuration

Where rules come from and how far expansion goes.  A configuration is read from
a TOML file, whose relative paths are meant from the directory of the file, and
overrides are merged into it: lists are appended, other values replaced, and
what is empty or false is passed over.
-/

namespace TokenMacros

/-- The settings of a session.  Settings that are not lists keep the kind of
value they were given and are judged where they are used. -/
structure Configuration where
  macroDirectories : List Path := []
  macroFiles : List Path := []
  plugins : List String := []
  /-- Settings of plugins, by plugin name. -/
  pluginSettings : Value := .table []
  verbose : Value := .boolean false
  maxIterations : Value := .integer defaultMaxIterations
  singleTokenFallback : Value := .boolean false
  deriving Repr, BEq

namespace Configuration

def isVerbose (configuration : Configuration) : Bool :=
  configuration.verbose.truth

def limits (configuration : Configuration) : Except Stop Limits := do
  let rounds ←
    match configuration.maxIterations with
    | .integer value => pure value
    | .boolean value => pure (if value then 1 else 0)
    | value =>
      throw (.wrongKind ("an iteration limit is a whole number, not a " ++ value.kindName))
  match Limits.ofInt? rounds configuration.singleTokenFallback.truth with
  | some limits => return limits
  | none =>
    let shown :=
      match configuration.maxIterations with
      | .boolean _ => "False"
      | _ => toString rounds
    throw (.failed (.iterationLimit shown))

/-- The keys that a configuration file may have. -/
def knownKeys : List String :=
  ["macro_directories", "macro_files", "plugins", "plugin_settings", "verbose",
   "max_iterations", "legacy_single_token_fallback"]

/-- The texts of a list setting. -/
def textsOf (document : Toml.Table) (key : String) :
    Except Stop (List String) :=
  let refused : Except Stop (List String) :=
    .error (.wrongKind ("`" ++ key ++ "` must be an list of str"))
  match document.entry? key with
  | none => .ok []
  | some (.list items) =>
    let texts := items.filterMap fun
      | .text item => some item
      | _ => none
    if texts.length = items.length then .ok texts else refused
  | some _ => refused

/-- The configuration that a document describes, for a file in the directory
`base`. -/
def ofDocument (base : Path) (document : Toml.Table) :
    Except Stop Configuration := do
  let below (texts : List String) : List Path := texts.map fun text => base.join (.ofString text)
  let macroDirectories := below (← textsOf document "macro_directories")
  let macroFiles := below (← textsOf document "macro_files")
  let plugins ← textsOf document "plugins"
  let pluginSettings ← ((document.entry? "plugin_settings").getD (.table [])).toTable
  let verbose := ((document.entry? "verbose").getD (.boolean false)).truth
  let maxIterations ←
    ((document.entry? "max_iterations").getD (.integer defaultMaxIterations)).toWhole
  let fallback := ((document.entry? "legacy_single_token_fallback").getD (.boolean false)).truth
  return {
    macroDirectories := macroDirectories
    macroFiles := macroFiles
    plugins := plugins
    pluginSettings := .table pluginSettings
    verbose := .boolean verbose
    maxIterations := .integer maxIterations
    singleTokenFallback := .boolean fallback }

/-- The keys of a document that no configuration has, sorted. -/
def unknownKeys (document : Toml.Table) : List String :=
  (document.names.filter fun key => !knownKeys.contains key).mergeSort
    fun left right => decide (left ≤ right)

def reason? : Stop → Option String
  | .wrongKind reason => some reason
  | .wrongValue reason => some reason
  | _ => none

/-- Reads the text of a configuration file.  Every failure of a conversion is a
failure of the file, except that an infinite number stops the run. -/
def parse (path : Path) (text : String) : Except Stop Configuration := do
  let invalid (reason : String) : Stop := .failed (.configurationInvalid path.toString reason)
  let document ←
    match Toml.parse text with
    | .ok document => pure document
    | .error .malformed => throw (invalid Toml.malformedMessage)
    | .error .tooManyDigits => throw (.wrongValue Toml.tooManyDigitsMessage)
  match unknownKeys document with
  | [] => pure ()
  | unknown => throw (invalid ("unknown keys " ++ String.intercalate ", " unknown))
  let configuration ←
    (ofDocument path.parent document).mapError fun stop => ((reason? stop).map invalid).getD stop
  match configuration.maxIterations with
  | .integer rounds =>
    if rounds < 1 then
      throw (invalid ("`max_iterations` must be at least 1, got " ++ toString rounds))
    else return configuration
  | _ => return configuration

def load {m : Type → Type} [Monad m] [FileSystem m] (path : Path) :
    Run m Configuration := do
  if !(← FileSystem.isFile path) then throw (.failed (.configurationMissing path.toString))
  let text ← FileSystem.readText path
  ExceptT.mk (pure (parse path text))

end Configuration

/-- Values that override settings; what is absent overrides nothing. -/
structure Overrides where
  macroDirectories : Option (List Path) := none
  macroFiles : Option (List Path) := none
  plugins : Option (List String) := none
  pluginSettings : Option Value := none
  verbose : Option Value := none
  maxIterations : Option Value := none
  singleTokenFallback : Option Value := none
  deriving Repr, BEq

namespace Overrides

/-- A setting under an override.  Absent, empty and false overrides are passed
over. -/
def value (current : Value) : Option Value → Except Stop Value
  | none => .ok current
  | some .null => .ok current
  | some (.boolean false) => .ok current
  | some (.list []) => .ok current
  | some (.list items) =>
    match current.elements? with
    | some elements => .ok (.list (elements ++ items))
    | none =>
      .error (.wrongKind ("nothing can be appended to a " ++ current.kindName))
  | some value => .ok value

/-- Merges overrides into a configuration. -/
def merge (overrides : Overrides) (configuration : Configuration) :
    Except Stop Configuration := do
  let macroDirectories :=
    configuration.macroDirectories ++ overrides.macroDirectories.getD []
  let macroFiles := configuration.macroFiles ++ overrides.macroFiles.getD []
  let plugins := configuration.plugins ++ overrides.plugins.getD []
  let pluginSettings ← value configuration.pluginSettings overrides.pluginSettings
  let verbose ← value configuration.verbose overrides.verbose
  let maxIterations ← value configuration.maxIterations overrides.maxIterations
  let singleTokenFallback ← value configuration.singleTokenFallback overrides.singleTokenFallback
  return {
    macroDirectories := macroDirectories
    macroFiles := macroFiles
    plugins := plugins
    pluginSettings := pluginSettings
    verbose := verbose
    maxIterations := maxIterations
    singleTokenFallback := singleTokenFallback }

end Overrides

end TokenMacros
