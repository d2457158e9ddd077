import TokenMacros.Rule.Basic
import TokenMacros.Settings.Value

/-!
# Plugins

A plugin supplies rules to a session under a name of its own.  It is an object
of foreign code, which is found by an import path; nothing is known of it but
what it can be asked for.  A board holds the plugins of a session, one for each
name, in the order in which the names first came.
-/

namespace TokenMacros

/-- The code that plugins come from.  Whatever is asked of it, it may look at a
world of its own, change this world, and stop the run with what it raises. -/
structure PluginCode where
  World : Type
  Module : Type
  Class : Type
  Object : Type
  /-- Imports the module of a name. -/
  load : String → Run (StateM World) Module
  /-- The class that a module has under a name, if it has one. -/
  class? : Module → String → Run (StateM World) (Option Class)
  /-- Makes an object of a class. -/
  make : Class → Run (StateM World) Object
  /-- The object has all that plugins must have. -/
  isPlugin : Object → Run (StateM World) Bool
  name : Object → Run (StateM World) String
  version : Object → Run (StateM World) String
  isEnabled : Object → Run (StateM World) Bool
  configure : Object → Value → Run (StateM World) Unit
  rules : Object → Run (StateM World) (List Rule)
  /-- What a plugin tells about itself. -/
  description : Object → Run (StateM World) Entries

/-- A computation of foreign code. -/
abbrev PluginRun (code : PluginCode) := Run (StateM code.World)

/-- Module and class of an import path: before and behind the first colon, or
else the last dot. -/
def splitImportPath (path : List Char) : List Char × List Char :=
  if path.contains ':' then
    (path.takeWhile (· != ':'), (path.dropWhile (· != ':')).drop 1)
  else
    let reversed := path.reverse
    let last := reversed.takeWhile (· != '.')
    ((reversed.drop (last.length + 1)).reverse, last.reverse)

/-- What stops the run if a module is named relative to another one. -/
def relativeModule (name : List Char) : Stop :=
  .wrongKind ("the 'package' argument is required to perform a relative import for " ++
    String.ofList (Text.quoted name))

namespace PluginCode

variable {code : PluginCode}

/-- The class that an import path leads to. -/
def importClass (path : String) : PluginRun code code.Class := do
  let missing : Stop := .failed (.pluginMissing path)
  let (moduleName, className) := splitImportPath path.toList
  if moduleName.isEmpty || className.isEmpty then throw missing
  if moduleName.head? == some '.' then throw (relativeModule moduleName)
  let unexplained : Stop → Stop
    | .unimportable _ => missing
    | stop => stop
  let found ← (code.load (String.ofList moduleName)).adapt unexplained
  match ← code.class? found (String.ofList className) with
  | some found => return found
  | none => throw missing

/-- Makes an object of the class that an import path leads to.  It must be a
plugin. -/
def produce (path : String) : PluginRun code code.Object := do
  let unfit : Stop := .failed (.pluginUnfit path)
  let found ← importClass path
  let unexplained : Stop → Stop
    | .wrongKind _ => unfit
    | stop => stop
  let object ← (code.make found).adapt unexplained
  if !(← code.isPlugin object) then throw unfit
  return object

/-- The rules of a plugin, if it is enabled. -/
def offered (object : code.Object) : PluginRun code (List Rule) := do
  if ← code.isEnabled object then code.rules object
  else return []

end PluginCode

/-- The plugins of a session by name. -/
structure PluginBoard (Object : Type) where
  entries : List (String × Object) := []
  deriving Repr, BEq

namespace PluginBoard

variable {Object : Type}

/-- Puts an object on the board.  It takes the place of the one that has the
name. -/
def insert (board : PluginBoard Object) (name : String) (object : Object) :
    PluginBoard Object :=
  if board.entries.any (·.1 == name) then
    ⟨board.entries.map fun held => if held.1 == name then (name, object) else held⟩
  else ⟨board.entries ++ [(name, object)]⟩

def find? (board : PluginBoard Object) (name : String) : Option Object :=
  board.entries.lookup name

def names (board : PluginBoard Object) : List String :=
  board.entries.map (·.1)

end PluginBoard

/-- A board, and the world that the plugins on it live in. -/
structure PluginHost (code : PluginCode) where
  board : PluginBoard code.Object := {}
  world : code.World

/-- A computation on a host.  What it did to the host before it is stopped stays
done. -/
abbrev Hosted (code : PluginCode) := Run (StateM (PluginHost code))

namespace PluginHost

variable {code : PluginCode} {α : Type}

/-- Runs foreign code.  It does not see the board. -/
def foreign (asked : PluginRun code α) : Hosted code α :=
  ExceptT.mk fun host =>
    let (answer, world) := asked.run.run host.world
    (answer, { host with world := world })

/-- Registers an object under the name that it has now. -/
def insert (object : code.Object) : Hosted code Unit := do
  let name ← foreign (code.name object)
  modify fun host => { host with board := host.board.insert name object }

/-- Registers a plugin by its import path. -/
def register (path : String) : Hosted code code.Object := do
  let object ← foreign (PluginCode.produce path)
  insert object
  return object

/-- Configures plugins one after the other, each with the settings under its
name or with none. -/
def configureEach (settings : Entries) :
    List (String × code.Object) → Hosted code Unit
  | [] => return ()
  | (name, object) :: plugins => do
    foreign (code.configure object ((settings.entry? name).getD (.table [])))
    configureEach settings plugins

def configure (settings : Value) : Hosted code Unit := do
  let plugins := (← get).board.entries
  if !settings.truth then configureEach [] plugins
  else
    match settings with
    | .table entries => configureEach entries plugins
    | _ =>
      if plugins.isEmpty then return ()
      else throw (.noTable ("'" ++ settings.kindName ++ "' object has no attribute 'get'"))

/-- The rules of all enabled plugins, in order. -/
def rules : Hosted code (List Rule) := do
  let plugins := (← get).board.entries
  return (← plugins.mapM fun plugin => foreign (PluginCode.offered plugin.2)).flatten

/-- The rules of the plugin of a name, if it is there and enabled. -/
def rulesOf (name : String) : Hosted code (List Rule) := do
  match (← get).board.find? name with
  | some object => foreign (PluginCode.offered object)
  | none => return []

def clear : Hosted code Unit :=
  modify fun host => { host with board := {} }

structure Profile where
  name : String
  version : String
  enabled : Bool
  ruleCount : Nat
  description : Entries
  deriving Repr, BEq

/-- The profile of a plugin.  It is asked for its rules even if it is disabled.
-/
def profile (object : code.Object) : PluginRun code Profile := do
  return {
    name := ← code.name object
    version := ← code.version object
    enabled := ← code.isEnabled object
    ruleCount := (← code.rules object).length
    description := ← code.description object }

/-- Profiles of all plugins, by the names under which they are held. -/
def profiles : Hosted code (List (String × Profile)) := do
  let plugins := (← get).board.entries
  plugins.mapM fun (name, object) => return (name, ← foreign (profile object))

/-- A run that asks the plugins of a host. -/
def consult {m : Type → Type} [Monad m] (host : PluginHost code)
    (asked : Hosted code α) : Run m (α × PluginHost code) :=
  let (answer, host) := asked.run.run host
  ExceptT.mk (pure (answer.map fun answer => (answer, host)))

end PluginHost

end TokenMacros
