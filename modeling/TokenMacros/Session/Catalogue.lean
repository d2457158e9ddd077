import TokenMacros.Session.Plugin

/-!
# Catalogues

Plugins that are written down as data: a plugin keeps its settings, one of which
may enable or disable it, and defines the same rules each time.  A catalogue says
what there is to import.
-/

namespace TokenMacros

/-- What a plugin answers when it is asked for its rules. -/
inductive RuleSupply where
  /-- Rules that are defined anew each time. -/
  | sources (sources : List RuleSource)
  /-- The plugin stops the run. -/
  | stops (stop : Stop)
  deriving Repr, DecidableEq

structure Plugin where
  name : String
  version : String := "1.0"
  enabled : Bool := true
  supply : RuleSupply := .sources []
  metadata : Entries := []
  /-- What it was configured with last. -/
  settings? : Option Entries := none
  deriving Repr, BEq

namespace Plugin

/-- Takes settings.  One of them may enable or disable the plugin. -/
def configure (plugin : Plugin) (settings : Entries) : Plugin :=
  { plugin with
    settings? := some settings
    enabled := ((settings.entry? "enabled").map Value.truth).getD plugin.enabled }

def rules (plugin : Plugin) : Except Stop (List Rule) :=
  match plugin.supply with
  | .sources sources => (sources.mapM Rule.define).mapError .failed
  | .stops stop => .error stop

/-- The settings of the plugin first, then what else it has to say. -/
def description (plugin : Plugin) : Entries :=
  plugin.metadata.foldl (fun entries (key, value) => entries.set key value)
    [(.text "settings", plugin.settings?.elim .null .table)]

end Plugin

/-- What objects a class makes. -/
inductive PluginClass where
  /-- The given plugin. -/
  | plugin (plugin : Plugin)
  /-- None without arguments. -/
  | demanding
  /-- Objects that lack a part of what plugins have. -/
  | incomplete
  deriving Repr, BEq

/-- What can be imported, by module and name; not all of it are classes. -/
abbrev Catalogue := List (String × List (String × Option PluginClass))

namespace Catalogue

/-- The objects that were made so far; those that are no plugins hold nothing. -/
abbrev Made := List (Option Plugin)

def Made.plugin? (made : Made) (object : Nat) : Option Plugin :=
  made[object]?.join

/-- What is told of an object that is a plugin. -/
def tell {α : Type} (object : Nat) (told : Plugin → Except Stop α) :
    Run (StateM Made) α := do
  match (← get).plugin? object with
  | some plugin => ExceptT.mk (pure (told plugin))
  | none => throw (.raised "AttributeError" "the object is no plugin")

/-- The code behind a catalogue.  Objects are numbered as they are made. -/
def code (catalogue : Catalogue) : PluginCode where
  World := Made
  Module := List (String × Option PluginClass)
  Class := PluginClass
  Object := Nat
  load name :=
    match catalogue.lookup name with
    | some found => return found
    | none =>
      throw (.unimportable ("No module named " ++ String.ofList (Text.quoted name.toList)))
  class? found name := return (found.lookup name).join
  make
    | .plugin plugin => modifyGet fun made => (made.length, made ++ [some plugin])
    | .incomplete => modifyGet fun made => (made.length, made ++ [none])
    | .demanding => throw (.wrongKind "missing 1 required positional argument: 'value'")
  isPlugin object := return ((← get).plugin? object).isSome
  name object := tell object (.ok ·.name)
  version object := tell object (.ok ·.version)
  isEnabled object := tell object (.ok ·.enabled)
  configure object settings := do
    let entries ← ExceptT.mk (pure settings.toTable)
    modify fun made => made.modify object (·.map (·.configure entries))
  rules object := tell object Plugin.rules
  description object := tell object (.ok ·.description)

end Catalogue

end TokenMacros
