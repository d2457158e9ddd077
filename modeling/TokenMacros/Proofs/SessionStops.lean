import TokenMacros.Proofs.OutputNames
import TokenMacros.Proofs.PluginStops
import TokenMacros.Proofs.RefusedSettings

/-!
# Stopped sessions

What stops a run before it comes to its sources: reading its configuration, and
opening a session with the rules of files, directories and plugins.  Nothing of
this touches the files.
-/

namespace TokenMacros

variable {tree : FileTree} {path : Path}

/-! ## Configurations -/

/-- What stops the reading of a configuration file without an explanation. -/
inductive ConfigurationLapse (tree : FileTree) (path : Path) : Stop → Prop where
  /-- The file holds no text. -/
  | noText (noText : tree.HoldsNoText path) :
      ConfigurationLapse tree path (.undecodable path)
  | unreadable {bytes : ByteArray} {text : String} {stop : Stop}
      (held : tree.read path = .ok bytes)
      (decoded : Text.decode? bytes = some text)
      (unreadable : Configuration.Unreadable text stop) :
      ConfigurationLapse tree path stop

/-- The configuration of a run without overrides: that of a file, or the default
one. -/
inductive BasedOn (tree : FileTree) : Option Path → Configuration → Prop where
  | default : BasedOn tree none {}
  | file {path : Path} {bytes : ByteArray} {text : String} {base : Configuration}
      (held : tree.read path = .ok bytes)
      (decoded : Text.decode? bytes = some text)
      (parsed : Configuration.parse path text = .ok base) :
      BasedOn tree (some path) base

theorem Looks.loadConfiguration :
    Looks tree (Configuration.load path)
      (fun base => BasedOn tree (some path) base ∧ base.Converted)
      (ExplainedOr (ConfigurationLapse tree path)) := by
  apply Looks.bind (Looks.isFile fun _ => .inl)
  intro isThere told
  cases isThere with
  | false => exact Ends.throw (.inl rfl)
  | true =>
      have read : Looks tree (FileSystem.readText path)
          (fun text => ∃ bytes, tree.read path = .ok bytes ∧
            Text.decode? bytes = some text)
          (ExplainedOr (ConfigurationLapse tree path)) := by
        apply (Looks.readText (told rfl)).mono fun _ => id
        rintro _ ⟨rfl, noText⟩
        exact .inr (.noText noText)
      apply Looks.bind read
      rintro text ⟨bytes, held, decoded⟩
      apply Looks.mk_pure
      apply (Configuration.parse_yields path text).attach.mono
      · rintro base ⟨parsed, converted⟩
        exact ⟨.file held decoded parsed, converted⟩
      · exact fun _ known => known.mono fun _ => .unreadable held decoded

/-- The configuration of a file or the default one, with what a command line
overrides. -/
theorem Looks.configuration {file : Option Path} {overrides : Overrides}
    (plain : overrides.OfCommand) :
    Looks tree (CommandLine.configuration file overrides)
      (fun configuration => configuration.Converted ∧
        ∃ base, BasedOn tree file base ∧ overrides.merge base = .ok configuration)
      (ExplainedOr fun stop => ∃ path ∈ file, ConfigurationLapse tree path stop) := by
  have merged (base : Configuration)
      (based : BasedOn tree file base ∧ base.Converted) :
      Looks tree (ExceptT.mk (Pure.pure (overrides.merge base)))
        (fun configuration => configuration.Converted ∧
          ∃ base, BasedOn tree file base ∧
            overrides.merge base = .ok configuration)
        (ExplainedOr fun stop =>
          ∃ path ∈ file, ConfigurationLapse tree path stop) := by
    apply Looks.mk_pure
    apply (Overrides.merge_yields plain based.2).attach.mono
    · rintro configuration ⟨merged, converted⟩
      exact ⟨converted, base, based.1, merged⟩
    · exact fun _ => False.elim
  cases file with
  | none =>
      apply merged
      exact ⟨.default, Configuration.converted_default⟩
  | some path =>
      have loaded : Looks tree (Configuration.load path)
          (fun base => BasedOn tree (some path) base ∧ base.Converted)
          (ExplainedOr fun stop =>
            ∃ path' ∈ some path, ConfigurationLapse tree path' stop) := by
        apply Looks.loadConfiguration.mono fun _ => id
        exact fun _ known => known.mono fun _ lapse => ⟨path, rfl, lapse⟩
      exact Looks.bind loaded merged

/-! ## Rules of files and directories -/

/-- A loader leaves the tree alone, unless it is stopped. -/
def Loads (tree : FileTree)
    (load : StateM Workbench (Except Stop Nat × RuleBook)) (stops : Stop → Prop) :
    Prop :=
  Guarantees (· = tree) load fun answer after =>
    Yields (fun _ => after = tree) stops answer.1

namespace Loads

variable {α : Type} {told : α → Prop} {stops stops' : Stop → Prop}

theorem pure {result : Except Stop Nat} {book : RuleBook}
    (yields : Yields (fun _ => True) stops result) :
    Loads tree (Pure.pure (result, book)) stops :=
  Guarantees.pure fun _ same => yields.mono (fun _ _ => same) fun _ => id

theorem mono {load : StateM Workbench (Except Stop Nat × RuleBook)}
    (loads : Loads tree load stops) (allowed : ∀ stop, stops stop → stops' stop) :
    Loads tree load stops' :=
  Guarantees.mono loads (fun _ same => same)
    fun _ _ yields => yields.mono (fun _ => id) allowed

end Loads

/-- A file that rules are read from holds no text. -/
inductive RuleFileLapse (tree : FileTree) (paths : Path → Prop) : Stop → Prop where
  | noText {path : Path} (listed : paths path)
      (noText : tree.HoldsNoText path) :
      RuleFileLapse tree paths (.undecodable path)

namespace RuleBook

variable {paths : Path → Prop}

/-- A path to what is named like a definition file in a directory. -/
def IsDefinitionIn (directory path : Path) : Prop :=
  ∃ name, isDefinitionName name = true ∧ path = directory.join ⟨"", [name]⟩

end RuleBook

namespace Session

end Session

/-! ## Sessions -/

/-- Rules are read from the path: it is listed, or it leads to what is named like
a definition file in a listed directory. -/
def Configuration.ListsRules (configuration : Configuration) (path : Path) :
    Prop :=
  path ∈ configuration.macroFiles ∨
    ∃ directory ∈ configuration.macroDirectories,
      RuleBook.IsDefinitionIn directory path

/-- What stops the opening of a session without an explanation. -/
inductive SessionLapse (code : PluginCode) (configuration : Configuration)
    (tree : FileTree) : Stop → Prop where
  | plugins {settings : Entries} {stop : Stop}
      (settled : configuration.pluginSettings = .table settings)
      (lapse : code.Lapse configuration.plugins settings stop) :
      SessionLapse code configuration tree stop
  /-- A file that rules are read from holds no text. -/
  | ruleFile {stop : Stop}
      (lapse : RuleFileLapse tree configuration.ListsRules stop) :
      SessionLapse code configuration tree stop

namespace Session

variable {code : PluginCode}

end Session

end TokenMacros
