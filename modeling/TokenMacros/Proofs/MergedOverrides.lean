import TokenMacros.Proofs.PartialResults
import TokenMacros.Settings.Configuration

/-!
# Merged overrides

What a configuration is after overrides have been merged into it one after the
other.  Lists grow by all lists that are given, in order; any other setting is
the last value given for it, where null and false are no values.  A setting
depends on what is given for it and on nothing else.
-/

namespace TokenMacros

namespace Value

/-- The value replaces a setting: it is neither null nor false. -/
def replaces : Value → Bool
  | null => false
  | boolean value => value
  | _ => true

def isList : Value → Bool
  | list _ => true
  | _ => false

end Value

/-- The last of the given values that replaces the current one. -/
def lastGiven (current : Value) (given : List (Option Value)) : Value :=
  ((given.filterMap id).filter Value.replaces).getLast?.getD current

theorem lastGiven_cons (current : Value) (first : Option Value)
    (rest : List (Option Value)) :
    lastGiven current (first :: rest) =
      lastGiven (lastGiven current [first]) rest := by
  have later (value : Value) (values : List Value) :
      (value :: values).getLast?.getD current = values.getLast?.getD value := by
    rw [List.getLast?_cons]
    rfl
  cases first with
  | none => rfl
  | some value =>
      cases replaces : value.replaces with
      | true => simp [lastGiven, replaces, later]
      | false => simp [lastGiven, replaces]

namespace Overrides

/-- Lists are given only for settings that are lists. -/
structure IsPlain (overrides : Overrides) : Prop where
  pluginSettings : ∀ value ∈ overrides.pluginSettings, value.isList = false
  verbose : ∀ value ∈ overrides.verbose, value.isList = false
  maxIterations : ∀ value ∈ overrides.maxIterations, value.isList = false
  singleTokenFallback :
    ∀ value ∈ overrides.singleTokenFallback, value.isList = false

theorem value_eq_lastGiven {given : Option Value}
    (plain : ∀ value ∈ given, value.isList = false) (current : Value) :
    value current given = .ok (lastGiven current [given]) := by
  cases given with
  | none => rfl
  | some given =>
      have noList := plain given rfl
      cases given with
      | boolean wanted =>
          cases wanted with
          | true => rfl
          | false => rfl
      | list items => cases noList
      | _ => rfl

end Overrides

/-- The configuration with overrides merged into it, one after the other. -/
def Configuration.overriddenBy (base : Configuration)
    (overrides : List Overrides) : Configuration where
  macroDirectories :=
    base.macroDirectories ++ overrides.flatMap (·.macroDirectories.getD [])
  macroFiles := base.macroFiles ++ overrides.flatMap (·.macroFiles.getD [])
  plugins := base.plugins ++ overrides.flatMap (·.plugins.getD [])
  pluginSettings := lastGiven base.pluginSettings (overrides.map (·.pluginSettings))
  verbose := lastGiven base.verbose (overrides.map (·.verbose))
  maxIterations := lastGiven base.maxIterations (overrides.map (·.maxIterations))
  singleTokenFallback :=
    lastGiven base.singleTokenFallback (overrides.map (·.singleTokenFallback))

namespace Configuration

theorem overriddenBy_nil (base : Configuration) : base.overriddenBy [] = base := by
  simp [overriddenBy, lastGiven]

theorem overriddenBy_cons (base : Configuration) (first : Overrides)
    (rest : List Overrides) :
    base.overriddenBy (first :: rest) =
      (base.overriddenBy [first]).overriddenBy rest := by
  simp only [overriddenBy, List.map_cons, List.map_nil, List.flatMap_cons,
    List.flatMap_nil, List.append_nil, List.append_assoc, mk.injEq, true_and]
  refine ⟨?_, ?_, ?_, ?_⟩
  · exact lastGiven_cons _ _ _
  · exact lastGiven_cons _ _ _
  · exact lastGiven_cons _ _ _
  · exact lastGiven_cons _ _ _

end Configuration

namespace Overrides

theorem merge_eq {overrides : Overrides} (plain : overrides.IsPlain)
    (base : Configuration) :
    overrides.merge base = .ok (base.overriddenBy [overrides]) := by
  rw [merge, value_eq_lastGiven plain.pluginSettings,
    value_eq_lastGiven plain.verbose, value_eq_lastGiven plain.maxIterations,
    value_eq_lastGiven plain.singleTokenFallback]
  simp [Configuration.overriddenBy, pure, Except.pure, bind, Except.bind]

/-- Merges overrides one after the other. -/
def mergeAll (overrides : List Overrides) (base : Configuration) :
    Except Stop Configuration :=
  overrides.foldlM (fun configuration overrides => overrides.merge configuration)
    base

theorem mergeAll_eq {overrides : List Overrides}
    (plain : ∀ each ∈ overrides, each.IsPlain) (base : Configuration) :
    mergeAll overrides base = .ok (base.overriddenBy overrides) := by
  induction overrides generalizing base with
  | nil => rw [base.overriddenBy_nil]; rfl
  | cons first rest induction =>
      rw [List.forall_mem_cons] at plain
      rw [mergeAll, List.foldlM_cons, merge_eq plain.1,
        base.overriddenBy_cons first rest]
      exact induction plain.2 _

end Overrides

/-! ## Settings one by one -/

/-- The settings of a configuration. -/
inductive Setting where
  | macroDirectories
  | macroFiles
  | plugins
  | pluginSettings
  | verbose
  | maxIterations
  | singleTokenFallback
  deriving Repr, DecidableEq

/-- The settings in the order in which they are merged. -/
def Setting.all : List Setting :=
  [macroDirectories, macroFiles, plugins, pluginSettings, verbose, maxIterations,
   singleTokenFallback]

theorem Setting.mem_all (setting : Setting) : setting ∈ all := by
  cases setting with
  | _ => decide

/-- An item of a setting that is a list. -/
inductive SettingItem where
  | path (path : Path)
  | text (text : String)
  deriving Repr, DecidableEq

/-- What a setting holds. -/
inductive Content where
  | list (items : List SettingItem)
  | plain (value : Value)

namespace Content

/-- The content of a setting for which something may be given. -/
def overriddenBy : Content → Option Content → Content
  | current, none => current
  | current, some (.plain value) =>
    if value.replaces then .plain value else current
  | .list held, some (.list items) => .list (held ++ items)
  | .plain value, some (.list _) => .plain value

/-- A list is given only for a list. -/
def Takes (current : Content) (given? : Option Content) : Prop :=
  ∀ items, given? = some (.list items) → ∃ held, current = .list held

theorem overriddenBy_none (current : Content) :
    current.overriddenBy none = current := by
  cases current with
  | list _ => rfl
  | plain _ => rfl

theorem overriddenBy_plain_some (current : Content) (value : Value) :
    current.overriddenBy (some (.plain value)) =
      if value.replaces then .plain value else current := by
  cases current with
  | list _ => rfl
  | plain _ => rfl

theorem overriddenBy_list_some (held items : List SettingItem) :
    (list held).overriddenBy (some (.list items)) = .list (held ++ items) := rfl

end Content

def Configuration.content (configuration : Configuration) : Setting → Content
  | .macroDirectories => .list (configuration.macroDirectories.map .path)
  | .macroFiles => .list (configuration.macroFiles.map .path)
  | .plugins => .list (configuration.plugins.map .text)
  | .pluginSettings => .plain configuration.pluginSettings
  | .verbose => .plain configuration.verbose
  | .maxIterations => .plain configuration.maxIterations
  | .singleTokenFallback => .plain configuration.singleTokenFallback

def Overrides.content? (overrides : Overrides) : Setting → Option Content
  | .macroDirectories => overrides.macroDirectories.map (.list <| ·.map .path)
  | .macroFiles => overrides.macroFiles.map (.list <| ·.map .path)
  | .plugins => overrides.plugins.map (.list <| ·.map .text)
  | .pluginSettings => overrides.pluginSettings.map .plain
  | .verbose => overrides.verbose.map .plain
  | .maxIterations => overrides.maxIterations.map .plain
  | .singleTokenFallback => overrides.singleTokenFallback.map .plain

theorem Configuration.content_takes (configuration : Configuration)
    (overrides : Overrides) (setting : Setting) :
    (configuration.content setting).Takes (overrides.content? setting) := by
  intro items given
  cases setting with
  | macroDirectories => exact ⟨_, rfl⟩
  | macroFiles => exact ⟨_, rfl⟩
  | plugins => exact ⟨_, rfl⟩
  | _ =>
      obtain ⟨value, _, same⟩ := Option.map_eq_some_iff.mp given
      cases same

theorem Content.overriddenBy_list {α : Type} (item : α → SettingItem)
    (held : List α) (given : Option (List α)) :
    (list (held.map item)).overriddenBy (given.map (.list <| ·.map item)) =
      .list ((held ++ given.getD []).map item) := by
  cases given with
  | none => simp [overriddenBy]
  | some items => simp [overriddenBy]

theorem Content.overriddenBy_plain (current : Value) (given : Option Value) :
    (plain current).overriddenBy (given.map .plain) =
      .plain (lastGiven current [given]) := by
  cases given with
  | none => rfl
  | some value =>
      cases replaces : value.replaces with
      | true => simp [overriddenBy, lastGiven, replaces]
      | false => simp [overriddenBy, lastGiven, replaces]

namespace Configuration

theorem content_overriddenBy_singleton (base : Configuration)
    (overrides : Overrides) (setting : Setting) :
    (base.overriddenBy [overrides]).content setting =
      (base.content setting).overriddenBy (overrides.content? setting) := by
  cases setting with
  | macroDirectories =>
      simp only [content, overriddenBy, List.flatMap_singleton]
      exact (Content.overriddenBy_list _ _ _).symm
  | macroFiles =>
      simp only [content, overriddenBy, List.flatMap_singleton]
      exact (Content.overriddenBy_list _ _ _).symm
  | plugins =>
      simp only [content, overriddenBy, List.flatMap_singleton]
      exact (Content.overriddenBy_list _ _ _).symm
  | pluginSettings => exact (Content.overriddenBy_plain _ _).symm
  | verbose => exact (Content.overriddenBy_plain _ _).symm
  | maxIterations => exact (Content.overriddenBy_plain _ _).symm
  | singleTokenFallback => exact (Content.overriddenBy_plain _ _).symm

/-- A setting is told from what is given for it. -/
theorem content_overriddenBy (base : Configuration) (overrides : List Overrides)
    (setting : Setting) :
    (base.overriddenBy overrides).content setting =
      (overrides.map (·.content? setting)).foldl Content.overriddenBy
        (base.content setting) := by
  induction overrides generalizing base with
  | nil => rw [overriddenBy_nil]; rfl
  | cons first rest induction =>
      rw [overriddenBy_cons, induction, content_overriddenBy_singleton]
      rfl

end Configuration

end TokenMacros
