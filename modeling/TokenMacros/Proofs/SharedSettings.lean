import Mathlib.Data.List.Forall2
import Mathlib.Data.List.Infix
import Mathlib.Logic.Function.Basic
import TokenMacros.Proofs.MergedOverrides

/-!
# Shared settings

Merging where it happens: objects have settings, and a setting that is a list
refers to it by an address, so that several objects may share one list.  Merging
changes the configuration in place.  It does to the configuration what merging
of values does, and it changes nothing else: a longer list is a new list.
-/

namespace TokenMacros

/-- What a setting of an object is: a value, or a reference to a list. -/
inductive Slot where
  | plain (value : Value)
  | list (address : Nat)

/-- Lists by address, and objects with their settings. -/
structure Memory where
  lists : List (List SettingItem) := []
  objects : Nat → Setting → Option Slot := fun _ _ => none

namespace Memory

/-- Sets a setting of an object. -/
def assign (memory : Memory) (object : Nat) (setting : Setting) (slot : Slot) :
    Memory :=
  { memory with
    objects := Function.update memory.objects object
      (Function.update (memory.objects object) setting (some slot)) }

/-- Stores a new list. -/
def allocate (memory : Memory) (items : List SettingItem) : Nat × Memory :=
  (memory.lists.length, { memory with lists := memory.lists ++ [items] })

/-- The list that a setting of an object refers to. -/
def listOf? (memory : Memory) (object : Nat) (setting : Setting) :
    Option (List SettingItem) :=
  match memory.objects object setting with
  | some (.list address) => memory.lists[address]?
  | _ => none

/-- Merges one setting of an object into the configuration.  There is no result
if a list is missing. -/
def mergeSetting (target source : Nat) (memory : Memory) (setting : Setting) :
    Option Memory :=
  match memory.objects source setting with
  | none => some memory
  | some (.plain value) =>
    if value.replaces then some (memory.assign target setting (.plain value))
    else some memory
  | some (.list address) => do
    let items ← memory.lists[address]?
    if items.isEmpty then return memory
    let held ← memory.listOf? target setting
    let (fresh, memory) := memory.allocate (held ++ items)
    return memory.assign target setting (.list fresh)

/-- Merges an object into the configuration. -/
def merge (target : Nat) (memory : Memory) (source : Nat) : Option Memory :=
  Setting.all.foldlM (mergeSetting target source) memory

/-- Merges objects into the configuration, one after the other. -/
def mergeAll (target : Nat) (memory : Memory) (sources : List Nat) :
    Option Memory :=
  sources.foldlM (merge target) memory

/-- The setting of the object has the content. -/
inductive Holds (memory : Memory) (object : Nat) (setting : Setting) :
    Content → Prop where
  | plain {value : Value}
      (slot : memory.objects object setting = some (.plain value)) :
      Holds memory object setting (.plain value)
  | list {address : Nat} {items : List SettingItem}
      (slot : memory.objects object setting = some (.list address))
      (stored : memory.lists[address]? = some items) :
      Holds memory object setting (.list items)

/-- The object gives the content for the setting.  It gives nothing if it has no
such setting, or null in its place. -/
def Gives (memory : Memory) (object : Nat) (setting : Setting) :
    Option Content → Prop
  | some content => memory.Holds object setting content
  | none => memory.objects object setting = none ∨
      memory.Holds object setting (.plain .null)

/-- The object is the configuration. -/
def ShowsConfiguration (memory : Memory) (object : Nat)
    (configuration : Configuration) : Prop :=
  ∀ setting, memory.Holds object setting (configuration.content setting)

/-- The object gives what the overrides do. -/
def ShowsOverrides (memory : Memory) (object : Nat) (overrides : Overrides) :
    Prop :=
  ∀ setting, memory.Gives object setting (overrides.content? setting)

/-- No list and no object but one is changed. -/
structure Keeps (target : Nat) (before after : Memory) : Prop where
  objects : ∀ object, object ≠ target → after.objects object = before.objects object
  lists : before.lists <+: after.lists

variable {memory before after : Memory} {object target source : Nat}
  {setting : Setting}

/-! ## What is kept -/

theorem Keeps.refl (target : Nat) (memory : Memory) : Keeps target memory memory :=
  ⟨fun _ _ => rfl, List.prefix_rfl⟩

theorem Keeps.trans {between : Memory} (first : Keeps target before between)
    (second : Keeps target between after) : Keeps target before after := by
  constructor
  · intro object other
    rw [second.objects object other, first.objects object other]
  · exact first.lists.trans second.lists

theorem keeps_assign (memory : Memory) (target : Nat) (setting : Setting)
    (slot : Slot) : Keeps target memory (memory.assign target setting slot) :=
  ⟨fun _ other => Function.update_of_ne other _ _, List.prefix_rfl⟩

theorem keeps_allocate (memory : Memory) (target : Nat)
    (items : List SettingItem) :
    Keeps target memory (memory.allocate items).2 :=
  ⟨fun _ _ => rfl, List.prefix_append _ _⟩

theorem objects_assign_self (memory : Memory) (target : Nat) (setting : Setting)
    (slot : Slot) :
    (memory.assign target setting slot).objects target setting = some slot := by
  simp [assign]

theorem objects_assign_of_ne (memory : Memory) (target : Nat)
    {setting other : Setting} (apart : other ≠ setting) (slot : Slot) :
    (memory.assign target setting slot).objects target other =
      memory.objects target other := by
  simp [assign, apart]

/-- Contents stay where slots do, since lists are only added. -/
theorem Holds.of_slot {content : Content} (holds : before.Holds object setting content)
    (lists : before.lists <+: after.lists)
    (slot : after.objects object setting = before.objects object setting) :
    after.Holds object setting content := by
  cases holds with
  | plain held => exact .plain (slot.trans held)
  | list held stored =>
      obtain ⟨inside, stored⟩ := List.getElem?_eq_some_iff.mp stored
      refine .list (slot.trans held) ?_
      rw [← stored]
      exact (List.prefix_iff_getElem?.mp lists) _ inside

theorem Gives.of_keeps {given? : Option Content}
    (gives : before.Gives source setting given?)
    (keeps : Keeps target before after) (other : source ≠ target) :
    after.Gives source setting given? := by
  have same : after.objects source setting = before.objects source setting :=
    congrFun (keeps.objects source other) setting
  cases given? with
  | some content => exact Holds.of_slot gives keeps.lists same
  | none =>
      rcases gives with absent | null
      · exact .inl (same.trans absent)
      · exact .inr (null.of_slot keeps.lists same)

/-! ## What is merged -/

theorem Holds.listOf? {items : List SettingItem}
    (holds : memory.Holds object setting (.list items)) :
    memory.listOf? object setting = some items := by
  cases holds with
  | list slot stored => rw [Memory.listOf?, slot]; exact stored

/-- Every setting of the configuration has its content, one of them a new one.
-/
theorem holds_assign {contents : Setting → Content} {slot : Slot}
    {content : Content}
    (holds : ∀ setting, memory.Holds target setting (contents setting))
    (new : (memory.assign target setting slot).Holds target setting content) :
    ∀ other, (memory.assign target setting slot).Holds target other
      (Function.update contents setting content other) := by
  intro other
  by_cases same : other = setting
  · subst same
    rw [Function.update_self]
    exact new
  · rw [Function.update_of_ne same]
    exact (holds other).of_slot List.prefix_rfl
      (objects_assign_of_ne memory target same slot)

theorem exists_mergeSetting {contents : Setting → Content}
    {given? : Option Content}
    (holds : ∀ setting, memory.Holds target setting (contents setting))
    (gives : memory.Gives source setting given?)
    (takes : (contents setting).Takes given?) :
    ∃ after, mergeSetting target source memory setting = some after ∧
      Keeps target memory after ∧
      ∀ other, after.Holds target other
        (Function.update contents setting
          ((contents setting).overriddenBy given?) other) := by
  have unchanged (same : (contents setting).overriddenBy given? = contents setting) :
      Keeps target memory memory ∧ ∀ other, memory.Holds target other
        (Function.update contents setting
          ((contents setting).overriddenBy given?) other) := by
    rw [same, Function.update_eq_self]
    exact ⟨Keeps.refl target memory, holds⟩
  unfold mergeSetting
  cases given? with
  | none =>
      refine ⟨memory, ?_, unchanged (Content.overriddenBy_none _)⟩
      rcases gives with absent | null
      · rw [absent]
      · cases null with
        | plain slot => rw [slot]; rfl
  | some content =>
      cases gives with
      | @plain value slot =>
          rw [slot]
          simp only
          cases replaces : value.replaces with
          | true =>
              rw [if_pos rfl]
              refine ⟨_, rfl, keeps_assign _ _ _ _, holds_assign holds ?_⟩
              rw [Content.overriddenBy_plain_some, if_pos replaces]
              exact .plain (objects_assign_self _ _ _ _)
          | false =>
              rw [if_neg Bool.false_ne_true]
              refine ⟨memory, rfl, unchanged ?_⟩
              rw [Content.overriddenBy_plain_some, replaces,
                if_neg Bool.false_ne_true]
      | @list address items slot stored =>
          obtain ⟨held, isList⟩ := takes items rfl
          have current := holds setting
          rw [isList] at current
          rw [slot]
          simp only [stored, Option.bind_eq_bind, Option.bind_some,
            current.listOf?]
          cases items with
          | nil =>
              refine ⟨memory, rfl, unchanged ?_⟩
              rw [isList, Content.overriddenBy_list_some, List.append_nil]
          | cons item items =>
              refine ⟨_, rfl,
                (keeps_allocate memory target _).trans (keeps_assign _ _ _ _), ?_⟩
              apply holds_assign
              · intro other
                exact (holds other).of_slot (List.prefix_append _ _) rfl
              · rw [isList, Content.overriddenBy_list_some]
                apply Holds.list (objects_assign_self _ _ _ _)
                exact List.getElem?_concat_length

theorem exists_mergeSettings {settings : List Setting} (distinct : settings.Nodup)
    (other : source ≠ target) {contents : Setting → Content}
    {given : Setting → Option Content}
    (holds : ∀ setting, memory.Holds target setting (contents setting))
    (gives : ∀ setting, memory.Gives source setting (given setting))
    (takes : ∀ setting ∈ settings, (contents setting).Takes (given setting)) :
    ∃ after, settings.foldlM (mergeSetting target source) memory = some after ∧
      Keeps target memory after ∧
      ∀ setting, after.Holds target setting
        (if setting ∈ settings then
          (contents setting).overriddenBy (given setting)
        else contents setting) := by
  induction settings generalizing memory contents with
  | nil =>
      refine ⟨memory, rfl, Keeps.refl target memory, ?_⟩
      intro setting
      rw [if_neg List.not_mem_nil]
      exact holds setting
  | cons first settings induction =>
      obtain ⟨fresh, distinct⟩ := List.nodup_cons.mp distinct
      rw [List.forall_mem_cons] at takes
      obtain ⟨between, merged, keeps, holds⟩ :=
        exists_mergeSetting holds (gives first) takes.1
      have takes : ∀ setting ∈ settings,
          (Function.update contents first
            ((contents first).overriddenBy (given first)) setting).Takes
              (given setting) := by
        intro setting member
        have apart : setting ≠ first := by
          rintro rfl
          exact fresh member
        rw [Function.update_of_ne apart]
        exact takes.2 setting member
      obtain ⟨after, mergedAll, keeps', holds⟩ := induction distinct holds
        (fun setting => (gives setting).of_keeps keeps other) takes
      refine ⟨after, ?_, keeps.trans keeps', ?_⟩
      · rw [List.foldlM_cons, merged]
        exact mergedAll
      · intro setting
        have content := holds setting
        by_cases same : setting = first
        · subst same
          rw [if_neg fresh, Function.update_self] at content
          rw [if_pos List.mem_cons_self]
          exact content
        · rw [Function.update_of_ne same] at content
          simpa only [List.mem_cons, same, false_or] using content

theorem exists_merge {base : Configuration} {overrides : Overrides}
    (isBase : memory.ShowsConfiguration target base)
    (gives : memory.ShowsOverrides source overrides) (other : source ≠ target) :
    ∃ after, memory.merge target source = some after ∧
      Keeps target memory after ∧
      after.ShowsConfiguration target (base.overriddenBy [overrides]) := by
  have distinct : Setting.all.Nodup := by decide
  obtain ⟨after, merged, keeps, holds⟩ := exists_mergeSettings distinct other
    isBase gives fun setting _ => base.content_takes overrides setting
  refine ⟨after, merged, keeps, ?_⟩
  intro setting
  rw [Configuration.content_overriddenBy_singleton]
  have content := holds setting
  rwa [if_pos setting.mem_all] at content

/-- Merging objects one after the other, in a memory that came from one in which
they give their overrides. -/
theorem exists_mergeAll {start : Memory} {base : Configuration}
    {sources : List Nat} {overrides : List Overrides}
    (keeps : Keeps target start memory) (others : target ∉ sources)
    (isBase : memory.ShowsConfiguration target base)
    (give : List.Forall₂ start.ShowsOverrides sources overrides) :
    ∃ after, memory.mergeAll target sources = some after ∧
      Keeps target start after ∧
      after.ShowsConfiguration target (base.overriddenBy overrides) := by
  induction give generalizing memory base with
  | nil =>
      refine ⟨memory, rfl, keeps, ?_⟩
      rw [Configuration.overriddenBy_nil]
      exact isBase
  | @cons source first sources rest gives _ induction =>
      rw [List.mem_cons, not_or] at others
      have gives : memory.ShowsOverrides source first :=
        fun setting => (gives setting).of_keeps keeps (Ne.symm others.1)
      obtain ⟨between, merged, keeps', isBase⟩ :=
        exists_merge isBase gives (Ne.symm others.1)
      obtain ⟨after, mergedAll, keepsAll, shows'⟩ :=
        induction (keeps.trans keeps') others.2 isBase
      refine ⟨after, ?_, keepsAll, ?_⟩
      · rw [mergeAll, List.foldlM_cons, merged]
        exact mergedAll
      · rw [Configuration.overriddenBy_cons]
        exact shows'

end Memory

/-- Merging overrides into a configuration, one after the other, gives the
configuration in which every list has grown by their lists and any other setting
is the last one that they give.  What they give for other settings makes no
difference to a setting.  The same is left of the configuration in a memory
where it and the overrides are objects that share lists, and there no other
object and no list is changed.  The configuration is none of the override objects,
as it would be changed by being merged into. -/
theorem mergeAll_closedForm {overrides : List Overrides}
    (plain : ∀ each ∈ overrides, each.IsPlain) (base : Configuration) :
    Overrides.mergeAll overrides base = .ok (base.overriddenBy overrides) ∧
    (∀ (base' : Configuration) (overrides' : List Overrides) (setting : Setting),
      base'.content setting = base.content setting →
      overrides'.map (·.content? setting) = overrides.map (·.content? setting) →
      (base'.overriddenBy overrides').content setting =
        (base.overriddenBy overrides).content setting) ∧
    ∀ (memory : Memory) (target : Nat) (sources : List Nat), target ∉ sources →
      memory.ShowsConfiguration target base →
      List.Forall₂ memory.ShowsOverrides sources overrides →
      ∃ after, memory.mergeAll target sources = some after ∧
        Memory.Keeps target memory after ∧
        after.ShowsConfiguration target (base.overriddenBy overrides) := by
  refine ⟨Overrides.mergeAll_eq plain base, ?_, ?_⟩
  · intro base' overrides' setting sameBase sameGiven
    rw [Configuration.content_overriddenBy, Configuration.content_overriddenBy,
      sameBase, sameGiven]
  · intro memory target sources others isBase give
    exact Memory.exists_mergeAll (.refl target memory) others isBase give

/-- A configuration, and two objects that override it.  The first one has the
rule directories of the configuration as its own; the second one has null and a
table without entries. -/
def sharedMemory : Memory where
  lists := [[.path ⟨"", ["macros"]⟩], [], [.text "plugins:Arrow"]]
  objects
    | 0 => fun
      | .macroDirectories => some (.list 0)
      | .macroFiles => some (.list 1)
      | .plugins => some (.list 1)
      | .pluginSettings => some (.plain (.table [(.text "arrow", .null)]))
      | .verbose => some (.plain (.boolean true))
      | .maxIterations => some (.plain (.integer 3))
      | .singleTokenFallback => some (.plain (.boolean false))
    | 1 => fun
      | .macroDirectories => some (.list 0)
      | .plugins => some (.list 2)
      | .verbose => some (.plain (.boolean false))
      | .maxIterations => some (.plain (.integer 0))
      | _ => none
    | 2 => fun
      | .macroDirectories => some (.plain .null)
      | .plugins => some (.list 2)
      | .pluginSettings => some (.plain (.table []))
      | .maxIterations => some (.plain .null)
      | _ => none
    | _ => fun _ => none

/-- The directories are doubled where they are those of the configuration, and
zero and an empty table count as values. -/
theorem mergeAll_closedForm_shared :
    let base : Configuration := {
      macroDirectories := [⟨"", ["macros"]⟩]
      pluginSettings := .table [(.text "arrow", .null)]
      verbose := .boolean true }
    let overrides : List Overrides := [
      { macroDirectories := some [⟨"", ["macros"]⟩],
        plugins := some ["plugins:Arrow"], verbose := some (.boolean false),
        maxIterations := some (.integer 0) },
      { plugins := some ["plugins:Arrow"], pluginSettings := some (.table []),
        maxIterations := some .null }]
    let merged : Configuration := {
      macroDirectories := [⟨"", ["macros"]⟩, ⟨"", ["macros"]⟩]
      plugins := ["plugins:Arrow", "plugins:Arrow"]
      pluginSettings := .table []
      verbose := .boolean true
      maxIterations := .integer 0 }
    (∀ each ∈ overrides, each.IsPlain) ∧
      sharedMemory.ShowsConfiguration 0 base ∧
      List.Forall₂ sharedMemory.ShowsOverrides [1, 2] overrides ∧
      Overrides.mergeAll overrides base = .ok merged ∧
      ∃ after, sharedMemory.mergeAll 0 [1, 2] = some after ∧
        Memory.Keeps 0 sharedMemory after ∧ after.ShowsConfiguration 0 merged := by
  intro base overrides merged
  have plain : ∀ each ∈ overrides, each.IsPlain := by
    intro each member
    rw [List.mem_cons, List.mem_singleton] at member
    rcases member with rfl | rfl
    · exact ⟨by simp, by simp [Value.isList], by simp [Value.isList], by simp⟩
    · exact ⟨by simp [Value.isList], by simp, by simp [Value.isList], by simp⟩
  have isBase : sharedMemory.ShowsConfiguration 0 base := by
    intro setting
    cases setting with
    | macroDirectories => exact .list rfl rfl
    | macroFiles => exact .list rfl rfl
    | plugins => exact .list rfl rfl
    | _ => exact .plain rfl
  have give : List.Forall₂ sharedMemory.ShowsOverrides [1, 2] overrides := by
    refine .cons ?_ (.cons ?_ .nil)
    · intro setting
      cases setting with
      | macroDirectories => exact .list rfl rfl
      | plugins => exact .list rfl rfl
      | verbose => exact .plain rfl
      | maxIterations => exact .plain rfl
      | _ => exact .inl rfl
    · intro setting
      cases setting with
      | macroDirectories => exact .inr (.plain rfl)
      | plugins => exact .list rfl rfl
      | pluginSettings => exact .plain rfl
      | maxIterations => exact .plain rfl
      | _ => exact .inl rfl
  have closed : base.overriddenBy overrides = merged := rfl
  obtain ⟨answer, _, inMemory⟩ := mergeAll_closedForm plain base
  rw [closed] at answer inMemory
  exact ⟨plain, isBase, give, answer,
    inMemory sharedMemory 0 [1, 2] (by decide) isBase give⟩

end TokenMacros
