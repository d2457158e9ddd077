import Mathlib.Data.List.Nodup
import TokenMacros.Proofs.StatefulRuns
import TokenMacros.Session.Catalogue

/-!
# Hosts of plugins

What the operations of a host answer and leave.  Of the board they change nothing
but that a registration puts an object on it under the name that it tells.  The
rules of all plugins are asked for like those under each name, one after the
other.
-/

namespace TokenMacros

variable {code : PluginCode} {α β : Type}

/-- An object with the name that it has when it is there. -/
def PluginCode.named (asked : PluginRun code code.Object) :
    PluginRun code (String × code.Object) := do
  let object ← asked
  return (← code.name object, object)

/-- Plugins that are asked whether they are enabled and which rules they have do
not change by it: what they answer is told from the world as it is. -/
structure PluginCode.IsSteady (code : PluginCode) : Prop where
  isEnabled : ∀ object world, (Run.result (code.isEnabled object) world).2 = world
  rules : ∀ object world, (Run.result (code.rules object) world).2 = world

/-! ## Boards -/

namespace PluginBoard

variable {Object : Type} {board : PluginBoard Object} {name : String}
  {object : Object} {entry : String × Object}

theorem names_insert (board : PluginBoard Object) (name : String)
    (object : Object) :
    (board.insert name object).names =
      if name ∈ board.names then board.names else board.names ++ [name] := by
  have isNamed : board.entries.any (·.1 == name) = true ↔ name ∈ board.names := by
    simp [names]
  rw [insert]
  by_cases named : name ∈ board.names
  · rw [if_pos (isNamed.mpr named), if_pos named, names, names, List.map_map]
    apply List.map_congr_left
    intro held _
    rw [Function.comp_apply]
    split
    · next same => exact (eq_of_beq same).symm
    · rfl
  · rw [if_neg (isNamed.not.mpr named), if_neg named, names, List.map_append]
    rfl

/-- What a registration leaves of a board: the object, and those of other
names. -/
theorem eq_or_mem_of_mem_insert
    (member : entry ∈ (board.insert name object).entries) :
    entry = (name, object) ∨ entry ∈ board.entries ∧ entry.1 ≠ name := by
  rw [insert] at member
  split at member
  · obtain ⟨held, isHeld, rfl⟩ := List.mem_map.mp member
    split
    · exact .inl rfl
    · next different =>
        exact .inr ⟨isHeld, fun same => different (beq_iff_eq.mpr same)⟩
  · next unnamed =>
      rcases List.mem_append.mp member with isHeld | last
      · refine .inr ⟨isHeld, ?_⟩
        intro same
        exact unnamed (List.any_eq_true.mpr ⟨entry, isHeld, beq_iff_eq.mpr same⟩)
      · exact .inl (List.mem_singleton.mp last)

theorem find?_eq_some_of_mem (distinct : board.names.Nodup)
    (member : entry ∈ board.entries) :
    board.find? entry.1 = some entry.2 := by
  obtain ⟨front, back, split⟩ := List.append_of_mem member
  rw [find?, List.lookup_eq_some_iff]
  refine ⟨front, back, split, ?_⟩
  intro other inFront
  rw [names, split, List.map_append, List.map_cons, List.nodup_append]
    at distinct
  have apart : other.1 ≠ entry.1 :=
    distinct.2.2 _ (List.mem_map_of_mem inFront) _ List.mem_cons_self
  simpa using apart.symm

end PluginBoard

/-! ## Operations -/

namespace PluginHost

theorem result_foreign (asked : PluginRun code α) (host : PluginHost code) :
    Run.result (foreign asked) host =
      ((Run.result asked host.world).1,
        { host with world := (Run.result asked host.world).2 }) := rfl

theorem result_insert (object : code.Object) (host : PluginHost code) :
    Run.result (insert object) host =
      match Run.result (code.name object) host.world with
      | (.ok name, world) => (.ok (), ⟨host.board.insert name object, world⟩)
      | (.error stop, world) => (.error stop, ⟨host.board, world⟩) := by
  rw [insert, Run.result_bind, result_foreign]
  rcases Run.result (code.name object) host.world with ⟨_ | _, world⟩
  · rfl
  · rfl

/-- A plugin is registered under its name, or the board is left as it was. -/
theorem result_register (path : String) (host : PluginHost code) :
    Run.result (register path) host =
      match Run.result (PluginCode.named (PluginCode.produce path)) host.world with
      | (.ok (name, object), world) =>
        (.ok object, ⟨host.board.insert name object, world⟩)
      | (.error stop, world) => (.error stop, ⟨host.board, world⟩) := by
  simp only [register, PluginCode.named, Run.result_bind, result_foreign,
    result_insert]
  rcases Run.result (PluginCode.produce path) host.world with ⟨_ | object, world⟩
  · rfl
  · simp only
    rcases Run.result (code.name object) world with ⟨_ | _, _⟩
    · rfl
    · rfl

theorem board_of_stopped {path : String} {stop : Stop}
    {host after : PluginHost code}
    (stopped : Run.result (register path) host = (.error stop, after)) :
    after.board = host.board := by
  rw [result_register] at stopped
  generalize Run.result (PluginCode.named (PluginCode.produce path)) host.world =
    offered at stopped
  rcases offered with ⟨_ | _, _⟩
  · cases stopped
    rfl
  · cases stopped

theorem board_configureEach (settings : Entries)
    (plugins : List (String × code.Object)) (host : PluginHost code) :
    (Run.result (configureEach settings plugins) host).2.board = host.board := by
  induction plugins generalizing host with
  | nil => rfl
  | cons plugin plugins induction =>
      rw [configureEach, Run.result_bind, result_foreign]
      rcases (Run.result (code.configure _ _) host.world).1 with _ | _
      · rfl
      · exact induction _

theorem board_configure (settings : Value) (host : PluginHost code) :
    (Run.result (configure settings) host).2.board = host.board := by
  rw [configure, Run.result_bind]
  change (Run.result (if _ then _ else _) host).2.board = host.board
  split
  · exact board_configureEach _ _ host
  · split
    · exact board_configureEach _ _ host
    · split
      · rfl
      · rfl

/-! ### Rules of all plugins -/

variable {host : PluginHost code}

theorem result_rulesOf {entry : String × code.Object}
    (distinct : host.board.names.Nodup) (member : entry ∈ host.board.entries) :
    Run.result (rulesOf entry.1) host =
      Run.result (foreign (PluginCode.offered entry.2)) host := by
  have found := PluginBoard.find?_eq_some_of_mem distinct member
  have looks : Run.result (get : Hosted code (PluginHost code)) host =
      (.ok host, host) := rfl
  rw [rulesOf, Run.result_bind, looks]
  simp only [found]

/-- To ask for the rules of all plugins is to ask for those under each name, one
after the other. -/
theorem result_rules (distinct : host.board.names.Nodup) :
    Run.result rules host =
      Run.result (do return (← host.board.names.mapM rulesOf).flatten) host := by
  have each (plugins : List (String × code.Object)) (host : PluginHost code)
      (distinct : host.board.names.Nodup)
      (part : ∀ entry ∈ plugins, entry ∈ host.board.entries) :
      Run.result
          (plugins.mapM fun plugin => foreign (PluginCode.offered plugin.2))
          host =
        Run.result ((plugins.map (·.1)).mapM rulesOf) host := by
    induction plugins generalizing host with
    | nil => rfl
    | cons plugin plugins induction =>
        rw [List.forall_mem_cons] at part
        rw [List.mapM_cons, List.map_cons, List.mapM_cons, Run.result_bind,
          Run.result_bind, result_rulesOf distinct part.1, result_foreign]
        rcases Run.result (PluginCode.offered plugin.2) host.world with
          ⟨_ | rules, world⟩
        · rfl
        · simp only
          rw [Run.result_bind, Run.result_bind,
            induction ⟨host.board, world⟩ distinct part.2]
  have all := each host.board.entries host distinct fun _ => id
  have started : Run.result rules host =
      Run.result (do
        return (← host.board.entries.mapM fun plugin =>
          foreign (PluginCode.offered plugin.2)).flatten) host := rfl
  rw [started, Run.result_bind, Run.result_bind, all]
  rfl

/-- What a host answers. -/
def answer (host : PluginHost code) (asked : Hosted code α) : Except Stop α :=
  (Run.result asked host).1

/-- Where nothing changes by asking, every item is asked for at the same host. -/
theorem result_mapM_of_steady {ask : β → Hosted code α} {items : List β}
    (steady : ∀ item ∈ items, (Run.result (ask item) host).2 = host) :
    Run.result (items.mapM ask) host =
      (items.mapM fun item => host.answer (ask item), host) := by
  induction items with
  | nil => rfl
  | cons item items induction =>
      rw [List.forall_mem_cons] at steady
      obtain ⟨same, steady⟩ := steady
      rw [List.mapM_cons, List.mapM_cons, Run.result_bind, answer]
      generalize Run.result (ask item) host = ended at same ⊢
      rcases ended with ⟨_ | first, after⟩
      · obtain rfl : after = host := same
        rfl
      · obtain rfl : after = host := same
        simp only
        rw [Run.result_bind, induction steady]
        rcases items.mapM fun item => after.answer (ask item) with _ | _
        · rfl
        · rfl

theorem result_offered_of_steady (steady : code.IsSteady) (object : code.Object)
    (world : code.World) :
    (Run.result (PluginCode.offered object) world).2 = world := by
  have enabled := steady.isEnabled object world
  rw [PluginCode.offered, Run.result_bind]
  rcases asked : Run.result (code.isEnabled object) world with
    ⟨_ | isEnabled, after⟩
  · rwa [asked] at enabled
  · rw [asked] at enabled
    have enabled : after = world := enabled
    subst enabled
    cases isEnabled with
    | false => rfl
    | true => exact steady.rules object after

theorem answer_rules_of_steady (steady : code.IsSteady)
    (distinct : host.board.names.Nodup) :
    host.answer rules =
      (host.board.names.mapM fun name => host.answer (rulesOf name)).map
        List.flatten := by
  have asked : ∀ name ∈ host.board.names,
      (Run.result (rulesOf name) host).2 = host := by
    intro name member
    obtain ⟨entry, isHeld, rfl⟩ := List.mem_map.mp member
    rw [result_rulesOf distinct isHeld, result_foreign,
      result_offered_of_steady steady]
  rw [answer, result_rules distinct, Run.result_bind, result_mapM_of_steady asked]
  rcases host.board.names.mapM fun name => host.answer (rulesOf name) with _ | _
  · rfl
  · rfl

end PluginHost

/-! ## Catalogues -/

namespace Catalogue

theorem result_tell (object : Nat) (told : Plugin → Except Stop α) (made : Made) :
    (Run.result (tell object told) made).2 = made := by
  have looks : Run.result (get : Run (StateM Made) Made) made =
      (.ok made, made) := rfl
  rw [tell, Run.result_bind, looks]
  simp only
  split
  · rfl
  · rfl

/-- The plugins of a catalogue do not change by being asked. -/
theorem code_isSteady (catalogue : Catalogue) : catalogue.code.IsSteady where
  isEnabled object := result_tell object _
  rules object := result_tell object _

end Catalogue

end TokenMacros
