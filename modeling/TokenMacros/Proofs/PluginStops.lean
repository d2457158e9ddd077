import TokenMacros.Proofs.RunGuarantees
import TokenMacros.Session.Basic

/-!
# Stopped plugins

What stops a session while it registers its plugins, configures them and asks
them for their rules.  A module that is missing and a class that makes no
plugins are explained to the user.  Whatever else the code of a plugin raises is
raised by the session, and nothing of its own comes to it but that a module may
be named relative to nothing.
-/

namespace TokenMacros

variable {code : PluginCode} {α β : Type}

/-! ## Foreign code -/

namespace PluginRun

/-- In some world, this is the answer. -/
def Answers (asked : PluginRun code α) (answer : α) : Prop :=
  ∃ before after, Run.result asked before = (.ok answer, after)

/-- In some world, this is what stops the run. -/
def Raises (asked : PluginRun code α) (stop : Stop) : Prop :=
  ∃ before after, Run.result asked before = (.error stop, after)

/-- Whatever the world is, the answer is one of these, or else the reason to
stop. -/
def Gives (asked : PluginRun code α) (answers : α → Prop) (stops : Stop → Prop) :
    Prop :=
  Serves (fun _ => True) asked (fun answer _ => answers answer) stops

namespace Gives

variable {asked : PluginRun code α} {next : α → PluginRun code β}
  {answers answers' : α → Prop} {given : β → Prop} {stops stops' : Stop → Prop}

theorem self (asked : PluginRun code α) :
    Gives asked (Answers asked) (Raises asked) := by
  intro before result after _ ended
  cases result with
  | ok answer => exact ⟨before, after, ended⟩
  | error stop => exact ⟨before, after, ended⟩

theorem bind (first : Gives asked answers stops)
    (second : ∀ answer, answers answer → Gives (next answer) given stops) :
    Gives (asked >>= next) given stops := by
  apply Serves.bind first
  intro answer before result after known ended
  exact second answer known before result after trivial ended

theorem mono (gives : Gives asked answers stops)
    (implied : ∀ answer, answers answer → answers' answer)
    (allowed : ∀ stop, stops stop → stops' stop) : Gives asked answers' stops' :=
  Serves.mono gives (fun _ => id) (fun answer _ => implied answer) allowed

theorem pure {answer : α} (known : answers answer) :
    Gives (Pure.pure answer : PluginRun code α) answers stops :=
  Serves.pure fun _ _ => known

theorem throw {stop : Stop} (allowed : stops stop) :
    Gives (MonadExcept.throw stop : PluginRun code α) answers stops :=
  Serves.throw allowed

theorem adapt {word : Stop → Stop} (gives : Gives asked answers stops)
    (known : ∀ stop, stops stop → stops' (word stop)) :
    Gives (ExceptT.adapt word asked) answers stops' := by
  intro before result after start ended
  have adapted := (Run.result_adapt word asked before).symm.trans ended
  obtain ⟨rfl, rfl⟩ := Prod.mk.inj adapted
  exact (gives before _ _ start rfl).mapError known

end Gives

end PluginRun

open PluginRun

/-! ## Looking for plugins -/

def moduleOf (path : String) : String :=
  String.ofList (splitImportPath path.toList).1

def classOf (path : String) : String :=
  String.ofList (splitImportPath path.toList).2

namespace PluginCode

/-- The import path may lead to the class. -/
def LeadsTo (code : PluginCode) (path : String) (found : code.Class) : Prop :=
  ∃ held, Answers (code.load (moduleOf path)) held ∧
    Answers (code.class? held (classOf path)) (some found)

/-- What is not explained of an import path that leads to no plugin. -/
inductive ImportLapse (code : PluginCode) (path : String) : Stop → Prop where
  | relative
      (relative : (splitImportPath path.toList).1.head? = some '.') :
      ImportLapse code path (relativeModule (splitImportPath path.toList).1)
  | load {stop : Stop} (raises : Raises (code.load (moduleOf path)) stop)
      (other : ∀ reason, stop ≠ .unimportable reason) :
      ImportLapse code path stop
  | class? {held : code.Module} {stop : Stop}
      (loads : Answers (code.load (moduleOf path)) held)
      (raises : Raises (code.class? held (classOf path)) stop) :
      ImportLapse code path stop
  | make {found : code.Class} {stop : Stop} (leads : code.LeadsTo path found)
      (raises : Raises (code.make found) stop)
      (other : ∀ reason, stop ≠ .wrongKind reason) :
      ImportLapse code path stop

/-- The import path may lead to a class that makes the object. -/
def Makes (code : PluginCode) (path : String) (object : code.Object) : Prop :=
  ∃ found, code.LeadsTo path found ∧ Answers (code.make found) object

/-- What an object raises that a session asks for its part. -/
inductive ObjectLapse (code : PluginCode) (settings : Entries)
    (object : code.Object) : Stop → Prop where
  | isPlugin {stop : Stop} (raises : Raises (code.isPlugin object) stop) :
      ObjectLapse code settings object stop
  | name {stop : Stop} (raises : Raises (code.name object) stop) :
      ObjectLapse code settings object stop
  | configure {name : String} {stop : Stop}
      (named : Answers (code.name object) name)
      (raises : Raises
        (code.configure object ((settings.entry? name).getD (.table []))) stop) :
      ObjectLapse code settings object stop
  | isEnabled {stop : Stop} (raises : Raises (code.isEnabled object) stop) :
      ObjectLapse code settings object stop
  | rules {stop : Stop} (raises : Raises (code.rules object) stop) :
      ObjectLapse code settings object stop

/-- What stops a session for its plugins without an explanation. -/
inductive Lapse (code : PluginCode) (paths : List String) (settings : Entries) :
    Stop → Prop where
  | import {path : String} {stop : Stop} (listed : path ∈ paths)
      (lapse : code.ImportLapse path stop) : Lapse code paths settings stop
  | object {path : String} {object : code.Object} {stop : Stop}
      (listed : path ∈ paths) (makes : code.Makes path object)
      (lapse : code.ObjectLapse settings object stop) :
      Lapse code paths settings stop

variable {paths : List String} {settings : Entries} {path : String}
  {object : code.Object}

end PluginCode

/-! ## Boards -/

/-- Every plugin of the board may have been made from one of the paths, under the
name that it is held by. -/
def PluginBoard.StemsFrom (board : PluginBoard code.Object)
    (paths : List String) : Prop :=
  ∀ entry ∈ board.entries,
    (∃ path ∈ paths, code.Makes path entry.2) ∧
      Answers (code.name entry.2) entry.1

theorem PluginBoard.StemsFrom.insert {board : PluginBoard code.Object}
    {paths : List String} (stems : board.StemsFrom paths) {name : String}
    {object : code.Object} (makes : ∃ path ∈ paths, code.Makes path object)
    (named : Answers (code.name object) name) :
    (board.insert name object).StemsFrom paths := by
  intro entry member
  rw [PluginBoard.insert] at member
  split at member
  · obtain ⟨held, isHeld, rfl⟩ := List.mem_map.mp member
    split
    · exact ⟨makes, named⟩
    · exact stems held isHeld
  · rcases List.mem_append.mp member with isHeld | last
    · exact stems entry isHeld
    · rw [List.mem_singleton.mp last]
      exact ⟨makes, named⟩

namespace PluginHost

variable {tree : FileTree} {paths : List String} {settings : Entries}
  {stops : Stop → Prop}

/-- The run keeps to plugins of the paths. -/
def KeepsTo (paths : List String) (run : Hosted code α) (answers : α → Prop)
    (stops : Stop → Prop) : Prop :=
  Serves (fun host => host.board.StemsFrom paths) run
    (fun answer host => host.board.StemsFrom paths ∧ answers answer) stops

namespace KeepsTo

variable {run : Hosted code α} {next : α → Hosted code β} {answers : α → Prop}
  {given : β → Prop}

theorem bind (first : KeepsTo paths run answers stops)
    (second : ∀ answer, answers answer →
      KeepsTo paths (next answer) given stops) :
    KeepsTo paths (run >>= next) given stops := by
  apply Serves.bind first
  rintro answer before result after ⟨stems, known⟩ ended
  exact second answer known before result after stems ended

theorem pure {answer : α} (known : answers answer) :
    KeepsTo paths (Pure.pure answer : Hosted code α) answers stops :=
  Serves.pure fun _ stems => ⟨stems, known⟩

theorem foreign {asked : PluginRun code α} (gives : Gives asked answers stops) :
    KeepsTo paths (PluginHost.foreign asked) answers stops := by
  intro before result after stems ended
  have given := gives before.world _ _ trivial rfl
  cases ended
  exact given.mono (fun _ known => ⟨stems, known⟩) fun _ => id

theorem insert {path : String} {object : code.Object} (listed : path ∈ paths)
    (makes : code.Makes path object) :
    KeepsTo paths (PluginHost.insert object) (fun _ => True)
      (code.Lapse paths settings) := by
  apply bind (foreign ((Gives.self _).mono (fun _ => id)
    fun _ raises => .object listed makes (.name raises)))
  intro name named before result after stems ended
  cases ended
  exact ⟨stems.insert ⟨path, listed, makes⟩ named, trivial⟩

end KeepsTo

end PluginHost

end TokenMacros
