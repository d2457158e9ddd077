import Mathlib.Data.List.DropRight
import TokenMacros.Proofs.PluginHosts

/-!
# Registered plugins

What a board holds after any requests, told from the requests alone: for every
name the object that was last registered under it, in the order in which the
names first came since the board was last cleared.  A registration succeeds if
the foreign code finds a plugin and tells its name; else it leaves the board as
it was.
-/

namespace TokenMacros

variable {code : PluginCode}

/-- What may be asked of a host. -/
inductive HostRequest (code : PluginCode) where
  | register (path : String)
  | insert (object : code.Object)
  | configure (settings : Value)
  | clear
  /-- The world of the plugins changes without being asked to. -/
  | elsewhere (change : code.World → code.World)

namespace HostRequest

/-- Carries out a request.  A registration answers the object. -/
def run : HostRequest code → Hosted code (Option code.Object)
  | register path => return some (← PluginHost.register path)
  | insert object => do
    PluginHost.insert object
    return some object
  | configure settings => do
    PluginHost.configure settings
    return none
  | clear => do
    PluginHost.clear
    return none
  | elsewhere change => do
    modify fun host => { host with world := change host.world }
    return none

/-- What a registration has to register. -/
def offer? : HostRequest code → Option (PluginRun code (String × code.Object))
  | register path => some (PluginCode.named (PluginCode.produce path))
  | insert object => some (PluginCode.named (pure object))
  | _ => none

def clears : HostRequest code → Bool
  | clear => true
  | _ => false

end HostRequest

/-- A request with the world that it came in and what it was answered. -/
structure HostStep (code : PluginCode) where
  request : HostRequest code
  world : code.World
  answer : Except Stop (Option code.Object)

/-- Name and object that a step registers, if it does. -/
def HostStep.registered? (step : HostStep code) : Option (String × code.Object) :=
  step.request.offer?.bind fun offer => (Run.result offer step.world).1.toOption

/-- A host and the steps that led to it. -/
structure HostHistory (code : PluginCode) where
  host : PluginHost code
  steps : List (HostStep code) := []

namespace HostHistory

def extend (history : HostHistory code) (request : HostRequest code) :
    HostHistory code :=
  let (answer, host) := Run.result request.run history.host
  ⟨host, history.steps ++ [⟨request, history.host.world, answer⟩]⟩

/-- All requests, one after the other, to a board that is empty at first. -/
def ofRequests (world : code.World) (requests : List (HostRequest code)) :
    HostHistory code :=
  requests.foldl extend { host := { world := world } }

/-- The steps since the board was last cleared. -/
def recent (history : HostHistory code) : List (HostStep code) :=
  history.steps.rtakeWhile fun step => !step.request.clears

end HostHistory

/-- The names under which steps register objects, in order and as often as they
come. -/
def registeredNames (steps : List (HostStep code)) : List String :=
  (steps.filterMap HostStep.registered?).map (·.1)

/-- The object was the last one to be registered under the name. -/
def LastRegistered (steps : List (HostStep code)) (name : String)
    (object : code.Object) : Prop :=
  ∃ front step later, steps = front ++ step :: later ∧
    step.registered? = some (name, object) ∧
    ∀ step' ∈ later, ∀ other, step'.registered? = some other → other.1 ≠ name

/-- The board is told from the steps since it was last cleared. -/
structure PluginBoard.Reflects (board : PluginBoard code.Object)
    (recent : List (HostStep code)) : Prop where
  distinct : board.names.Nodup
  /-- Every name stands where it first came. -/
  order : board.names = (registeredNames recent).eraseDups
  last : ∀ entry ∈ board.entries, LastRegistered recent entry.1 entry.2

/-! ## Requests -/

namespace HostRequest

variable {request : HostRequest code}
  {offer : PluginRun code (String × code.Object)}

/-- A registration puts what it has to register on the board, or leaves the board
as it was. -/
theorem result_of_offer (offers : request.offer? = some offer)
    (host : PluginHost code) :
    Run.result request.run host =
      match Run.result offer host.world with
      | (.ok (name, object), world) =>
        (.ok (some object), ⟨host.board.insert name object, world⟩)
      | (.error stop, world) => (.error stop, ⟨host.board, world⟩) := by
  cases request with
  | register path =>
      cases offers
      rw [run, Run.result_bind, PluginHost.result_register]
      rcases Run.result (PluginCode.named (PluginCode.produce path)) host.world
        with ⟨_ | _, _⟩
      · rfl
      · rfl
  | insert object =>
      cases offers
      rw [run, Run.result_bind, PluginHost.result_insert, PluginCode.named,
        Run.result_bind, Run.result_pure]
      simp only [Run.result_bind]
      rcases Run.result (code.name object) host.world with ⟨_ | _, _⟩
      · rfl
      · rfl
  | _ => cases offers

/-- A request is answered an object just when it registers this object. -/
theorem answers_iff (request : HostRequest code) (host : PluginHost code)
    {object : code.Object} {answer : Except Stop (Option code.Object)} :
    (Run.result request.run host).1 = .ok (some object) ↔
      ∃ name, HostStep.registered? ⟨request, host.world, answer⟩ =
        some (name, object) := by
  rw [HostStep.registered?]
  cases offers : request.offer? with
  | none =>
      have silent : (Run.result request.run host).1 ≠ .ok (some object) := by
        cases request with
        | register path => cases offers
        | insert object => cases offers
        | configure settings =>
            rw [run, Run.result_bind]
            rcases Run.result (PluginHost.configure settings) host with
              ⟨_ | _, after⟩
            · exact nofun
            · exact nofun
        | clear => exact nofun
        | elsewhere change => exact nofun
      simp [silent]
  | some offer =>
      rw [result_of_offer offers, Option.bind_some]
      rcases Run.result offer host.world with ⟨_ | ⟨name, found⟩, world⟩
      · simp [Except.toOption]
      · simp [Except.toOption]

theorem board_of_no_offer (none : request.offer? = none)
    (host : PluginHost code) :
    (Run.result request.run host).2.board =
      if request.clears then {} else host.board := by
  cases request with
  | register path => cases none
  | insert object => cases none
  | configure settings =>
      have kept := PluginHost.board_configure settings host
      rw [run, Run.result_bind]
      rcases ended : Run.result (PluginHost.configure settings) host with
        ⟨_ | _, after⟩
      · rwa [ended] at kept
      · rwa [ended] at kept
  | clear => rfl
  | elsewhere change => rfl

end HostRequest

/-! ## Histories -/

theorem eraseDups_concat (names : List String) (name : String) :
    (names ++ [name]).eraseDups =
      if name ∈ names then names.eraseDups else names.eraseDups ++ [name] := by
  rw [List.eraseDups_append]
  by_cases named : name ∈ names
  · simp [named, List.removeAll]
  · simp [named, List.removeAll, List.eraseDups_cons]

section Steps

variable {steps : List (HostStep code)} {step : HostStep code} {name : String}
  {object : code.Object}

theorem registeredNames_concat (steps : List (HostStep code))
    (registers : step.registered? = some (name, object)) :
    registeredNames (steps ++ [step]) = registeredNames steps ++ [name] := by
  simp [registeredNames, registers]

theorem registeredNames_concat_none (steps : List (HostStep code))
    (registersNothing : step.registered? = none) :
    registeredNames (steps ++ [step]) = registeredNames steps := by
  simp [registeredNames, registersNothing]

theorem lastRegistered_concat (steps : List (HostStep code))
    (registers : step.registered? = some (name, object)) :
    LastRegistered (steps ++ [step]) name object :=
  ⟨steps, step, [], rfl, registers, List.forall_mem_nil _⟩

theorem LastRegistered.concat (last : LastRegistered steps name object)
    (apart : ∀ other, step.registered? = some other → other.1 ≠ name) :
    LastRegistered (steps ++ [step]) name object := by
  obtain ⟨front, first, later, split, registers, behind⟩ := last
  refine ⟨front, first, later ++ [step], ?_, registers, ?_⟩
  · rw [split, List.append_assoc, List.cons_append]
  · intro step' member
    rcases List.mem_append.mp member with before | isLast
    · exact behind step' before
    · rw [List.mem_singleton.mp isLast]
      exact apart

end Steps

namespace PluginBoard

variable {board : PluginBoard code.Object} {recent : List (HostStep code)}
  {step : HostStep code} {name : String} {object : code.Object}

theorem reflects_empty : ({} : PluginBoard code.Object).Reflects [] :=
  ⟨List.nodup_nil, rfl, List.forall_mem_nil _⟩

theorem Reflects.insert (reflects : board.Reflects recent)
    (registers : step.registered? = some (name, object)) :
    (board.insert name object).Reflects (recent ++ [step]) := by
  constructor
  · rw [names_insert]
    split
    · exact reflects.distinct
    · next unnamed =>
        rw [← List.concat_eq_append, List.nodup_concat]
        exact ⟨unnamed, reflects.distinct⟩
  · rw [names_insert, registeredNames_concat recent registers,
      eraseDups_concat, reflects.order]
    simp only [List.mem_eraseDups]
  · intro entry member
    rcases eq_or_mem_of_mem_insert member with rfl | ⟨isHeld, apart⟩
    · exact lastRegistered_concat recent registers
    · -- an object of another name stays what it was
      apply (reflects.last entry isHeld).concat
      intro other registers'
      cases registers.symm.trans registers'
      exact apart.symm

theorem Reflects.pass (reflects : board.Reflects recent)
    (registersNothing : step.registered? = none) :
    board.Reflects (recent ++ [step]) := by
  constructor
  · exact reflects.distinct
  · rw [registeredNames_concat_none recent registersNothing]
    exact reflects.order
  · intro entry isHeld
    apply (reflects.last entry isHeld).concat
    intro other registers
    cases registersNothing.symm.trans registers

end PluginBoard

namespace HostHistory

variable {history : HostHistory code}

theorem recent_extend (history : HostHistory code) (request : HostRequest code) :
    (history.extend request).recent =
      if request.clears then []
      else history.recent ++ [⟨request, history.host.world,
        (Run.result request.run history.host).1⟩] := by
  simp only [recent, extend, List.rtakeWhile_concat]
  cases request.clears with
  | true => rfl
  | false => rfl

theorem reflects_extend (reflects : history.host.board.Reflects history.recent)
    (request : HostRequest code) :
    (history.extend request).host.board.Reflects
      (history.extend request).recent := by
  rw [recent_extend]
  have next : (history.extend request).host =
      (Run.result request.run history.host).2 := rfl
  cases offers : request.offer? with
  | none =>
      rw [next, HostRequest.board_of_no_offer offers]
      split
      · exact PluginBoard.reflects_empty
      · apply reflects.pass
        rw [HostStep.registered?, offers]
        rfl
  | some offer =>
      have keeps : ¬ request.clears = true := by
        intro clears
        cases request with
        | clear => cases offers
        | _ => cases clears
      rw [if_neg keeps, next, HostRequest.result_of_offer offers]
      have registered (answer : Except Stop (Option code.Object)) :
          HostStep.registered? ⟨request, history.host.world, answer⟩ =
            (Run.result offer history.host.world).1.toOption := by
        rw [HostStep.registered?, offers]
        rfl
      generalize Run.result offer history.host.world = offered at registered ⊢
      rcases offered with ⟨_ | ⟨name, object⟩, world⟩
      · exact reflects.pass (registered _)
      · exact reflects.insert (registered _)

theorem reflects_ofRequests (world : code.World)
    (requests : List (HostRequest code)) :
    (ofRequests world requests).host.board.Reflects
      (ofRequests world requests).recent := by
  induction requests using List.reverseRecOn with
  | nil => exact PluginBoard.reflects_empty
  | append_singleton requests request induction =>
      rw [ofRequests, List.foldl_concat]
      exact reflects_extend induction request

theorem answers_ofRequests (world : code.World)
    (requests : List (HostRequest code)) :
    ∀ step ∈ (ofRequests world requests).steps, ∀ object,
      step.answer = .ok (some object) ↔
        ∃ name, step.registered? = some (name, object) := by
  induction requests using List.reverseRecOn with
  | nil => exact List.forall_mem_nil _
  | append_singleton requests request induction =>
      rw [ofRequests, List.foldl_concat]
      intro step member object
      rcases List.mem_append.mp member with before | last
      · exact induction step before object
      · rw [List.mem_singleton.mp last]
        exact HostRequest.answers_iff request _

/-- Whatever is asked of a host, its board holds one object for every name that
was registered since the board was last cleared: the last one, in the place of
the first one; and a registration that is stopped leaves the board as it was.
The rules of all plugins are those that each name is asked for, one after the
other.  If plugins do not change by being asked, then it makes no difference
that they are asked in a row. -/
theorem ofRequests_reflected (world : code.World)
    (requests : List (HostRequest code)) :
    let history := ofRequests world requests
    let host := history.host
    host.board.Reflects history.recent ∧
    (∀ step ∈ history.steps, ∀ object, step.answer = .ok (some object) ↔
      ∃ name, step.registered? = some (name, object)) ∧
    (∀ path stop after,
      Run.result (PluginHost.register path) host = (.error stop, after) →
        after.board = host.board) ∧
    Run.result PluginHost.rules host =
      Run.result (do
        return (← host.board.names.mapM PluginHost.rulesOf).flatten) host ∧
    (code.IsSteady → host.answer PluginHost.rules =
      (host.board.names.mapM fun name =>
        host.answer (PluginHost.rulesOf name)).map List.flatten) := by
  intro history host
  have reflects : host.board.Reflects history.recent :=
    reflects_ofRequests world requests
  refine ⟨reflects, answers_ofRequests world requests, ?_,
    PluginHost.result_rules reflects.distinct, ?_⟩
  · intro path stop after stopped
    exact PluginHost.board_of_stopped stopped
  · intro steady
    exact PluginHost.answer_rules_of_steady steady reflects.distinct

/-- Two plugins, and a class of which no plugins can be made. -/
def shelf : Catalogue :=
  [("shelf", [("Arrow", some (.plugin { name := "arrow" })),
    ("Null", some (.plugin { name := "null" })), ("Broken", some .incomplete)])]

/-- A plugin that is registered again keeps its place; what is no plugin gets
none. -/
theorem ofRequests_reflected_shelf :
    let history := ofRequests ([] : Catalogue.Made)
      (["shelf:Arrow", "shelf:Null", "shelf:Broken", "shelf:Arrow"].map
        (HostRequest.register : _ → HostRequest shelf.code))
    let host := history.host
    history.steps.map (·.answer.isOk) = [true, true, false, true] ∧
    host.board.names = ["arrow", "null"] ∧
    host.board.Reflects history.recent ∧
    host.answer PluginHost.rules =
      (["arrow", "null"].mapM fun name =>
        host.answer (PluginHost.rulesOf name)).map List.flatten := by
  intro history host
  have answers : history.steps.map (·.answer.isOk) =
      [true, true, false, true] := by
    decide +kernel
  have names : host.board.names = ["arrow", "null"] := by
    decide +kernel
  obtain ⟨reflects, _, _, _, steady⟩ := ofRequests_reflected ([] : Catalogue.Made)
    (["shelf:Arrow", "shelf:Null", "shelf:Broken", "shelf:Arrow"].map
      (HostRequest.register : _ → HostRequest shelf.code))
  refine ⟨answers, names, reflects, ?_⟩
  rw [← names]
  exact steady shelf.code_isSteady

end HostHistory

end TokenMacros
