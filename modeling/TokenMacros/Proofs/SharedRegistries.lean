import Mathlib.Data.List.TakeWhile
import Mathlib.Logic.Function.Basic
import TokenMacros.Proofs.PriorityOrder

/-!
# Registries that share rules

Steps on registries over one pool, with a record of what each registry was given
and of the pool it saw when it was read.  After every run a registry serves what
was added to it since it was last cleared, in the order of the priorities it has
seen.  These are the current ones, unless a rule's priority was changed through
another registry in the meantime.
-/

namespace TokenMacros

namespace RulePool

/-- The pool has a rule under this number, and the rule has a pattern. -/
def Offers (pool : RulePool) (id : RuleId) : Prop :=
  ∃ rule, pool.find? id = some rule ∧ rule.elements ≠ []

/-- What a registry takes of the rules it is given: none from the first on that
has no pattern. -/
def accepted (pool : RulePool) (ids : List RuleId) : List RuleId :=
  (ids.filter fun id => (pool.find? id).isSome).takeWhile fun id =>
    (pool.find? id).any fun rule => !rule.elements.isEmpty

theorem find?_insert_of_find? {pool : RulePool} {id : RuleId} {held : Rule}
    (found : pool.find? id = some held) (rule : Rule) :
    (pool.insert rule).2.find? id = some held := by
  obtain ⟨inside, _⟩ := Array.getElem?_eq_some_iff.mp found
  rw [find?, insert, Array.getElem?_push, if_neg (Nat.ne_of_lt inside)]
  exact found

theorem find?_setPriority (pool : RulePool) (id : RuleId) (priority : Int)
    (asked : RuleId) :
    (pool.setPriority id priority).find? asked =
      if id = asked then
        (pool.find? asked).map fun rule => { rule with priority := priority }
      else pool.find? asked :=
  Array.getElem?_modify

theorem priority_setPriority_of_ne {pool : RulePool} {id asked : RuleId}
    (different : id ≠ asked) (priority : Int) :
    (pool.setPriority id priority).priority asked = pool.priority asked := by
  rw [RulePool.priority, find?_setPriority, if_neg different]
  rfl

theorem Offers.insert {pool : RulePool} {id : RuleId} (offers : pool.Offers id)
    (rule : Rule) : (pool.insert rule).2.Offers id := by
  obtain ⟨held, found, pattern⟩ := offers
  exact ⟨held, find?_insert_of_find? found rule, pattern⟩

theorem Offers.setPriority {pool : RulePool} {asked : RuleId}
    (offers : pool.Offers asked) (id : RuleId) (priority : Int) :
    (pool.setPriority id priority).Offers asked := by
  obtain ⟨held, found, pattern⟩ := offers
  rw [Offers, find?_setPriority, found]
  split
  · exact ⟨_, rfl, pattern⟩
  · exact ⟨held, rfl, pattern⟩

theorem accepted_cons_unknown {pool : RulePool} {id : RuleId}
    (unknown : pool.find? id = none) (ids : List RuleId) :
    pool.accepted (id :: ids) = pool.accepted ids := by
  rw [accepted, List.filter_cons_of_neg (by simp [unknown])]
  rfl

theorem accepted_cons_refused {pool : RulePool} {id : RuleId} {rule : Rule}
    (found : pool.find? id = some rule)
    (refused : rule.elements.isEmpty = true) (ids : List RuleId) :
    pool.accepted (id :: ids) = [] := by
  rw [accepted, List.filter_cons_of_pos (by simp [found]),
    List.takeWhile_cons_of_neg (by simp [found, refused])]

theorem accepted_cons_offered {pool : RulePool} {id : RuleId} {rule : Rule}
    (found : pool.find? id = some rule)
    (pattern : rule.elements.isEmpty = false) (ids : List RuleId) :
    pool.accepted (id :: ids) = id :: pool.accepted ids := by
  rw [accepted, List.filter_cons_of_pos (by simp [found]),
    List.takeWhile_cons_of_pos (by simp [found, pattern])]
  rfl

theorem offers_of_mem_accepted {pool : RulePool} {ids : List RuleId}
    {id : RuleId} (member : id ∈ pool.accepted ids) : pool.Offers id := by
  have offered := List.all_eq_true.mp List.all_takeWhile id member
  obtain ⟨rule, found, pattern⟩ := (Option.any_eq_true _ _).mp offered
  exact ⟨rule, found, by simpa using pattern⟩

theorem accepted_of_offers {pool : RulePool} {ids : List RuleId}
    (offers : ∀ id ∈ ids, pool.Offers id) : pool.accepted ids = ids := by
  induction ids with
  | nil => rfl
  | cons id ids induction =>
      obtain ⟨rule, found, pattern⟩ := offers id List.mem_cons_self
      rw [accepted_cons_offered found (by simpa using pattern), induction]
      intro other member
      exact offers other (List.mem_cons_of_mem _ member)

end RulePool

namespace Registry

theorem extend_eq (pool : RulePool) (ids : List RuleId) (registry : Registry) :
    (registry.extend pool ids).2 =
      if pool.accepted ids = [] then registry
      else ⟨registry.entries ++ pool.accepted ids, none⟩ := by
  induction ids generalizing registry with
  | nil => rfl
  | cons id ids induction =>
      cases found : pool.find? id with
      | none =>
          simp only [extend, add, found, induction,
            RulePool.accepted_cons_unknown found]
      | some rule =>
          cases pattern : rule.elements.isEmpty with
          | true =>
              rw [RulePool.accepted_cons_refused found pattern, if_pos rfl]
              simp [extend, add, found, pattern]
          | false =>
              rw [RulePool.accepted_cons_offered found pattern,
                if_neg (List.cons_ne_nil _ _)]
              simp only [extend, add, found, pattern, Bool.false_eq_true,
                if_false, induction]
              split
              · next nothing => rw [nothing]
              · rw [List.append_assoc, List.singleton_append]

theorem copy_eq {pool : RulePool} {registry : Registry}
    (offers : ∀ id ∈ registry.entries, pool.Offers id) :
    (registry.copy pool).2 = ⟨registry.entries, none⟩ := by
  rw [copy, extend_eq, RulePool.accepted_of_offers offers]
  split
  · next nothing => rw [nothing]; rfl
  · rfl

theorem serve_snd (pool : RulePool) (registry : Registry) :
    (registry.serve pool).2 =
      { registry with kept? := some (registry.serve pool).1 } := by
  unfold serve
  cases registry with
  | mk entries kept? => cases kept? <;> rfl

end Registry

/-! ## Steps and records -/

/-- Registries over one pool. -/
structure Shelf where
  pool : RulePool := {}
  registries : Nat → Registry := fun _ => .empty

inductive ShelfStep where
  /-- A rule is made; it is in no registry yet. -/
  | make (rule : Rule)
  | add (registry : Nat) (id : RuleId)
  | extend (registry : Nat) (ids : List RuleId)
  | overridePriority (registry : Nat) (id : RuleId) (priority : Int)
  | clear (registry : Nat)
  | copy (registry target : Nat)
  | serve (registry : Nat)

namespace Shelf

def put (shelf : Shelf) (name : Nat) (registry : Registry) : Shelf :=
  { shelf with registries := Function.update shelf.registries name registry }

/-- The rules that a registry serves at this moment. -/
def served (shelf : Shelf) (name : Nat) : List RuleId :=
  ((shelf.registries name).serve shelf.pool).1

/-- One step.  A refused one changes nothing, except that a registry keeps what
it took in front of a refused rule. -/
def step (shelf : Shelf) : ShelfStep → Shelf
  | .make rule => { shelf with pool := (shelf.pool.insert rule).2 }
  | .add name id =>
    match (shelf.registries name).add shelf.pool id with
    | .ok registry => shelf.put name registry
    | .error _ => shelf
  | .extend name ids =>
    shelf.put name ((shelf.registries name).extend shelf.pool ids).2
  | .overridePriority name id priority =>
    match (shelf.registries name).overridePriority? shelf.pool id priority with
    | some (pool, registry) => { shelf with pool := pool }.put name registry
    | none => shelf
  | .clear name => shelf.put name .empty
  | .copy name target =>
    shelf.put target ((shelf.registries name).copy shelf.pool).2
  | .serve name =>
    shelf.put name ((shelf.registries name).serve shelf.pool).2

end Shelf

/-- What is known of a registry without looking at it. -/
structure Record where
  /-- The rules added since it was last cleared, or made as a copy. -/
  added : List RuleId := []
  /-- The pool at the first reading since the registry last changed. -/
  read? : Option RulePool := none

namespace Record

/-- The pool whose priorities the registry goes by. -/
def seen (record : Record) (current : RulePool) : RulePool :=
  record.read?.getD current

/-- More rules are added. -/
def add (record : Record) (ids : List RuleId) : Record :=
  if ids = [] then record else ⟨record.added ++ ids, none⟩

end Record

/-- A shelf with a record of each of its registries. -/
structure Watched where
  shelf : Shelf := {}
  records : Nat → Record := fun _ => {}

namespace Watched

/-- How a step changes the records. -/
def recordsAfter (watched : Watched) : ShelfStep → Nat → Record
  | .make _ => watched.records
  | .add name id =>
    Function.update watched.records name
      ((watched.records name).add (watched.shelf.pool.accepted [id]))
  | .extend name ids =>
    Function.update watched.records name
      ((watched.records name).add (watched.shelf.pool.accepted ids))
  | .overridePriority name id _ =>
    if id ∈ (watched.records name).added then
      Function.update watched.records name
        { watched.records name with read? := none }
    else watched.records
  | .clear name => Function.update watched.records name {}
  | .copy name target =>
    Function.update watched.records target
      { added := (watched.records name).added }
  | .serve name =>
    Function.update watched.records name
      { watched.records name with
        read? := some ((watched.records name).seen watched.shelf.pool) }

def step (watched : Watched) (step : ShelfStep) : Watched :=
  ⟨watched.shelf.step step, watched.recordsAfter step⟩

/-- All steps of a run, from empty registries and an empty pool. -/
def run (steps : List ShelfStep) : Watched :=
  steps.foldl step {}

end Watched

/-! ## What records say about registries -/

theorem Shelf.step_add (shelf : Shelf) (name : Nat) (id : RuleId) :
    shelf.step (.add name id) = shelf.step (.extend name [id]) := by
  cases result : (shelf.registries name).add shelf.pool id with
  | ok registry => simp only [step, Registry.extend, result]
  | error failure =>
      simp only [step, Registry.extend, result, put, Function.update_eq_self]

namespace Record

/-- The record describes the registry. -/
structure Describes (record : Record) (pool : RulePool) (registry : Registry) :
    Prop where
  entries : registry.entries = record.added
  kept : registry.kept? = record.read?.map (·.sorted record.added)
  offers : ∀ id ∈ record.added, pool.Offers id

namespace Describes

variable {record : Record} {pool : RulePool} {registry : Registry}

theorem served (describes : record.Describes pool registry) :
    (registry.serve pool).1 = (record.seen pool).sorted record.added := by
  rw [Registry.serve, describes.kept, describes.entries, seen]
  cases record.read? <;> rfl

theorem of_offers (describes : record.Describes pool registry)
    {pool' : RulePool} (keeps : ∀ id, pool.Offers id → pool'.Offers id) :
    record.Describes pool' registry :=
  ⟨describes.entries, describes.kept,
    fun id member => keeps id (describes.offers id member)⟩

theorem extend (describes : record.Describes pool registry)
    (ids : List RuleId) :
    (record.add (pool.accepted ids)).Describes pool
      (registry.extend pool ids).2 := by
  rw [Registry.extend_eq, add]
  split
  · exact describes
  · refine ⟨by rw [describes.entries], rfl, ?_⟩
    intro id member
    rcases List.mem_append.mp member with before | taken
    · exact describes.offers id before
    · exact RulePool.offers_of_mem_accepted taken

theorem forget (describes : record.Describes pool registry) :
    Describes { record with read? := none } pool
      { registry with kept? := none } :=
  ⟨describes.entries, rfl, describes.offers⟩

theorem copy (describes : record.Describes pool registry) :
    Describes { added := record.added } pool (registry.copy pool).2 := by
  have offers : ∀ id ∈ registry.entries, pool.Offers id := by
    rw [describes.entries]
    exact describes.offers
  rw [Registry.copy_eq offers]
  exact ⟨describes.entries, rfl, describes.offers⟩

theorem read (describes : record.Describes pool registry) :
    Describes { record with read? := some (record.seen pool) } pool
      (registry.serve pool).2 := by
  rw [Registry.serve_snd, describes.served]
  exact ⟨describes.entries, rfl, describes.offers⟩

end Describes

theorem describes_empty (pool : RulePool) :
    Describes {} pool Registry.empty := by
  refine ⟨rfl, rfl, ?_⟩
  intro id member
  cases member

end Record

namespace Watched

theorem step_add (watched : Watched) (name : Nat) (id : RuleId) :
    watched.step (.add name id) = watched.step (.extend name [id]) := by
  rw [step, Shelf.step_add]
  rfl

section

variable {watched : Watched} {name : Nat} {id : RuleId} {priority : Int}
  (entries : (watched.shelf.registries name).entries =
    (watched.records name).added)

include entries

theorem step_override (listed : id ∈ (watched.records name).added) :
    watched.step (.overridePriority name id priority) =
      ⟨{ watched.shelf with
          pool := watched.shelf.pool.setPriority id priority }.put name
          { watched.shelf.registries name with kept? := none },
        Function.update watched.records name
          { watched.records name with read? := none }⟩ := by
  simp [step, Shelf.step, recordsAfter, Registry.overridePriority?, entries,
    listed]

theorem step_override_refused (unlisted : id ∉ (watched.records name).added) :
    watched.step (.overridePriority name id priority) = watched := by
  simp [step, Shelf.step, recordsAfter, Registry.overridePriority?, entries,
    unlisted]

end

/-- Every record describes its registry. -/
def Faithful (watched : Watched) : Prop :=
  ∀ name, (watched.records name).Describes watched.shelf.pool
    (watched.shelf.registries name)

namespace Faithful

variable {watched : Watched}

/-- Records stay faithful where one registry changes together with its record.
-/
theorem update (faithful : watched.Faithful) (name : Nat) {record : Record}
    {registry : Registry}
    (describes : record.Describes watched.shelf.pool registry) :
    Faithful ⟨watched.shelf.put name registry,
      Function.update watched.records name record⟩ := by
  intro other
  simp only [Shelf.put]
  by_cases same : other = name
  · subst same
    simpa using describes
  · simpa [Function.update_of_ne same] using faithful other

theorem of_offers (faithful : watched.Faithful) {pool : RulePool}
    (keeps : ∀ id, watched.shelf.pool.Offers id → pool.Offers id) :
    Faithful ⟨{ watched.shelf with pool := pool }, watched.records⟩ :=
  fun name => (faithful name).of_offers keeps

theorem step (faithful : watched.Faithful) (step : ShelfStep) :
    (watched.step step).Faithful := by
  cases step with
  | make rule =>
      exact faithful.of_offers fun id offers => offers.insert rule
  | add name id =>
      rw [step_add]
      exact faithful.update name ((faithful name).extend [id])
  | extend name ids => exact faithful.update name ((faithful name).extend ids)
  | overridePriority name id priority =>
      have entries := (faithful name).entries
      by_cases listed : id ∈ (watched.records name).added
      · have changed := faithful.of_offers
          fun id' offers => offers.setPriority id priority
        rw [step_override entries listed]
        exact changed.update name (changed name).forget
      · rw [step_override_refused entries listed]
        exact faithful
  | clear name => exact faithful.update name (Record.describes_empty _)
  | copy name target => exact faithful.update target (faithful name).copy
  | serve name => exact faithful.update name (faithful name).read

end Faithful

theorem faithful_run (steps : List ShelfStep) : (run steps).Faithful := by
  have preserved : ∀ watched : Watched, watched.Faithful →
      (steps.foldl step watched).Faithful := by
    induction steps with
    | nil => exact fun _ faithful => faithful
    | cons step steps induction =>
        intro watched faithful
        exact induction _ (faithful.step step)
  exact preserved {} fun name => Record.describes_empty _

theorem served_run (steps : List ShelfStep) (name : Nat) :
    (run steps).shelf.served name =
      (((run steps).records name).seen (run steps).shelf.pool).sorted
        ((run steps).records name).added :=
  (faithful_run steps name).served

end Watched

/-! ## Current priorities -/

/-- The priorities that a registry goes by are those that its rules have now. -/
def Record.IsCurrent (record : Record) (pool : RulePool) : Prop :=
  ∀ id ∈ record.added, (record.seen pool).priority id = pool.priority id

theorem Record.isCurrent_of_unread {record : Record}
    (unread : record.read? = none) (pool : RulePool) :
    record.IsCurrent pool := by
  intro id _
  rw [seen, unread, Option.getD_none]

/-- A registry stays current where its rules keep their priorities. -/
theorem Record.IsCurrent.of_priority {record : Record} {pool pool' : RulePool}
    (current : record.IsCurrent pool)
    (same : ∀ id ∈ record.added, pool'.priority id = pool.priority id) :
    record.IsCurrent pool' := by
  cases unread : record.read? with
  | none => exact isCurrent_of_unread unread pool'
  | some read =>
      intro id member
      have before := current id member
      rw [seen, unread, Option.getD_some] at before ⊢
      rw [before, same id member]

namespace Watched

def IsCurrent (watched : Watched) : Prop :=
  ∀ name, (watched.records name).IsCurrent watched.shelf.pool

/-- The step changes no priority behind the back of a registry that was read. -/
def Spares (watched : Watched) : ShelfStep → Prop
  | .overridePriority name id _ =>
    ∀ other ≠ name, id ∈ (watched.records other).added →
      (watched.records other).read? = none
  | _ => True

/-- All steps of the run do so. -/
def SparesAll : Watched → List ShelfStep → Prop
  | _, [] => True
  | watched, step :: steps =>
    watched.Spares step ∧ (watched.step step).SparesAll steps

namespace IsCurrent

variable {watched : Watched}

theorem update (current : watched.IsCurrent) (name : Nat) {record : Record}
    (registry : Registry) (here : record.IsCurrent watched.shelf.pool) :
    IsCurrent ⟨watched.shelf.put name registry,
      Function.update watched.records name record⟩ := by
  intro other
  simp only [Shelf.put]
  by_cases same : other = name
  · subst same
    simpa using here
  · simpa [Function.update_of_ne same] using current other

theorem extend (current : watched.IsCurrent) (name : Nat)
    (ids : List RuleId) : (watched.step (.extend name ids)).IsCurrent := by
  apply current.update name
  rw [Record.add]
  split
  · exact current name
  · exact Record.isCurrent_of_unread rfl _

theorem step (current : watched.IsCurrent) (faithful : watched.Faithful)
    {step : ShelfStep} (spares : watched.Spares step) :
    (watched.step step).IsCurrent := by
  cases step with
  | make rule =>
      intro name
      apply (current name).of_priority
      intro id member
      obtain ⟨held, found, _⟩ := (faithful name).offers id member
      have later := RulePool.find?_insert_of_find? found rule
      simp only [Watched.step, Shelf.step, RulePool.priority, found, later]
  | add name id =>
      rw [step_add]
      exact current.extend name [id]
  | extend name ids => exact current.extend name ids
  | overridePriority name id priority =>
      have entries := (faithful name).entries
      by_cases listed : id ∈ (watched.records name).added
      · rw [step_override entries listed]
        intro other
        by_cases here : other = name
        · subst here
          apply Record.isCurrent_of_unread
          simp
        simp only [Shelf.put, Function.update_of_ne here]
        by_cases holds : id ∈ (watched.records other).added
        -- another registry that holds the rule was not read yet
        · exact Record.isCurrent_of_unread (spares other here holds) _
        · apply (current other).of_priority
          intro asked member
          apply RulePool.priority_setPriority_of_ne
          rintro rfl
          exact holds member
      · rw [step_override_refused entries listed]
        exact current
  | clear name => exact current.update name _ (Record.isCurrent_of_unread rfl _)
  | copy name target =>
      exact current.update target _ (Record.isCurrent_of_unread rfl _)
  | serve name => exact current.update name _ (current name)

end IsCurrent

theorem isCurrent_run {steps : List ShelfStep}
    (spares : SparesAll {} steps) : (run steps).IsCurrent := by
  have preserved : ∀ watched : Watched, watched.Faithful → watched.IsCurrent →
      watched.SparesAll steps → (steps.foldl step watched).IsCurrent := by
    clear spares
    induction steps with
    | nil => exact fun _ _ current _ => current
    | cons step steps induction =>
        intro watched faithful current spares
        exact induction _ (faithful.step step)
          (current.step faithful spares.1) spares.2
  apply preserved {} _ _ spares
  · exact fun name => Record.describes_empty _
  · exact fun name => Record.isCurrent_of_unread rfl _

end Watched

/-- After every run each registry serves the rules that were added to it since
it was last cleared, neither more nor fewer, in the order of the priorities that
they had when the registry was first read since it last changed.  Where no
priority is changed through one registry after another that holds the rule was
read, this is the order of the current priorities. -/
theorem served_inOrder (steps : List ShelfStep) (name : Nat) :
    let watched := Watched.run steps
    let record := watched.records name
    let served := watched.shelf.served name
    InOrder (record.seen watched.shelf.pool).priority record.added served ∧
      (Watched.SparesAll {} steps →
        InOrder watched.shelf.pool.priority record.added served) := by
  intro watched record served
  have seen := RulePool.sorted_inOrder (record.seen watched.shelf.pool)
    record.added
  rw [← Watched.served_run] at seen
  refine ⟨seen, ?_⟩
  intro spares
  exact seen.congr (Watched.isCurrent_run spares name)

/-- The priority of a shared rule is raised before the other registry that holds
it is read. -/
theorem served_inOrder_shared :
    let first := (Rule.define { pattern := "a", replacement := "1" }).toOption.get
      (by decide +kernel)
    let second := (Rule.define { pattern := "b", replacement := "2" }).toOption.get
      (by decide +kernel)
    let steps : List ShelfStep :=
      [.make first, .make second, .extend 0 [0, 1], .copy 0 1, .serve 1,
        .overridePriority 1 1 10, .serve 0]
    let watched := Watched.run steps
    Watched.SparesAll {} steps ∧ (watched.records 0).added = [0, 1] ∧
      InOrder watched.shelf.pool.priority (watched.records 0).added
        (watched.shelf.served 0) := by
  intro first second steps watched
  have spares : Watched.SparesAll {} steps := by
    refine ⟨trivial, trivial, trivial, trivial, trivial, ?_, trivial, trivial⟩
    intro other different member
    match other with
    | 0 => decide +kernel
    | 1 => exact absurd rfl different
    | other + 2 => rfl
  exact ⟨spares, by decide +kernel, (served_inOrder steps 0).2 spares⟩

/-- The condition is needed: a registry that was read keeps its order when the
priority of one of its rules is raised through a copy. -/
theorem served_not_inOrder :
    let first := (Rule.define { pattern := "a", replacement := "1" }).toOption.get
      (by decide +kernel)
    let second := (Rule.define { pattern := "b", replacement := "2" }).toOption.get
      (by decide +kernel)
    let watched := Watched.run
      [.make first, .make second, .extend 0 [0, 1], .serve 0, .copy 0 1,
        .overridePriority 1 1 10]
    (watched.records 0).added = [0, 1] ∧
      watched.shelf.pool.priority 0 = 0 ∧
      watched.shelf.pool.priority 1 = 10 ∧
      watched.shelf.served 0 = [0, 1] ∧
      ¬ InOrder watched.shelf.pool.priority (watched.records 0).added
        (watched.shelf.served 0) := by
  intro first second watched
  have added : (watched.records 0).added = [0, 1] := by decide +kernel
  have low : watched.shelf.pool.priority 0 = 0 := by decide +kernel
  have high : watched.shelf.pool.priority 1 = 10 := by decide +kernel
  have served : watched.shelf.served 0 = [0, 1] := by
    rw [Watched.served_run]
    apply (RulePool.sorted_inOrder _ _).unique
    rw [added]
    refine ⟨.refl _, ?_, fun _ => rfl⟩
    decide +kernel
  refine ⟨added, low, high, served, ?_⟩
  intro order
  have descending := order.descending
  rw [served] at descending
  have below := List.rel_of_pairwise_cons descending List.mem_cons_self
  rw [low, high] at below
  omega

end TokenMacros
