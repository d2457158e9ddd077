import TokenMacros.Rule.Basic

/-!
# Registries

A pool holds rules under numbers; registries are lists of such numbers, so
several registries can hold the same rule and see its current priority.  A
registry serves its rules by descending priority, rules of equal priority in the
order in which they were added.  The served order is kept until the registry
itself changes.
-/

namespace TokenMacros

/-- The number under which a pool holds a rule. -/
abbrev RuleId := Nat

/-- The rules that registries refer to. -/
structure RulePool where
  rules : Array Rule := #[]
  deriving Repr, DecidableEq

namespace RulePool

/-- Takes a rule into the pool. -/
def insert (pool : RulePool) (rule : Rule) : RuleId × RulePool :=
  (pool.rules.size, ⟨pool.rules.push rule⟩)

def find? (pool : RulePool) (id : RuleId) : Option Rule :=
  pool.rules[id]?

/-- The rules held under the given numbers. -/
def resolve (pool : RulePool) (ids : List RuleId) : List Rule :=
  ids.filterMap pool.find?

def priority (pool : RulePool) (id : RuleId) : Int :=
  (pool.find? id).elim 0 Rule.priority

/-- Changes the priority of a rule, for all registries that hold it. -/
def setPriority (pool : RulePool) (id : RuleId) (priority : Int) : RulePool :=
  ⟨pool.rules.modify id fun rule => { rule with priority := priority }⟩

/-- Sorts rules by descending priority and leaves equal ones in place. -/
def sorted (pool : RulePool) (ids : List RuleId) : List RuleId :=
  ids.mergeSort fun left right => pool.priority right ≤ pool.priority left

end RulePool

/-- Rules in the order in which they were added. -/
structure Registry where
  entries : List RuleId := []
  /-- The order served last, if the registry has not changed since. -/
  kept? : Option (List RuleId) := none
  deriving Repr, DecidableEq

namespace Registry

def count (registry : Registry) : Nat :=
  registry.entries.length

def isEmpty (registry : Registry) : Bool :=
  registry.entries.isEmpty

/-- Adds a rule, which must have a pattern. -/
def add (pool : RulePool) (id : RuleId) (registry : Registry) :
    Except Failure Registry :=
  match pool.find? id with
  | some rule =>
    if rule.elements.isEmpty then .error (.emptyPattern rule.file rule.line)
    else .ok ⟨registry.entries ++ [id], none⟩
  | none => .ok registry

/-- Adds rules one after the other.  Those in front of a refused one stay added.
-/
def extend (pool : RulePool) :
    List RuleId → Registry → Option Failure × Registry
  | [], registry => (none, registry)
  | id :: ids, registry =>
    match registry.add pool id with
    | .ok registry => extend pool ids registry
    | .error failure => (some failure, registry)

/-- The rules in the order in which they are tried. -/
def serve (pool : RulePool) (registry : Registry) : List RuleId × Registry :=
  match registry.kept? with
  | some order => (order, registry)
  | none =>
    let order := pool.sorted registry.entries
    (order, { registry with kept? := some order })

/-- What is said when the priority of a rule is changed through a registry
without it. -/
def unregistered : String := "Cannot override priority of an unregistered macro"

/-- Changes the priority of a rule that the registry holds. -/
def overridePriority? (pool : RulePool) (id : RuleId) (priority : Int)
    (registry : Registry) :
    Option (RulePool × Registry) :=
  if registry.entries.contains id then
    some (pool.setPriority id priority, { registry with kept? := none })
  else none

def empty : Registry := {}

/-- A registry with the same rules that serves an order of its own. -/
def copy (pool : RulePool) (registry : Registry) : Option Failure × Registry :=
  empty.extend pool registry.entries

end Registry

/-- A registry together with the pool that its rules come from. -/
structure RuleBook where
  pool : RulePool := {}
  registry : Registry := {}
  deriving Repr, DecidableEq

namespace RuleBook

/-- Adds new rules, which must have patterns. -/
def addAll (book : RuleBook) : List Rule → Option Failure × RuleBook
  | [] => (none, book)
  | rule :: rules =>
    let (id, pool) := book.pool.insert rule
    match book.registry.add pool id with
    | .ok registry => addAll ⟨pool, registry⟩ rules
    | .error failure => (some failure, ⟨pool, book.registry⟩)

def serve (book : RuleBook) : List Rule × RuleBook :=
  let (order, registry) := book.registry.serve book.pool
  (book.pool.resolve order, { book with registry := registry })

def count (book : RuleBook) : Nat :=
  book.registry.count

def ofRules (rules : List Rule) : RuleBook :=
  (addAll {} rules).2

end RuleBook

end TokenMacros
