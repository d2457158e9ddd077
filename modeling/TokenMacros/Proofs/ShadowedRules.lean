import Mathlib.Data.List.Induction
import TokenMacros.Expansion.Run
import TokenMacros.Proofs.PatternDecomposition
import TokenMacros.Proofs.RuleTokens
import TokenMacros.Rule.Registry

/-!
# Shadowed rules

Rules of the same pattern match at the same places.  Where another rule of its
pattern is always served in front of it, a rule is never applied, so what it
would write makes no difference to an expansion.
-/

namespace TokenMacros

/-! ## Expansions with the same choices -/

section

variable {rules rules' : List Rule} {fallback : Bool}

/-- A pass depends on the rules only through the candidate that is chosen. -/
theorem pass_congr
    (same : ∀ tokens, chosen? rules' fallback tokens =
      chosen? rules fallback tokens) (tokens : List Token) :
    pass rules' fallback tokens = pass rules fallback tokens := by
  fun_induction pass rules fallback tokens with
  | case1 => rw [pass]
  | case2 token rest unmatched induction =>
      rw [pass, same, unmatched, induction]
  | case3 token rest candidate chosen induction =>
      rw [pass, same, chosen]
      exact congrArg _ induction

theorem passes_congr
    (same : ∀ tokens, chosen? rules' fallback tokens =
      chosen? rules fallback tokens) (count : Nat) (tokens : List Token) :
    passes rules' fallback count tokens = passes rules fallback count tokens := by
  induction count generalizing tokens with
  | zero => rfl
  | succ count induction => simp only [passes, pass_congr same, induction]

theorem rounds_congr (length : rules'.length = rules.length)
    (same : ∀ tokens, chosen? rules' fallback tokens =
      chosen? rules fallback tokens) (limit : Nat) (tokens : List Token) :
    rounds rules' fallback limit tokens = rounds rules fallback limit tokens := by
  induction limit generalizing tokens with
  | zero => rfl
  | succ limit induction =>
      rw [rounds, rounds, round, round, length, passes_congr same]
      simp only [induction]

theorem expandTokens_congr (length : rules'.length = rules.length)
    (same : ∀ fallback tokens, chosen? rules' fallback tokens =
      chosen? rules fallback tokens) (limits : Limits) (tokens : List Token) :
    expandTokens rules' limits tokens = expandTokens rules limits tokens := by
  have empty : rules'.isEmpty = rules.isEmpty := by
    rw [Bool.eq_iff_iff, List.isEmpty_iff_length_eq_zero,
      List.isEmpty_iff_length_eq_zero, length]
  rw [expandTokens, expandTokens, empty,
    rounds_congr length (same limits.singleTokenFallback)]

end

/-! ## Another replacement -/

namespace Rule

/-- The rule with another replacement. -/
def withReplacement (rule : Rule) (replacement : String) : Rule :=
  { rule with
    replacement := replacement
    template := Replacement.parse replacement }

/-- Rules of the same pattern match at the same places and capture the same.
-/
theorem candidate?_of_samePattern {rule rule' : Rule}
    (elements : rule'.elements = rule.elements)
    (captures : rule'.captures = rule.captures) (tokens : List Token) :
    rule'.candidate? tokens =
      (rule.candidate? tokens).map fun candidate =>
        { candidate with rule := rule' } := by
  unfold candidate? hasCaptures
  rw [elements, captures]
  split
  · split
    · rfl
    · split
      · simp [Option.map_map, Function.comp_def]
      · split <;> rfl
  · rfl

theorem singleTokenCandidate?_of_samePattern {rule rule' : Rule}
    (elements : rule'.elements = rule.elements) (token : Token) :
    rule'.singleTokenCandidate? token =
      (rule.singleTokenCandidate? token).map fun candidate =>
        { candidate with rule := rule' } := by
  unfold singleTokenCandidate?
  rw [elements]
  split <;> rfl

end Rule

namespace RulePool

variable (pool : RulePool) (id : RuleId) (replacement : String)

/-- Gives a rule another replacement. -/
def setReplacement : RulePool :=
  ⟨pool.rules.modify id (·.withReplacement replacement)⟩

theorem find?_setReplacement (asked : RuleId) :
    (pool.setReplacement id replacement).find? asked =
      if id = asked then
        (pool.find? asked).map (·.withReplacement replacement)
      else pool.find? asked :=
  Array.getElem?_modify

theorem priority_setReplacement (asked : RuleId) :
    (pool.setReplacement id replacement).priority asked =
      pool.priority asked := by
  rw [priority, priority, find?_setReplacement]
  split
  · cases pool.find? asked <;> rfl
  · rfl

theorem sorted_setReplacement (ids : List RuleId) :
    (pool.setReplacement id replacement).sorted ids = pool.sorted ids := by
  simp only [sorted, priority_setReplacement]

theorem length_resolve_setReplacement (ids : List RuleId) :
    ((pool.setReplacement id replacement).resolve ids).length =
      (pool.resolve ids).length := by
  have found (asked : RuleId) :
      ((pool.setReplacement id replacement).find? asked).isSome =
        (pool.find? asked).isSome := by
    rw [find?_setReplacement]
    split
    · exact Option.isSome_map
    · rfl
  simp only [resolve, List.length_filterMap_eq_countP, found]

theorem findSome?_resolve {α : Type} (search : Rule → Option α)
    (ids : List RuleId) :
    (pool.resolve ids).findSome? search =
      ids.findSome? fun id => (pool.find? id).bind search := by
  induction ids with
  | nil => rfl
  | cons id ids induction =>
      rw [resolve] at induction ⊢
      rw [List.filterMap_cons, List.findSome?_cons]
      cases pool.find? id with
      | none => exact induction
      | some rule => rw [List.findSome?_cons, induction, Option.bind_some]

end RulePool

/-! ## Rules that come too late -/

/-- A search is not changed where it differs only behind something that is
found. -/
theorem findSome?_eq_of_preceded {α β : Type} {search search' : α → Option β}
    {items : List α}
    (agree : ∀ front item back, items = front ++ item :: back →
      search' item = search item ∨
        ∃ other ∈ front, (search other).isSome = true) :
    items.findSome? search' = items.findSome? search := by
  induction items using List.reverseRecOn with
  | nil => rfl
  | append_singleton items last induction =>
      have before : items.findSome? search' = items.findSome? search := by
        apply induction
        intro front item back split
        apply agree front item (back ++ [last])
        rw [split, List.append_assoc, List.cons_append]
      rw [List.findSome?_append, List.findSome?_append, before]
      rcases agree items last [] rfl with same | ⟨other, member, finds⟩
      · rw [List.findSome?_cons, List.findSome?_cons, same]
        rfl
      · have found : (items.findSome? search).isSome = true :=
          List.findSome?_isSome_iff.mpr ⟨other, member, finds⟩
        rw [Option.or_of_isSome found, Option.or_of_isSome found]

namespace RuleBook

/-- Gives a rule another replacement. -/
def setReplacement (book : RuleBook) (id : RuleId) (replacement : String) :
    RuleBook :=
  { book with pool := book.pool.setReplacement id replacement }

/-- Wherever the rule is served, another one with the same pattern is served in
front of it. -/
def Shadowed (book : RuleBook) (id : RuleId) : Prop :=
  ∀ front back, (book.registry.serve book.pool).1 = front ++ id :: back →
    ∃ other ∈ front, other ≠ id ∧
      (book.pool.find? other).map Rule.pattern =
        (book.pool.find? id).map Rule.pattern

/-- The order of the rules does not depend on what they write. -/
theorem serve_setReplacement (book : RuleBook) (id : RuleId)
    (replacement : String) :
    (book.setReplacement id replacement).serve.1 =
      (book.pool.setReplacement id replacement).resolve
        (book.registry.serve book.pool).1 := by
  unfold serve setReplacement Registry.serve
  cases book.registry.kept? with
  | none => simp only [RulePool.sorted_setReplacement]
  | some order => rfl

section

variable {book : RuleBook} {id : RuleId}
  (defined : ∀ rule ∈ book.serve.1, ∃ source, Rule.define source = .ok rule)
  (shadowed : book.Shadowed id)

include defined shadowed

/-- In front of a shadowed rule stands a rule that matches the same. -/
theorem exists_alike {front back : List RuleId} {rule : Rule}
    (split : (book.registry.serve book.pool).1 = front ++ id :: back)
    (found : book.pool.find? id = some rule) :
    ∃ other ∈ front, ∃ first, book.pool.find? other = some first ∧
      first.elements = rule.elements ∧ first.captures = rule.captures := by
  obtain ⟨other, inFront, _, samePattern⟩ := shadowed front back split
  rw [found] at samePattern
  obtain ⟨first, foundFirst, pattern⟩ := Option.map_eq_some_iff.mp samePattern
  have served {asked : RuleId} {held : Rule} (member : asked ∈ front ++ id :: back)
      (holds : book.pool.find? asked = some held) : held ∈ book.serve.1 := by
    rw [← split] at member
    exact List.mem_filterMap.mpr ⟨asked, member, holds⟩
  obtain ⟨_, firstDefined⟩ :=
    defined first (served (List.mem_append_left _ inFront) foundFirst)
  obtain ⟨_, ruleDefined⟩ :=
    defined rule (served (List.mem_append_right _ List.mem_cons_self) found)
  obtain ⟨elements, captures, _⟩ := Rule.define_eq_ok firstDefined
  obtain ⟨elements', captures', _⟩ := Rule.define_eq_ok ruleDefined
  refine ⟨other, inFront, first, foundFirst, ?_, ?_⟩
  · rw [elements, elements', pattern]
  · rw [captures, captures', pattern]

/-- What depends on the pattern of a rule alone is found in another rule before
the shadowed one is reached. -/
theorem findSome?_setReplacement (replacement : String) {α : Type}
    (search : Rule → Option α)
    (byPattern : ∀ rule rule' : Rule, rule'.elements = rule.elements →
      rule'.captures = rule.captures →
        (search rule').isSome = (search rule).isSome) :
    (book.setReplacement id replacement).serve.1.findSome? search =
      book.serve.1.findSome? search := by
  have served : book.serve.1 =
      book.pool.resolve (book.registry.serve book.pool).1 := rfl
  rw [serve_setReplacement, served, RulePool.findSome?_resolve,
    RulePool.findSome?_resolve]
  apply findSome?_eq_of_preceded
  intro front item back split
  rw [RulePool.find?_setReplacement]
  by_cases here : id = item
  · subst here
    rw [if_pos rfl]
    cases found : book.pool.find? id with
    | none => exact .inl rfl
    | some rule =>
        obtain ⟨other, inFront, first, foundFirst, elements, captures⟩ :=
          exists_alike defined shadowed split found
        simp only [Option.map_some, Option.bind_some]
        have written := byPattern rule (rule.withReplacement replacement) rfl rfl
        cases finds : search rule with
        | none =>
            left
            rw [finds] at written
            exact Option.isNone_iff_eq_none.mp (by simpa using written)
        | some result =>
            right
            refine ⟨other, inFront, ?_⟩
            rw [foundFirst, Option.bind_some,
              byPattern rule first elements captures, finds]
            rfl
  · rw [if_neg here]
    exact .inl rfl

theorem chosen?_setReplacement (replacement : String) (fallback : Bool)
    (tokens : List Token) :
    chosen? (book.setReplacement id replacement).serve.1 fallback tokens =
      chosen? book.serve.1 fallback tokens := by
  have matching := findSome?_setReplacement defined shadowed replacement
    (·.candidate? tokens) (by
      intro rule rule' elements captures
      rw [Rule.candidate?_of_samePattern elements captures, Option.isSome_map])
  have opening (token : Token) :=
    findSome?_setReplacement defined shadowed replacement
      (·.singleTokenCandidate? token) (by
        intro rule rule' elements _
        rw [Rule.singleTokenCandidate?_of_samePattern elements,
          Option.isSome_map])
  simp only [chosen?, matching, opening]

end

end RuleBook

/-- A rule that is always served behind another one of its pattern never
applies.  Whatever replacement it is given, every expansion has the same
outcome. -/
theorem expandTokens_shadowed {book : RuleBook} {id : RuleId}
    (defined : ∀ rule ∈ book.serve.1, ∃ source, Rule.define source = .ok rule)
    (shadowed : book.Shadowed id) (replacement : String) (limits : Limits)
    (tokens : List Token) :
    expandTokens (book.setReplacement id replacement).serve.1 limits tokens =
      expandTokens book.serve.1 limits tokens := by
  apply expandTokens_congr
  · rw [RuleBook.serve_setReplacement,
      RulePool.length_resolve_setReplacement]
    rfl
  · exact RuleBook.chosen?_setReplacement defined shadowed replacement

/-- The rule that was added first is served last, because it has the lower
priority. -/
theorem expandTokens_shadowed_let :
    let high : RuleSource := { letSource with priority := 1 }
    let low : RuleSource := { letSource with replacement := "$(body)" }
    let rules := [low, high].filterMap fun source =>
      (Rule.define source).toOption
    let book : RuleBook :=
      { pool := ⟨rules.toArray⟩
        registry := { entries := [0, 1], kept? := some [1, 0] } }
    let changed := book.setReplacement 0 "never"
    let limits : Limits := { singleTokenFallback := true }
    let tokens := lexCode "let $a = (1) in let $b"
    (∀ rule ∈ book.serve.1, ∃ source, Rule.define source = .ok rule) ∧
      book.Shadowed 0 ∧
      expandTokens changed.serve.1 limits tokens =
        expandTokens book.serve.1 limits tokens ∧
      (expandTokens changed.serve.1 limits tokens).text =
        "$a = 1; $(name)= $(value);$(body) $b" := by
  intro high low rules book changed limits tokens
  have defined :
      ∀ rule ∈ book.serve.1, ∃ source, Rule.define source = .ok rule := by
    have first : book.serve.1 =
        [high, low].filterMap fun source => (Rule.define source).toOption := by
      decide +kernel
    intro rule member
    rw [first] at member
    obtain ⟨source, _, success⟩ := List.mem_filterMap.mp member
    exact ⟨source, Rule.toOption_define_eq_some.mp success⟩
  have shadowed : book.Shadowed 0 := by
    intro front back split
    cases front with
    | nil => cases split
    | cons first front =>
        obtain ⟨rfl, _⟩ := List.cons.inj split
        exact ⟨1, List.mem_cons_self, by decide, by decide +kernel⟩
  exact ⟨defined, shadowed,
    expandTokens_shadowed defined shadowed "never" limits tokens,
    by decide +kernel⟩

end TokenMacros
