import TokenMacros.Rule.Registry

/-!
# Priority order

The order in which rules are served is the one in which they were added, sorted
by descending priority without moving rules of equal priority past each other.
There is exactly one such order.
-/

namespace TokenMacros

/-- The rules `served` are the rules `added` by descending priority; rules of
equal priority stand in the order in which they were added. -/
structure InOrder (priority : RuleId → Int) (added served : List RuleId) :
    Prop where
  perm : served.Perm added
  descending : served.Pairwise fun left right => priority right ≤ priority left
  stable : ∀ level, (served.filter fun id => priority id = level) =
    added.filter fun id => priority id = level

namespace InOrder

variable {priority : RuleId → Int}

theorem le_first {served : List RuleId} {first id : RuleId}
    (descending : (first :: served).Pairwise fun left right =>
      priority right ≤ priority left) (member : id ∈ first :: served) :
    priority id ≤ priority first := by
  rcases List.mem_cons.mp member with rfl | later
  · exact Int.le_refl _
  · exact List.rel_of_pairwise_cons descending later

theorem eq_of_descending {served served' : List RuleId}
    (perm : served.Perm served')
    (descending : served.Pairwise fun left right =>
      priority right ≤ priority left)
    (descending' : served'.Pairwise fun left right =>
      priority right ≤ priority left)
    (stable : ∀ level, (served.filter fun id => priority id = level) =
      served'.filter fun id => priority id = level) : served = served' := by
  induction served generalizing served' with
  | nil => exact perm.nil_eq
  | cons first served induction =>
      cases served' with
      | nil => cases perm.eq_nil
      | cons first' served' =>
          have level : priority first' = priority first := by
            apply Int.le_antisymm
            · exact le_first descending (perm.mem_iff.mpr List.mem_cons_self)
            · exact le_first descending' (perm.mem_iff.mp List.mem_cons_self)
          -- both are the first rule of the highest level
          obtain rfl : first = first' := by
            have highest := stable (priority first)
            rw [List.filter_cons_of_pos (by simp),
              List.filter_cons_of_pos (by simp [level])] at highest
            exact (List.cons.inj highest).1
          congr 1
          apply induction perm.cons_inv descending.tail descending'.tail
          intro other
          have sameLevel := stable other
          rw [List.filter_cons, List.filter_cons] at sameLevel
          split at sameLevel
          · exact (List.cons.inj sameLevel).2
          · exact sameLevel

theorem unique {added served served' : List RuleId}
    (order : InOrder priority added served)
    (order' : InOrder priority added served') : served = served' := by
  apply eq_of_descending (order.perm.trans order'.perm.symm) order.descending
    order'.descending
  intro level
  rw [order.stable level, order'.stable level]

theorem congr {priority' : RuleId → Int} {added served : List RuleId}
    (order : InOrder priority added served)
    (same : ∀ id ∈ added, priority id = priority' id) :
    InOrder priority' added served := by
  have sameServed : ∀ id ∈ served, priority id = priority' id := by
    intro id member
    exact same id (order.perm.mem_iff.mp member)
  refine ⟨order.perm, ?_, ?_⟩
  · apply order.descending.imp_of_mem
    intro left right leftServed rightServed descends
    rw [← sameServed left leftServed, ← sameServed right rightServed]
    exact descends
  · intro level
    calc
      (served.filter fun id => priority' id = level) =
          served.filter fun id => priority id = level :=
        List.filter_congr fun id member => by rw [sameServed id member]
      _ = added.filter fun id => priority id = level := order.stable level
      _ = added.filter fun id => priority' id = level :=
        List.filter_congr fun id member => by rw [same id member]

end InOrder

namespace RulePool

theorem sorted_inOrder (pool : RulePool) (ids : List RuleId) :
    InOrder pool.priority ids (pool.sorted ids) := by
  have transitive : ∀ first second third : RuleId,
      decide (pool.priority second ≤ pool.priority first) = true →
      decide (pool.priority third ≤ pool.priority second) = true →
      decide (pool.priority third ≤ pool.priority first) = true := by
    intro first second third
    simp only [decide_eq_true_eq]
    omega
  have total : ∀ first second : RuleId,
      (decide (pool.priority second ≤ pool.priority first) ||
        decide (pool.priority first ≤ pool.priority second)) = true := by
    intro first second
    simp only [Bool.or_eq_true, decide_eq_true_eq]
    omega
  have perm : (pool.sorted ids).Perm ids := List.mergeSort_perm ids _
  refine ⟨perm, ?_, ?_⟩
  · have descending := List.pairwise_mergeSort transitive total ids
    exact descending.imp of_decide_eq_true
  · intro level
    let equal (id : RuleId) : Bool := pool.priority id = level
    have kept : (ids.filter equal).Sublist (pool.sorted ids) := by
      apply List.sublist_mergeSort transitive total _ List.filter_sublist
      apply List.pairwise_of_forall_mem_list
      intro left leftEqual right rightEqual
      have leftLevel := (List.mem_filter.mp leftEqual).2
      have rightLevel := (List.mem_filter.mp rightEqual).2
      simp only [equal, decide_eq_true_eq] at leftLevel rightLevel ⊢
      omega
    have again : (ids.filter equal).Sublist ((pool.sorted ids).filter equal) := by
      simpa using kept.filter equal
    exact (again.eq_of_length (perm.filter equal).length_eq.symm).symm

end RulePool

theorem RuleBook.serve_ofRules_singleton {rule : Rule}
    (some : rule.elements ≠ []) : (ofRules [rule]).serve.1 = [rule] := by
  have nonempty : rule.elements.isEmpty = false := by simpa using some
  simp [ofRules, addAll, RulePool.insert, Registry.add, RulePool.find?,
    nonempty, serve, Registry.serve, RulePool.sorted, RulePool.resolve]

end TokenMacros
