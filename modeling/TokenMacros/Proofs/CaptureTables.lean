import TokenMacros.Expansion.Captures

/-!
# Capture tables

A capture table is read by name.  Binding a name changes what is read under that
name and nothing else, so after a row of bindings each name holds what was bound
to it last.
-/

namespace TokenMacros

namespace Captures

theorem find?_cons (name : String) (tokens : List Token) (captures : Captures)
    (asked : String) :
    find? ((name, tokens) :: captures) asked =
      if asked = name then some tokens else captures.find? asked := by
  rw [find?, List.lookup_cons]
  by_cases same : asked = name
  · simp [same]
  · simp [same, find?, beq_eq_false_iff_ne.mpr same]

theorem find?_bind (captures : Captures) (name : String) (tokens : List Token)
    (asked : String) :
    (captures.bind name tokens).find? asked =
      if asked = name then some tokens else captures.find? asked := by
  induction captures with
  | nil => exact find?_cons name tokens [] asked
  | cons entry captures induction =>
      obtain ⟨bound, held⟩ := entry
      rw [bind]
      split
      · next same =>
          subst same
          rw [find?_cons, find?_cons]
          split <;> rfl
      · next different =>
          rw [find?_cons, find?_cons, induction]
          by_cases first : asked = bound
          · have notName : asked ≠ name := by rw [first]; exact different
            simp only [if_pos first, if_neg notName]
          · simp only [if_neg first]

theorem mem_keys_iff (captures : Captures) (name : String) :
    name ∈ captures.map Prod.fst ↔ (captures.find? name).isSome := by
  rw [find?, List.lookup_isSome_iff, List.mem_map]
  constructor
  · rintro ⟨entry, member, rfl⟩
    exact ⟨entry, member, beq_self_eq_true _⟩
  · rintro ⟨entry, member, same⟩
    exact ⟨entry, member, (beq_iff_eq.mp same).symm⟩

/-- Binds names in order. -/
def bindAll (captures : Captures) (bindings : List (String × List Token)) :
    Captures :=
  bindings.foldl (fun held (name, tokens) => held.bind name tokens) captures

@[simp] theorem bindAll_nil (captures : Captures) :
    captures.bindAll [] = captures := rfl

@[simp] theorem bindAll_cons (captures : Captures) (name : String)
    (tokens : List Token) (bindings : List (String × List Token)) :
    captures.bindAll ((name, tokens) :: bindings) =
      (captures.bind name tokens).bindAll bindings := rfl

/-- The last binding of a name counts; a name without one keeps what it held. -/
theorem find?_bindAll (captures : Captures)
    (bindings : List (String × List Token)) (name : String) :
    (captures.bindAll bindings).find? name =
      (bindings.reverse.lookup name).or (captures.find? name) := by
  induction bindings generalizing captures with
  | nil => simp
  | cons binding bindings induction =>
      obtain ⟨bound, tokens⟩ := binding
      rw [bindAll_cons, induction, find?_bind, List.reverse_cons,
        List.lookup_append, Option.or_assoc]
      congr 1
      change _ = (find? [(bound, tokens)] name).or _
      rw [find?_cons]
      by_cases same : name = bound
      · simp [same]
      · simp [same, find?]

end Captures

end TokenMacros
