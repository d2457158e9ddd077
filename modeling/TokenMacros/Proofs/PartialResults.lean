/-!
# Results of steps that may fail

What can be said of an answer, and of the reason if there is none, and how it
adds up over steps in a row.
-/

namespace TokenMacros

variable {α β ε : Type}

/-- The result is an answer with the property `answers`, or a failure for one of
the given reasons. -/
def Yields (answers : α → Prop) (reasons : ε → Prop) : Except ε α → Prop
  | .ok answer => answers answer
  | .error failure => reasons failure

namespace Yields

variable {answers : α → Prop} {given : β → Prop} {reasons : ε → Prop}

theorem any (result : Except ε α) :
    Yields (fun _ => True) (fun _ => True) result := by
  cases result with
  | ok _ => trivial
  | error _ => trivial

theorem bind {first : Except ε α} {next : α → Except ε β}
    (yields : Yields answers reasons first)
    (further : ∀ answer, answers answer → Yields given reasons (next answer)) :
    Yields given reasons (first >>= next) := by
  cases first with
  | ok answer => exact further answer yields
  | error failure => exact yields

theorem mono {answers' : α → Prop} {reasons' : ε → Prop} {result : Except ε α}
    (yields : Yields answers reasons result)
    (implied : ∀ answer, answers answer → answers' answer)
    (known : ∀ failure, reasons failure → reasons' failure) :
    Yields answers' reasons' result := by
  cases result with
  | ok answer => exact implied answer yields
  | error failure => exact known failure yields

/-- What the answer is may be remembered. -/
theorem attach {result : Except ε α} (yields : Yields answers reasons result) :
    Yields (fun answer => result = .ok answer ∧ answers answer) reasons
      result := by
  cases result with
  | ok answer => exact ⟨rfl, yields⟩
  | error failure => exact yields

theorem mapError {ε' : Type} {reasons' : ε' → Prop} {word : ε → ε'}
    {result : Except ε α} (yields : Yields answers reasons result)
    (known : ∀ failure, reasons failure → reasons' (word failure)) :
    Yields answers reasons' (result.mapError word) := by
  cases result with
  | ok answer => exact yields
  | error failure => exact known failure yields

theorem mapM {items : List α} {f : α → Except ε β}
    (yields : ∀ item ∈ items, Yields given reasons (f item)) :
    Yields (fun results => ∀ result ∈ results, given result) reasons
      (items.mapM f) := by
  induction items with
  | nil => exact List.forall_mem_nil given
  | cons item items induction =>
      rw [List.mapM_cons]
      apply bind (yields item List.mem_cons_self)
      intro first isFirst
      apply bind (induction fun other member =>
        yields other (List.mem_cons_of_mem item member))
      intro rest inRest
      exact List.forall_mem_cons.mpr ⟨isFirst, inRest⟩

theorem foldlM {items : List β} {f : α → β → Except ε α} {start : α}
    (first : answers start)
    (step : ∀ item ∈ items, ∀ answer, answers answer →
      Yields answers reasons (f answer item)) :
    Yields answers reasons (items.foldlM f start) := by
  induction items generalizing start with
  | nil => exact first
  | cons item items induction =>
      rw [List.foldlM_cons]
      apply bind (step item List.mem_cons_self start first)
      intro answer given
      exact induction given fun other member =>
        step other (List.mem_cons_of_mem item member)

end Yields

theorem bind_eq_ok_iff {first : Except ε α} {next : α → Except ε β}
    {answer : β} :
    (first >>= next) = .ok answer ↔
      ∃ between, first = .ok between ∧ next between = .ok answer := by
  cases first with
  | ok between =>
      constructor
      · exact fun given => ⟨between, rfl, given⟩
      · rintro ⟨_, same, given⟩
        cases same
        exact given
  | error failure => simp [bind, Except.bind]

theorem bind_eq_error_iff {first : Except ε α} {next : α → Except ε β}
    {failure : ε} :
    (first >>= next) = .error failure ↔
      first = .error failure ∨
        ∃ between, first = .ok between ∧ next between = .error failure := by
  cases first with
  | ok between =>
      constructor
      · exact fun given => .inr ⟨between, rfl, given⟩
      · rintro (failed | ⟨_, same, given⟩)
        · cases failed
        · cases same
          exact given
  | error _ => simp [bind, Except.bind]

end TokenMacros
