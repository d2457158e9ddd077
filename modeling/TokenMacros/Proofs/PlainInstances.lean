import TokenMacros.Expansion.Substitution

/-!
# Plain instances

The plain instance of a replacement puts captured tokens in the place of
references and leaves every space where it is.  Instantiation only leaves tokens
of it out, so it never adds, changes or reorders one.
-/

namespace TokenMacros

/-- What one element of a replacement stands for. -/
def ReplacementElement.plain (captures : Captures) :
    ReplacementElement → List Token
  | .token copied => [copied]
  | .reference name => (captures.find? name).getD [.bare (referenceText name)]

/-- The instance of a replacement in which no space is left out. -/
def plainInstance (template : List ReplacementElement) (captures : Captures) :
    List Token :=
  template.flatMap (ReplacementElement.plain captures)

@[simp] theorem plainInstance_nil (captures : Captures) :
    plainInstance [] captures = [] := rfl

@[simp] theorem plainInstance_cons (element : ReplacementElement)
    (template : List ReplacementElement) (captures : Captures) :
    plainInstance (element :: template) captures =
      element.plain captures ++ plainInstance template captures := rfl

/-- The tokens emitted so far stay in place, except that the last of them may be
a space that a capture replaces. -/
theorem instantiateAfter_sublist (captures : Captures) (emitted : List Token)
    (skipSpace : Bool) (template : List ReplacementElement) :
    (instantiateAfter captures emitted skipSpace template).Sublist
      (emitted.reverse ++ plainInstance template captures) := by
  fun_induction instantiateAfter captures emitted skipSpace template with
  | case1 emitted => simp
  | case2 emitted skipSpace element template skipped induction =>
      exact induction.trans <| by
        rw [plainInstance_cons]
        exact (List.sublist_append_right _ _).append_left _
  | case3 emitted skipSpace template token kept induction =>
      simpa [ReplacementElement.plain] using induction
  | case4 emitted skipSpace template name unresolved kept induction =>
      simpa [ReplacementElement.plain, unresolved] using induction
  | case5 emitted skipSpace template name captured resolved bringsSpace kept
      notSkipped induction =>
      have keptFront : kept.reverse.Sublist emitted.reverse := by
        rw [List.reverse_sublist]
        simp only [kept]
        split
        · exact List.tail_sublist emitted
        · exact List.Sublist.refl emitted
      refine induction.trans ?_
      rw [List.reverse_append, List.reverse_reverse, plainInstance_cons,
        ReplacementElement.plain, resolved, Option.getD_some, List.append_assoc]
      exact keptFront.append_right _

/-- Instantiation leaves out tokens of the plain instance and does nothing else
to it. -/
theorem instantiate_sublist (template : List ReplacementElement)
    (captures : Captures) :
    (instantiate template captures).Sublist
      (plainInstance template captures) := by
  simpa [instantiate] using instantiateAfter_sublist captures [] false template

/-- Captured tokens neither begin nor end with trivia. -/
def Captures.Trimmed (captures : Captures) : Prop :=
  ∀ name captured, captures.find? name = some captured →
    captured.head?.any Token.isTrivia = false ∧
      captured.getLast?.any Token.isTrivia = false

/-- Only captured trivia makes instantiation leave out a space. -/
theorem instantiateAfter_of_trimmed {captures : Captures}
    (trimmed : captures.Trimmed) (emitted : List Token)
    (template : List ReplacementElement) :
    instantiateAfter captures emitted false template =
      emitted.reverse ++ plainInstance template captures := by
  induction template generalizing emitted with
  | nil => simp [instantiateAfter]
  | cons element template induction =>
      cases element with
      | token copied =>
          simp [instantiateAfter, induction, ReplacementElement.plain]
      | reference name =>
          cases found : captures.find? name with
          | none =>
              simp [instantiateAfter, induction, ReplacementElement.plain,
                found]
          | some captured =>
              obtain ⟨begins, ends⟩ := trimmed name captured found
              simp [instantiateAfter, induction, ReplacementElement.plain,
                found, begins, ends]

theorem instantiate_of_trimmed {captures : Captures}
    (trimmed : captures.Trimmed) (template : List ReplacementElement) :
    instantiate template captures = plainInstance template captures :=
  instantiateAfter_of_trimmed trimmed [] template

end TokenMacros
