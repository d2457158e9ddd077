import TokenMacros.Proofs.CaptureTables
import TokenMacros.Proofs.LeftOutSpaces
import TokenMacros.Rule.Replacement

/-!
# How many spaces are left out

Instantiation differs from the plain instance by single spaces that it leaves
out, and each capture that is put in accounts for two of them at most: the one
in front of it and the one behind it.
-/

namespace TokenMacros

/-- Leaving out the given number of single spaces, and nothing else, leads from
the first tokens to the second ones. -/
inductive LeavesOut : Nat → List Token → List Token → Prop where
  | nil : LeavesOut 0 [] []
  | keep {count : Nat} {all left : List Token} (token : Token) :
      LeavesOut count all left →
      LeavesOut count (token :: all) (token :: left)
  | drop {count : Nat} {all left : List Token} {space : Token} :
      space.isPlainSpace = true →
      LeavesOut count all left →
      LeavesOut (count + 1) (space :: all) left

/-- The element is a reference to captured tokens, of which there are some. -/
def ReplacementElement.bringsTokens (captures : Captures) :
    ReplacementElement → Bool
  | .token _ => false
  | .reference name => (captures.find? name).any (!·.isEmpty)

namespace Placed

/-- How many of the tokens are left out. -/
def dropped (placed : List Placed) : Nat :=
  placed.countP leftOut

@[simp] theorem dropped_nil : dropped [] = 0 := rfl

@[simp] theorem dropped_cons (one : Placed) (placed : List Placed) :
    dropped (one :: placed) =
      dropped placed + if one.leftOut then 1 else 0 :=
  List.countP_cons

@[simp] theorem dropped_reverse (placed : List Placed) :
    dropped placed.reverse = dropped placed := by
  simp [dropped]

theorem dropped_leaveOutLast_le (placed : List Placed) :
    dropped (leaveOutLast placed) ≤ dropped placed + 1 := by
  induction placed with
  | nil => simp [leaveOutLast]
  | cons last before induction =>
      rw [leaveOutLast]
      split
      · simp only [dropped_cons]
        omega
      · simp

@[simp] theorem dropped_capture (before : List Placed)
    (captured : List Token) :
    dropped (capture before captured) = dropped before := by
  induction captured generalizing before with
  | nil => rfl
  | cons token captured induction => simp [capture, induction]

/-- Where only single spaces are left out, the tokens that are kept lack just
these. -/
theorem leavesOut {placed : List Placed}
    (spaces : ∀ one ∈ placed, one.leftOut = true →
      one.token.isPlainSpace = true) :
    LeavesOut (dropped placed) (tokens placed) (kept placed) := by
  induction placed with
  | nil => exact .nil
  | cons one placed induction =>
      have later := induction fun other member =>
        spaces other (List.mem_cons_of_mem _ member)
      have here := spaces one List.mem_cons_self
      obtain ⟨token, leftOut⟩ := one
      cases leftOut with
      | true =>
          rw [dropped_cons]
          exact .drop (here rfl) later
      | false => exact .keep token later

end Placed

/-- A capture accounts for a space in front of it and for one behind it, which
is still to come while `skipSpace` is set. -/
theorem dropped_placeAfter_le (captures : Captures) (emitted : List Placed)
    (skipSpace : Bool) (template : List ReplacementElement) :
    Placed.dropped (placeAfter captures emitted skipSpace template) ≤
      Placed.dropped emitted + (if skipSpace then 1 else 0) +
        2 * template.countP (·.bringsTokens captures) := by
  fun_induction placeAfter captures emitted skipSpace template with
  | case1 emitted skipSpace => simp
  | case2 emitted skipSpace token elements induction =>
      have brings : (ReplacementElement.token token).bringsTokens captures =
          false := rfl
      have skipped : (if skipSpace && token.isPlainSpace then 1 else 0) ≤
          if skipSpace then 1 else 0 := by
        cases skipSpace <;> cases token.isPlainSpace <;> simp
      simp only [Placed.dropped_cons, List.countP_cons, brings,
        Bool.false_eq_true, if_false] at induction ⊢
      omega
  | case3 emitted skipSpace name elements unresolved induction =>
      have brings : (ReplacementElement.reference name).bringsTokens captures =
          false := by
        simp [ReplacementElement.bringsTokens, unresolved]
      simp only [Placed.dropped_cons, List.countP_cons, brings,
        Bool.false_eq_true, if_false] at induction ⊢
      omega
  | case4 emitted skipSpace name elements captured resolved before induction =>
      have brought :
          (if (ReplacementElement.reference name).bringsTokens captures then 1
            else 0) = if captured.isEmpty then 0 else 1 := by
        cases captured <;> simp [ReplacementElement.bringsTokens, resolved]
      have inFront : Placed.dropped before ≤
          Placed.dropped emitted + if captured.isEmpty then 0 else 1 := by
        have last := Placed.dropped_leaveOutLast_le emitted
        cases captured with
        | nil => simp [before]
        | cons first captured =>
            simp only [before]
            split <;> simp_all
      have behind : (if captured.getLast?.any Token.isTrivia then 1 else 0) ≤
          if captured.isEmpty then 0 else 1 := by
        cases captured with
        | nil => simp
        | cons first captured => split <;> simp
      rw [Placed.dropped_capture] at induction
      rw [List.countP_cons, brought]
      omega

/-- Instantiation gives the plain instance without some single spaces: nothing
is added, changed or moved.  At most two spaces are left out for every reference
to captured tokens, and none if no capture begins or ends with trivia. -/
theorem instantiate_leavesOut (template : List ReplacementElement)
    (captures : Captures) :
    (∃ count ≤ 2 * template.countP (·.bringsTokens captures),
      LeavesOut count (plainInstance template captures)
        (instantiate template captures)) ∧
    (Captures.Trimmed captures →
      instantiate template captures = plainInstance template captures) := by
  constructor
  · refine ⟨Placed.dropped (place template captures), ?_, ?_⟩
    · simpa [place] using dropped_placeAfter_le captures [] false template
    · rw [← tokens_place, ← kept_place]
      apply Placed.leavesOut
      intro one member left
      obtain ⟨front, back, split⟩ := List.append_of_mem member
      exact (beside_of_place split left).1
  · intro trimmed
    exact instantiate_of_trimmed trimmed template

/-- Trivia within a capture, an empty capture and a name without one leave every
space of the replacement in its place. -/
theorem instantiate_leavesOut_trimmed :
    let template := Replacement.parse "if ( $(a) ) { $(b) $(c) }"
    let captures : Captures := [("a", lexCode "$x /* b */ > 1"), ("b", [])]
    Captures.Trimmed captures ∧
      instantiate template captures = plainInstance template captures := by
  intro template captures
  have trimmed : Captures.Trimmed captures := by
    intro name captured found
    rw [Captures.find?_cons, Captures.find?_cons] at found
    split at found
    · obtain rfl := Option.some.inj found
      decide +kernel
    · split at found
      · obtain rfl := Option.some.inj found
        decide
      · cases found
  exact ⟨trimmed, (instantiate_leavesOut template captures).2 trimmed⟩

end TokenMacros
