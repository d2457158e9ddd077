import TokenMacros.Proofs.PlainInstances

/-!
# Spaces that are left out

Instantiation is followed with the tokens that it leaves out kept beside the
others and marked.  All of them are single spaces, and each of them has trivia
beside it that was captured.
-/

namespace TokenMacros

/-- A token of a plain instance, and whether instantiation leaves it out. -/
structure Placed where
  token : Token
  leftOut : Bool
  deriving Repr, DecidableEq

namespace Placed

def tokens (placed : List Placed) : List Token :=
  placed.map token

/-- The tokens that are not left out. -/
def kept (placed : List Placed) : List Token :=
  tokens (placed.filter fun one => !one.leftOut)

/-- Leaves out the last token that is kept; the tokens are in reverse. -/
def leaveOutLast : List Placed → List Placed
  | [] => []
  | last :: before =>
    if last.leftOut then last :: leaveOutLast before
    else ⟨last.token, true⟩ :: before

/-- Puts captured tokens behind the tokens `before`, which are in reverse. -/
def capture (before : List Placed) : List Token → List Placed
  | [] => before
  | token :: tokens => capture (⟨token, false⟩ :: before) tokens

end Placed

/-- The instance of the remaining elements behind the tokens `emitted`, which
are in reverse.  Whether the next token is left out is told by `skipSpace` and
its text. -/
def placeAfter (captures : Captures) (emitted : List Placed)
    (skipSpace : Bool) : List ReplacementElement → List Placed
  | [] => emitted.reverse
  | .token token :: elements =>
    placeAfter captures (⟨token, skipSpace && token.isPlainSpace⟩ :: emitted)
      false elements
  | .reference name :: elements =>
    match captures.find? name with
    | none =>
      placeAfter captures (⟨.bare (referenceText name), false⟩ :: emitted)
        false elements
    | some captured =>
      let before :=
        if captured.head?.any Token.isTrivia &&
            (Placed.kept emitted).head?.any Token.isPlainSpace then
          Placed.leaveOutLast emitted
        else emitted
      placeAfter captures (Placed.capture before captured)
        (captured.getLast?.any Token.isTrivia) elements

/-- The tokens of a plain instance. -/
def place (template : List ReplacementElement) (captures : Captures) :
    List Placed :=
  placeAfter captures [] false template

namespace Placed

@[simp] theorem tokens_cons (one : Placed) (placed : List Placed) :
    tokens (one :: placed) = one.token :: tokens placed := rfl

@[simp] theorem tokens_reverse (placed : List Placed) :
    tokens placed.reverse = (tokens placed).reverse :=
  List.map_reverse

theorem kept_reverse (placed : List Placed) :
    kept placed.reverse = (kept placed).reverse := by
  rw [kept, List.filter_reverse, tokens_reverse, kept]

theorem kept_cons_false (token : Token) (placed : List Placed) :
    kept (⟨token, false⟩ :: placed) = token :: kept placed := rfl

theorem kept_cons_true (token : Token) (placed : List Placed) :
    kept (⟨token, true⟩ :: placed) = kept placed := rfl

theorem tokens_leaveOutLast (placed : List Placed) :
    tokens (leaveOutLast placed) = tokens placed := by
  induction placed with
  | nil => rfl
  | cons last before induction =>
      rw [leaveOutLast]
      split
      · rw [tokens_cons, tokens_cons, induction]
      · rfl

theorem kept_leaveOutLast (placed : List Placed) :
    kept (leaveOutLast placed) = (kept placed).tail := by
  induction placed with
  | nil => rfl
  | cons last before induction =>
      obtain ⟨token, leftOut⟩ := last
      cases leftOut with
      | true => exact induction
      | false => rfl

theorem tokens_capture (before : List Placed) (captured : List Token) :
    tokens (capture before captured) = captured.reverse ++ tokens before := by
  induction captured generalizing before with
  | nil => rfl
  | cons token captured induction =>
      rw [capture, induction, tokens_cons, List.reverse_cons,
        List.append_assoc, List.singleton_append]

theorem kept_capture (before : List Placed) (captured : List Token) :
    kept (capture before captured) = captured.reverse ++ kept before := by
  induction captured generalizing before with
  | nil => rfl
  | cons token captured induction =>
      rw [capture, induction, kept_cons_false, List.reverse_cons,
        List.append_assoc, List.singleton_append]

end Placed

/-! ## What is placed and what is kept -/

theorem tokens_placeAfter (captures : Captures) (emitted : List Placed)
    (skipSpace : Bool) (template : List ReplacementElement) :
    Placed.tokens (placeAfter captures emitted skipSpace template) =
      (Placed.tokens emitted).reverse ++ plainInstance template captures := by
  fun_induction placeAfter captures emitted skipSpace template with
  | case1 emitted => simp
  | case2 emitted skipSpace token elements induction =>
      rw [induction]
      simp [ReplacementElement.plain]
  | case3 emitted skipSpace name elements unresolved induction =>
      rw [induction]
      simp [ReplacementElement.plain, unresolved]
  | case4 emitted skipSpace name elements captured resolved before induction =>
      have same : Placed.tokens before = Placed.tokens emitted := by
        simp only [before]
        split
        · exact Placed.tokens_leaveOutLast emitted
        · rfl
      rw [induction, Placed.tokens_capture, same, plainInstance_cons,
        ReplacementElement.plain, resolved]
      simp

theorem kept_placeAfter (captures : Captures) (emitted : List Placed)
    (skipSpace : Bool) (template : List ReplacementElement) :
    Placed.kept (placeAfter captures emitted skipSpace template) =
      instantiateAfter captures (Placed.kept emitted) skipSpace template := by
  fun_induction placeAfter captures emitted skipSpace template with
  | case1 emitted => rw [Placed.kept_reverse, instantiateAfter]
  | case2 emitted skipSpace token elements induction =>
      have elementSpace : (ReplacementElement.token token).isPlainSpace =
          token.isPlainSpace := rfl
      rw [induction, instantiateAfter]
      cases skipped : skipSpace && token.isPlainSpace with
      | true => rw [Placed.kept_cons_true, elementSpace, if_pos skipped]
      | false =>
          rw [Placed.kept_cons_false, elementSpace, skipped,
            if_neg Bool.false_ne_true]
  | case3 emitted skipSpace name elements unresolved induction =>
      rw [induction, instantiateAfter]
      simp [ReplacementElement.isPlainSpace, unresolved, Placed.kept_cons_false]
  | case4 emitted skipSpace name elements captured resolved before induction =>
      have same : Placed.kept before =
          if captured.head?.any Token.isTrivia &&
              (Placed.kept emitted).head?.any Token.isPlainSpace then
            (Placed.kept emitted).tail
          else Placed.kept emitted := by
        simp only [before]
        split
        · exact Placed.kept_leaveOutLast emitted
        · rfl
      rw [induction, Placed.kept_capture, same, instantiateAfter]
      simp [ReplacementElement.isPlainSpace, resolved]

theorem tokens_place (template : List ReplacementElement)
    (captures : Captures) :
    Placed.tokens (place template captures) =
      plainInstance template captures :=
  tokens_placeAfter captures [] false template

theorem kept_place (template : List ReplacementElement) (captures : Captures) :
    Placed.kept (place template captures) = instantiate template captures :=
  kept_placeAfter captures [] false template

/-! ## What stands beside a space that is left out -/

namespace Placed

/-- Each of the tokens, which are in reverse, is a single space if it is left
out, and trivia stands beside it: it follows, or it is kept in front.  The last
one is followed by `next`. -/
def SpacesBeside (next : Option Token) : List Placed → Prop
  | [] => True
  | one :: before =>
    (one.leftOut = true → one.token.isPlainSpace = true ∧
      (next.any Token.isTrivia = true ∨
        ∃ last ∈ before.head?,
          last.token.isTrivia = true ∧ last.leftOut = false)) ∧
      SpacesBeside (some one.token) before

theorem isTrivia_of_isPlainSpace {token : Token}
    (space : token.isPlainSpace = true) : token.isTrivia = true :=
  (Bool.and_eq_true_iff.mp space).1

namespace SpacesBeside

variable {before : List Placed}

theorem before_any (spaces : SpacesBeside none before) (next : Option Token) :
    SpacesBeside next before := by
  cases before with
  | nil => trivial
  | cons one before =>
      refine ⟨?_, spaces.2⟩
      intro left
      obtain ⟨space, beside⟩ := spaces.1 left
      rcases beside with none | last
      · cases none
      · exact ⟨space, .inr last⟩

theorem keep {token : Token} (spaces : SpacesBeside (some token) before)
    (next : Option Token) : SpacesBeside next (⟨token, false⟩ :: before) := by
  refine ⟨?_, spaces⟩
  intro left
  cases left

theorem capture {captured : List Token}
    (spaces : SpacesBeside captured.head? before) :
    SpacesBeside none (Placed.capture before captured) := by
  induction captured generalizing before with
  | nil => exact spaces
  | cons token captured induction =>
      apply induction
      exact keep spaces _

theorem leaveOutLast {next next' : Option Token}
    (spaces : SpacesBeside next' before)
    (trivia : next.any Token.isTrivia = true)
    (last : (kept before).head?.any Token.isPlainSpace = true) :
    SpacesBeside next (Placed.leaveOutLast before) := by
  induction before generalizing next next' with
  | nil => trivial
  | cons one before induction =>
      obtain ⟨token, leftOut⟩ := one
      cases leftOut with
      | true =>
          have space := (spaces.1 rfl).1
          rw [kept_cons_true] at last
          refine ⟨fun _ => ⟨space, .inl trivia⟩, ?_⟩
          exact induction spaces.2 (isTrivia_of_isPlainSpace space) last
      | false =>
          rw [kept_cons_false] at last
          exact ⟨fun _ => ⟨last, .inl trivia⟩, spaces.2⟩

end SpacesBeside

theorem head?_capture (before : List Placed) {captured : List Token}
    {last : Token} (isLast : captured.getLast? = some last) :
    (capture before captured).head? = some ⟨last, false⟩ := by
  induction captured generalizing before with
  | nil => cases isLast
  | cons token captured induction =>
      rw [capture]
      cases captured with
      | nil =>
          obtain rfl := Option.some.inj isLast
          rfl
      | cons second captured =>
          apply induction
          rwa [List.getLast?_cons_cons] at isLast

end Placed

theorem spacesBeside_placeAfter {captures : Captures} {emitted : List Placed}
    {skipSpace : Bool} {template : List ReplacementElement}
    (spaces : Placed.SpacesBeside none emitted)
    (skips : skipSpace = true → ∃ last ∈ emitted.head?,
      last.token.isTrivia = true ∧ last.leftOut = false) :
    Placed.SpacesBeside none
      (placeAfter captures emitted skipSpace template).reverse := by
  fun_induction placeAfter captures emitted skipSpace template with
  | case1 emitted => rwa [List.reverse_reverse]
  | case2 emitted skipSpace token elements induction =>
      apply induction
      · refine ⟨?_, spaces.before_any _⟩
        intro left
        obtain ⟨skipped, space⟩ := Bool.and_eq_true_iff.mp left
        exact ⟨space, .inr (skips skipped)⟩
      · intro skipped
        cases skipped
  | case3 emitted skipSpace name elements unresolved induction =>
      apply induction
      · exact (spaces.before_any _).keep _
      · intro skipped
        cases skipped
  | case4 emitted skipSpace name elements captured resolved before induction =>
      apply induction
      · apply Placed.SpacesBeside.capture
        simp only [before]
        split
        · next brings =>
            obtain ⟨trivia, last⟩ := Bool.and_eq_true_iff.mp brings
            exact spaces.leaveOutLast trivia last
        · exact spaces.before_any _
      · intro ends
        obtain ⟨last, isLast, trivia⟩ := (Option.any_eq_true _ _).mp ends
        exact ⟨_, Placed.head?_capture before isLast, trivia, rfl⟩

theorem Placed.SpacesBeside.of_append {next : Option Token}
    {after before : List Placed} {one : Placed}
    (spaces : SpacesBeside next (after ++ one :: before))
    (left : one.leftOut = true) :
    one.token.isPlainSpace = true ∧
      (((after.getLast?.map Placed.token).or next).any Token.isTrivia = true ∨
        ∃ last ∈ before.head?,
          last.token.isTrivia = true ∧ last.leftOut = false) := by
  induction after generalizing next with
  | nil => exact spaces.1 left
  | cons following after induction =>
      have beside := induction spaces.2
      rw [List.getLast?_cons]
      cases last : after.getLast? with
      | none => rwa [last] at beside
      | some found => rwa [last] at beside

/-- What instantiation leaves out are single spaces; trivia follows them, or is
kept in front of them. -/
theorem beside_of_place {template : List ReplacementElement}
    {captures : Captures} {before after : List Placed} {one : Placed}
    (split : place template captures = before ++ one :: after)
    (left : one.leftOut = true) :
    one.token.isPlainSpace = true ∧
      ((∃ next ∈ after.head?, next.token.isTrivia = true) ∨
        ∃ last ∈ before.getLast?,
          last.token.isTrivia = true ∧ last.leftOut = false) := by
  have spaces : Placed.SpacesBeside none (place template captures).reverse :=
    spacesBeside_placeAfter trivial fun skipped => by cases skipped
  rw [split, List.reverse_append, List.reverse_cons, List.append_assoc,
    List.singleton_append] at spaces
  have beside := spaces.of_append left
  rw [List.getLast?_reverse, List.head?_reverse, Option.or_none] at beside
  refine beside.imp_right (Or.imp_left ?_)
  intro follows
  obtain ⟨token, isHead, trivia⟩ := (Option.any_eq_true _ _).mp follows
  obtain ⟨next, isNext, rfl⟩ := Option.map_eq_some_iff.mp isHead
  exact ⟨next, isNext, trivia⟩

end TokenMacros
