import TokenMacros.Expansion.Run
import TokenMacros.Proofs.PatternDecomposition
import TokenMacros.Proofs.PlainInstances

/-!
# Outlines

Expansion looks at two things of a token: its text and whether it is trivia.
The outline of a token keeps these two.  Matching commutes with outlines, and
passes over tokens with the same outlines make tokens with the same outlines.
-/

namespace TokenMacros

namespace Token

/-- The token of the same text, trivia or not, without its kind and line. -/
def outline (token : Token) : Token :=
  if token.isTrivia then .classified .whitespace token.text 0
  else .bare token.text

@[simp] theorem text_outline (token : Token) :
    token.outline.text = token.text := by
  unfold outline
  split <;> rfl

@[simp] theorem isTrivia_outline (token : Token) :
    token.outline.isTrivia = token.isTrivia := by
  unfold outline
  split
  · next trivia => exact trivia.symm
  · next plain => exact (Bool.eq_false_iff.mpr plain).symm

theorem outline_eq_iff {left right : Token} :
    left.outline = right.outline ↔
      left.text = right.text ∧ left.isTrivia = right.isTrivia := by
  constructor
  · intro same
    have texts := congrArg text same
    have trivia := congrArg isTrivia same
    exact ⟨by simpa using texts, by simpa using trivia⟩
  · rintro ⟨texts, trivia⟩
    rw [outline, outline, texts, trivia]

end Token

/-- The outlines of all tokens. -/
def outlines (tokens : List Token) : List Token :=
  tokens.map Token.outline

@[simp] theorem outlines_nil : outlines [] = [] := rfl

@[simp] theorem outlines_cons (token : Token) (tokens : List Token) :
    outlines (token :: tokens) = token.outline :: outlines tokens := rfl

@[simp] theorem outlines_append (left right : List Token) :
    outlines (left ++ right) = outlines left ++ outlines right :=
  List.map_append

@[simp] theorem length_outlines (tokens : List Token) :
    (outlines tokens).length = tokens.length :=
  List.length_map _

theorem outlines_drop (count : Nat) (tokens : List Token) :
    outlines (tokens.drop count) = (outlines tokens).drop count :=
  List.map_drop

theorem texts_eq_of_outlines {left right : List Token}
    (same : outlines left = outlines right) : texts left = texts right := by
  have shown := congrArg texts same
  simpa [texts, outlines, Function.comp_def] using shown

theorem exists_cons_of_texts {token : Token} {rest tokens : List Token}
    (same : texts (token :: rest) = texts tokens) :
    ∃ token' rest', tokens = token' :: rest' := by
  cases tokens with
  | nil => cases same
  | cons token' rest' => exact ⟨token', rest', rfl⟩

/-! ## Matching -/

theorem skipTrivia_outlines (tokens : List Token) :
    skipTrivia (outlines tokens) = outlines (skipTrivia tokens) := by
  unfold skipTrivia outlines
  rw [List.dropWhile_map]
  simp [Function.comp_def]

theorem balancedRun_outlines (opening closing : String) (depth : Nat)
    (tokens : List Token) :
    balancedRun opening closing depth (outlines tokens) =
      outlines (balancedRun opening closing depth tokens) := by
  fun_induction balancedRun opening closing depth tokens with
  | case1 => rfl
  | case2 depth token rest opens induction =>
      have outlineOpens : token.outline.text = opening := by simpa using opens
      rw [outlines_cons, outlines_cons, balancedRun_opens outlineOpens,
        induction]
  | case3 token rest notOpening closes =>
      have opensNothing : token.outline.text ≠ opening := by simpa using notOpening
      have outlineCloses : token.outline.text = closing := by simpa using closes
      rw [outlines_cons, balancedRun_closes_outer opensNothing outlineCloses]
      rfl
  | case4 token rest notOpening closes depth induction =>
      have opensNothing : token.outline.text ≠ opening := by simpa using notOpening
      have outlineCloses : token.outline.text = closing := by simpa using closes
      rw [outlines_cons, outlines_cons,
        balancedRun_closes_inner opensNothing outlineCloses, induction]
  | case5 depth token rest notOpening notClosing induction =>
      have opensNothing : token.outline.text ≠ opening := by simpa using notOpening
      have closesNothing : token.outline.text ≠ closing := by simpa using notClosing
      rw [outlines_cons, outlines_cons,
        balancedRun_plain opensNothing closesNothing, induction]

@[simp] theorem PatternElement.accepts_outline (element : PatternElement)
    (actual : Token) :
    element.accepts actual.outline = element.accepts actual := by
  cases element with
  | token expected => simp [accepts]
  | placeholder index name => rfl

theorem acceptsAll_outlines (pattern : List PatternElement)
    (tokens : List Token) :
    acceptsAll pattern (outlines tokens) = acceptsAll pattern tokens := by
  fun_induction acceptsAll pattern tokens with
  | case1 => rfl
  | case2 => rfl
  | case3 element pattern token tokens induction =>
      rw [outlines_cons, acceptsAll, PatternElement.accepts_outline, induction]

theorem takeWhile_not_accepts_outlines (element : PatternElement)
    (tokens : List Token) :
    (outlines tokens).takeWhile (fun token => !element.accepts token) =
      outlines (tokens.takeWhile fun token => !element.accepts token) := by
  unfold outlines
  rw [List.takeWhile_map]
  simp [Function.comp_def]

namespace Captures

/-- The outlines of all captured tokens. -/
def outline (captures : Captures) : Captures :=
  captures.map fun entry => (entry.1, outlines entry.2)

@[simp] theorem outline_nil : outline [] = [] := rfl

@[simp] theorem outline_cons (name : String) (tokens : List Token)
    (captures : Captures) :
    outline ((name, tokens) :: captures) =
      (name, outlines tokens) :: captures.outline := rfl

theorem bind_outline (captures : Captures) (name : String)
    (tokens : List Token) :
    captures.outline.bind name (outlines tokens) =
      (captures.bind name tokens).outline := by
  induction captures with
  | nil => rfl
  | cons entry captures induction =>
      obtain ⟨bound, held⟩ := entry
      rw [outline_cons, bind, bind]
      split
      · rfl
      · rw [induction]
        rfl

theorem find?_outline (captures : Captures) (name : String) :
    captures.outline.find? name = (captures.find? name).map outlines := by
  induction captures with
  | nil => rfl
  | cons entry captures induction =>
      obtain ⟨bound, held⟩ := entry
      rw [outline_cons, find?_cons, find?_cons]
      split
      · rfl
      · exact induction

end Captures

theorem literalInput_outlines (expected : Token) (tokens : List Token) :
    (if expected.text = " " then outlines tokens
      else skipTrivia (outlines tokens)) =
      outlines (if expected.text = " " then tokens else skipTrivia tokens) := by
  split
  · rfl
  · exact skipTrivia_outlines tokens

/-- A walk along outlines captures and leaves the outlines of what a walk along
the tokens captures and leaves. -/
theorem walk_outlines (pattern : List PatternElement) (tokens : List Token)
    (captures : Captures) :
    walk pattern (outlines tokens) captures.outline =
      (walk pattern tokens captures).map fun walked =>
        (walked.1.outline, outlines walked.2) := by
  fun_induction walk pattern tokens captures with
  | case1 tokens captures => cases tokens <;> rfl
  | case2 => rfl
  | case3 expected pattern token tokens captures input nothing =>
      have front := literalInput_outlines expected (token :: tokens)
      rw [outlines_cons] at front ⊢
      simp only [walk, front]
      rw [show (if expected.text = " " then _ else _) = [] from nothing]
      rfl
  | case4 expected pattern token tokens captures input first behind found same
      induction =>
      have front := literalInput_outlines expected (token :: tokens)
      rw [outlines_cons] at front ⊢
      simp only [walk, front]
      rw [show (if expected.text = " " then _ else _) = first :: behind from found]
      simp [same, induction]
  | case5 expected pattern token tokens captures input first behind found
      different =>
      have front := literalInput_outlines expected (token :: tokens)
      rw [outlines_cons] at front ⊢
      simp only [walk, front]
      rw [show (if expected.text = " " then _ else _) = first :: behind from found]
      simp [different]
  | case6 index name token tokens captures =>
      rw [outlines_cons, walk, ← outlines_cons, Captures.bind_outline]
      rfl
  | case7 index name terminator pattern token tokens captures opening pair
      captured stopped =>
      have run : balancedRun opening terminator.text 0
          (token.outline :: outlines tokens) = outlines captured :=
        balancedRun_outlines opening terminator.text 0 (token :: tokens)
      have left := outlines_drop captured.length (token :: tokens)
      rw [stopped, outlines_cons] at left
      rw [outlines_cons]
      simp only [walk, pair, run, length_outlines, ← left]
      rfl
  | case8 index name terminator pattern token tokens captures opening pair
      captured closer behind stopped induction =>
      have run : balancedRun opening terminator.text 0
          (token.outline :: outlines tokens) = outlines captured :=
        balancedRun_outlines opening terminator.text 0 (token :: tokens)
      have left := outlines_drop captured.length (token :: tokens)
      rw [stopped, outlines_cons, outlines_cons] at left
      rw [outlines_cons]
      simp only [walk, pair, run, length_outlines, ← left,
        Captures.bind_outline, induction]
  | case9 index name terminator pattern token tokens captures notClosing input
      captured induction =>
      have front : skipTrivia (token.outline :: outlines tokens) =
          outlines input := skipTrivia_outlines (token :: tokens)
      rw [outlines_cons]
      simp only [walk, notClosing, front, takeWhile_not_accepts_outlines,
        length_outlines, ← outlines_drop, Captures.bind_outline]
      exact induction

/-- The candidate with the outlines of its captures. -/
def Candidate.outline (candidate : Candidate) : Candidate :=
  { candidate with captures := candidate.captures.outline }

theorem Candidate.of_outline_eq {left right : Candidate}
    (same : left.outline = right.outline) :
    left.rule = right.rule ∧ left.captures.outline = right.captures.outline ∧
      left.consumed = right.consumed := by
  simpa [outline] using same

theorem Rule.candidate?_outlines (rule : Rule) (tokens : List Token) :
    rule.candidate? (outlines tokens) =
      (rule.candidate? tokens).map Candidate.outline := by
  unfold Rule.candidate?
  cases rule.elements with
  | nil => rfl
  | cons first pattern =>
      cases tokens with
      | nil => rfl
      | cons token rest =>
          have walked := walk_outlines (first :: pattern) (token :: rest) []
          have accepted := acceptsAll_outlines (first :: pattern) (token :: rest)
          simp only [outlines_cons, PatternElement.accepts_outline,
            Captures.outline_nil, List.length_cons, length_outlines]
            at walked accepted ⊢
          simp only [walked, accepted]
          split
          · rfl
          split
          · simp [Option.map_map, Function.comp_def, Candidate.outline]
          split
          · rfl
          · rfl

theorem Rule.singleTokenCandidate?_outline (rule : Rule) (token : Token) :
    rule.singleTokenCandidate? token.outline =
      (rule.singleTokenCandidate? token).map Candidate.outline := by
  simp only [Rule.singleTokenCandidate?, PatternElement.accepts_outline]
  split <;> rfl

theorem findSome?_map_outline (rules : List Rule)
    {search search' : Rule → Option Candidate}
    (outlined : ∀ rule, search' rule = (search rule).map Candidate.outline) :
    rules.findSome? search' = (rules.findSome? search).map Candidate.outline := by
  induction rules with
  | nil => rfl
  | cons rule rules induction =>
      rw [List.findSome?_cons, List.findSome?_cons, outlined rule]
      cases search rule with
      | none => exact induction
      | some candidate => rfl

theorem chosen?_outlines (rules : List Rule) (fallback : Bool)
    (tokens : List Token) :
    chosen? rules fallback (outlines tokens) =
      (chosen? rules fallback tokens).map Candidate.outline := by
  have matched := findSome?_map_outline rules
    fun rule => Rule.candidate?_outlines rule tokens
  unfold chosen?
  rw [matched]
  cases rules.findSome? fun rule => rule.candidate? tokens with
  | some candidate => rfl
  | none =>
      cases fallback with
      | false => rfl
      | true =>
          cases tokens with
          | nil => rfl
          | cons token rest =>
              exact findSome?_map_outline rules
                fun rule => Rule.singleTokenCandidate?_outline rule token

/-! ## Substitution and passes -/

@[simp] theorem Token.isPlainSpace_outline (token : Token) :
    token.outline.isPlainSpace = token.isPlainSpace := by
  simp [isPlainSpace]

theorem any_head?_outlines {p : Token → Bool}
    (outlined : ∀ token : Token, p token.outline = p token)
    (tokens : List Token) :
    (outlines tokens).head?.any p = tokens.head?.any p := by
  cases tokens with
  | nil => rfl
  | cons token rest => exact outlined token

theorem any_getLast?_outlines {p : Token → Bool}
    (outlined : ∀ token : Token, p token.outline = p token)
    (tokens : List Token) :
    (outlines tokens).getLast?.any p = tokens.getLast?.any p := by
  unfold outlines
  rw [List.getLast?_map]
  cases tokens.getLast? with
  | none => rfl
  | some token => exact outlined token

theorem outlines_reverse (tokens : List Token) :
    outlines tokens.reverse = (outlines tokens).reverse :=
  List.map_reverse

theorem outlines_tail (tokens : List Token) :
    outlines tokens.tail = (outlines tokens).tail :=
  List.map_tail

theorem instantiateAfter_outlines {captures captures' : Captures}
    (sameCaptures : captures.outline = captures'.outline)
    {emitted emitted' : List Token} (same : outlines emitted = outlines emitted')
    (skipSpace : Bool) (template : List ReplacementElement) :
    outlines (instantiateAfter captures emitted skipSpace template) =
      outlines (instantiateAfter captures' emitted' skipSpace template) := by
  induction template generalizing emitted emitted' skipSpace with
  | nil =>
      rw [instantiateAfter, instantiateAfter, outlines_reverse,
        outlines_reverse, same]
  | cons element template induction =>
      unfold instantiateAfter
      split
      · exact induction same false
      · cases element with
        | token token =>
            apply induction
            rw [outlines_cons, outlines_cons, same]
        | reference name =>
            have found := Captures.find?_outline captures name
            rw [sameCaptures, Captures.find?_outline] at found
            cases held : captures.find? name with
            | none =>
                rw [held, Option.map_none, Option.map_eq_none_iff] at found
                simp only [held, found]
                apply induction
                rw [outlines_cons, outlines_cons, same]
            | some captured =>
                rw [held, Option.map_some, Option.map_eq_some_iff] at found
                obtain ⟨captured', held', sameHeld⟩ := found
                have starts :=
                  any_head?_outlines Token.isTrivia_outline captured'
                have ends :=
                  any_getLast?_outlines Token.isTrivia_outline captured'
                have spaced :=
                  any_head?_outlines Token.isPlainSpace_outline emitted'
                rw [sameHeld, any_head?_outlines Token.isTrivia_outline]
                  at starts
                rw [sameHeld, any_getLast?_outlines Token.isTrivia_outline]
                  at ends
                rw [← same, any_head?_outlines Token.isPlainSpace_outline]
                  at spaced
                simp only [held, held', starts, ends, spaced]
                apply induction
                rw [outlines_append, outlines_append, outlines_reverse,
                  outlines_reverse, sameHeld]
                split
                · rw [outlines_tail, outlines_tail, same]
                · rw [same]

theorem chosen?_of_outlines {tokens tokens' : List Token}
    (same : outlines tokens = outlines tokens') (rules : List Rule)
    (fallback : Bool) :
    (chosen? rules fallback tokens).map Candidate.outline =
      (chosen? rules fallback tokens').map Candidate.outline := by
  rw [← chosen?_outlines, same, chosen?_outlines]

/-- Passes over tokens with the same outlines make tokens with the same
outlines. -/
theorem pass_outlines (rules : List Rule) (fallback : Bool)
    {tokens tokens' : List Token} (same : outlines tokens = outlines tokens') :
    outlines (pass rules fallback tokens) =
      outlines (pass rules fallback tokens') := by
  fun_induction pass rules fallback tokens generalizing tokens' with
  | case1 =>
      have nothing : tokens' = [] := List.map_eq_nil_iff.mp same.symm
      rw [nothing, pass]
  | case2 token rest unmatched induction =>
      obtain ⟨token', rest', rfl⟩ := exists_cons_of_texts (texts_eq_of_outlines same)
      have chosen := chosen?_of_outlines same rules fallback
      rw [unmatched, Option.map_none, eq_comm, Option.map_eq_none_iff]
        at chosen
      rw [outlines_cons, outlines_cons, List.cons.injEq] at same
      rw [pass, chosen, outlines_cons, outlines_cons, same.1,
        induction same.2]
  | case3 token rest candidate applied induction =>
      obtain ⟨token', rest', rfl⟩ := exists_cons_of_texts (texts_eq_of_outlines same)
      have chosen := chosen?_of_outlines same rules fallback
      rw [applied, Option.map_some, eq_comm, Option.map_eq_some_iff] at chosen
      obtain ⟨candidate', applied', sameCandidate⟩ := chosen
      obtain ⟨sameRule, sameCaptures, sameTaken⟩ :=
        Candidate.of_outline_eq sameCandidate
      rw [outlines_cons, outlines_cons, List.cons.injEq] at same
      have left : outlines (rest.drop (candidate.consumed - 1)) =
          outlines (rest'.drop (candidate.consumed - 1)) := by
        rw [outlines_drop, outlines_drop, same.2]
      rw [pass, applied', outlines_append, outlines_append, sameRule,
        sameTaken, induction left]
      congr 1
      exact instantiateAfter_outlines sameCaptures.symm rfl false _

end TokenMacros
