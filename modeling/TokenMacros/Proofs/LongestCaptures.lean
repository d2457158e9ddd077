import TokenMacros.Proofs.BalancedRuns
import TokenMacros.Source.Lex

/-!
# Longest captures

Where a capture in front of a closing delimiter ends.  It takes as many tokens
as it can without closing more than it opens; if it does not take all of them,
it stops in front of the closing delimiter, and what it took is balanced.
-/

namespace TokenMacros

/-- The tokens from a position on.  A negative position counts from the end; one
that is out of range stands for the nearer end. -/
def tokensFrom (tokens : List Token) (start : Int) : List Token :=
  tokens.drop (if 0 ≤ start then start else tokens.length + start).toNat

/-- The longest one among the fronts of a list that have a property. -/
structure LongestFront {α : Type} (p : List α → Prop) (list front : List α) :
    Prop where
  isPrefix : front <+: list
  holds : p front
  longest : ∀ other, other <+: list → p other → other.length ≤ front.length

theorem LongestFront.unique {α : Type} {p : List α → Prop}
    {list front front' : List α} (longest : LongestFront p list front)
    (longest' : LongestFront p list front') : front' = front := by
  have le := longest.longest front' longest'.isPrefix longest'.holds
  have ge := longest'.longest front longest.isPrefix longest.holds
  have inside : front' <+: front :=
    List.prefix_of_prefix_length_le longest'.isPrefix longest.isPrefix le
  exact inside.eq_of_length (Nat.le_antisymm le ge)

/-- The run is the longest of those prefixes of the tokens in which no prefix
closes more delimiters than it opens. -/
structure LongestCovered (opening closing : String) (tokens run : List Token) :
    Prop where
  isPrefix : run <+: tokens
  covers : Covers opening closing 0 run
  longest : ∀ other, other <+: tokens → Covers opening closing 0 other →
    other.length ≤ run.length

section Run

variable {opening closing : String}

theorem occurrences_append (text : String) (front back : List Token) :
    occurrences text (front ++ back) =
      occurrences text front + occurrences text back :=
  List.countP_append

/-- No covered prefix reaches beyond a run: it would close what is not open. -/
theorem balancedRun_longest (distinct : opening ≠ closing) {depth : Nat}
    {tokens other : List Token} (isPrefix : other <+: tokens)
    (covers : Covers opening closing depth other) :
    other.length ≤ (balancedRun opening closing depth tokens).length := by
  have runPrefix : balancedRun opening closing depth tokens <+: tokens :=
    balancedRun_isPrefix depth tokens
  have stop {closer : Token} {behind : List Token} :=
    @balancedRun_stop opening closing distinct depth tokens behind closer
  generalize balancedRun opening closing depth tokens = run at runPrefix stop ⊢
  rcases List.prefix_or_prefix_of_prefix isPrefix runPrefix with
    shorter | ⟨further, rfl⟩
  · exact shorter.length_le
  · cases further with
    | nil => simp
    | cons closer further =>
        obtain ⟨behind, split⟩ := isPrefix
        have stopped : tokens.drop run.length = closer :: (further ++ behind) := by
          rw [← split, List.append_assoc, List.drop_left, List.cons_append]
        obtain ⟨closes, settled⟩ := stop stopped
        have opensNothing : closer.text ≠ opening := by
          rw [closes]
          exact distinct.symm
        have closed : run ++ [closer] <+: run ++ closer :: further :=
          (List.prefix_append_right_inj run).mpr ⟨further, rfl⟩
        have fewer := covers (run ++ [closer]) closed
        simp only [occurrences_append, occurrences_cons, occurrences_nil,
          if_pos closes, if_neg opensNothing] at fewer
        omega

theorem balancedRun_longestCovered (distinct : opening ≠ closing)
    (tokens : List Token) :
    LongestCovered opening closing tokens
      (balancedRun opening closing 0 tokens) where
  isPrefix := balancedRun_isPrefix 0 tokens
  covers := balancedRun_covers distinct 0 tokens
  longest _ isPrefix covers := balancedRun_longest distinct isPrefix covers

theorem LongestCovered.longestFront {tokens run : List Token}
    (longest : LongestCovered opening closing tokens run) :
    LongestFront (Covers opening closing 0) tokens run where
  isPrefix := longest.isPrefix
  holds := longest.covers
  longest := longest.longest

theorem LongestCovered.unique {tokens run run' : List Token}
    (longest : LongestCovered opening closing tokens run)
    (longest' : LongestCovered opening closing tokens run') : run' = run :=
  longest.longestFront.unique longest'.longestFront

end Run

/-- From every position of a row of tokens, capturing up to a closing delimiter
gives the longest prefix in which nothing is closed that was not opened, and
this prefix alone.  Where tokens are left, the first of them is the closing
delimiter, and all that the captured ones open they close. -/
theorem captureUntil_longest {opening closing : String}
    (pair : opening? closing = some opening) (tokens : List Token)
    (start : Int) :
    let rest := tokensFrom tokens start
    (∀ run, captureUntil closing rest = .ok run ↔
      LongestCovered opening closing rest run) ∧
    ∃ captured, captureUntil closing rest = .ok captured ∧
      (captured.length < rest.length →
        ∃ closer behind, rest = captured ++ closer :: behind ∧
          closer.text = closing ∧
          occurrences opening captured = occurrences closing captured) := by
  intro rest
  have distinct := opening?_ne pair
  have longest := balancedRun_longestCovered distinct rest
  have answer : captureUntil closing rest =
      .ok (balancedRun opening closing 0 rest) := by
    rw [captureUntil, pair]
  refine ⟨?_, _, answer, ?_⟩
  · intro run
    rw [answer, Except.ok.injEq]
    constructor
    · rintro rfl
      exact longest
    · exact fun longest' => longest'.unique longest
  · intro shorter
    obtain ⟨further, split⟩ := longest.isPrefix
    cases further with
    | nil =>
        rw [← congrArg List.length split, List.append_nil] at shorter
        exact absurd shorter (Nat.lt_irrefl _)
    | cons closer behind =>
        have stopped : rest.drop (balancedRun opening closing 0 rest).length =
            closer :: behind :=
          (congrArg (List.drop _) split).symm.trans List.drop_left
        exact ⟨closer, behind, split.symm,
          (balancedRun_stop distinct stopped).1,
          (balancedRun_balanced pair stopped).settled⟩

/-- Brackets of another pair are crossed by those that count. -/
theorem captureUntil_longest_across :
    let tokens := lexCode "f((a[)])]b)c"
    let rest := tokensFrom tokens (-10)
    opening? ")" = some "(" ∧
    (∀ run, captureUntil ")" rest = .ok run ↔
      LongestCovered "(" ")" rest run) ∧
    ∃ captured, captureUntil ")" rest = .ok captured ∧
      (captured.length < rest.length →
        ∃ closer behind, rest = captured ++ closer :: behind ∧
          closer.text = ")" ∧
          occurrences "(" captured = occurrences ")" captured) := by
  intro tokens rest
  exact ⟨rfl, captureUntil_longest rfl tokens (-10)⟩

end TokenMacros
