import Mathlib.Order.Bounds.Basic
import TokenMacros.Proofs.BracedTexts

/-!
# Matching braces

The two searches that respect nesting agree: the brace that matches an opening
one stands behind what is captured up to a closing brace from there on, if
anything does.  It is the first place at which more braces are closed than
opened.
-/

namespace TokenMacros

/-- More braces are closed than opened in a text. -/
def Overclosed (text : List Char) : Prop :=
  text.count '\x7b' < text.count '\x7d'

instance (text : List Char) : Decidable (Overclosed text) :=
  Nat.decLt _ _

/-- The text behind an index, up to and with another index, closes more braces
than it opens. -/
structure ClosesAt (text : List Char) (openIndex index : Nat) : Prop where
  behind : openIndex < index
  inside : index < text.length
  closes : Overclosed ((text.take (index + 1)).drop (openIndex + 1))

/-- The first character that closes too much is a closing brace behind a text
that leaves nothing open. -/
theorem overclosed_concat_iff {body : List Char} {last : Char}
    (covered : ¬ Overclosed body) :
    Overclosed (body ++ [last]) ↔
      last = '\x7d' ∧ body.count '\x7b' = body.count '\x7d' := by
  unfold Overclosed at covered ⊢
  rw [List.count_append, List.count_append]
  by_cases closes : last = '\x7d'
  · subst closes
    have opened : ['\x7d'].count '\x7b' = 0 := rfl
    have closed : ['\x7d'].count '\x7d' = 1 := rfl
    simp only [opened, closed, true_and]
    omega
  · have closed : [last].count '\x7d' = 0 :=
      List.count_eq_zero.mpr fun member =>
        closes (List.mem_singleton.mp member).symm
    simp only [closed, closes, false_and, iff_false]
    omega

theorem balancedBraces_iff_not_overclosed {body : List Char} :
    BalancedBraces body ↔
      (∀ front, front <+: body → ¬ Overclosed front) ∧
        body.count '\x7b' = body.count '\x7d' := by
  constructor
  · intro balanced
    refine ⟨?_, balanced.settled⟩
    intro front isPrefix
    exact Nat.not_lt.mpr (balanced.covered front isPrefix)
  · rintro ⟨covered, settled⟩
    refine ⟨?_, settled⟩
    intro front isPrefix
    exact Nat.not_lt.mp (covered front isPrefix)

/-- The search for a closing brace finds the first offset at which more braces
are closed than opened. -/
theorem closingBraceOffset?_eq_some_iff {text : List Char} {offset : Nat} :
    closingBraceOffset? 1 text = some offset ↔
      IsLeast {offset | offset < text.length ∧
        Overclosed (text.take (offset + 1))} offset := by
  constructor
  · intro found
    obtain ⟨body, rest, rfl, balanced, rfl⟩ := exists_of_closingBraceOffset? found
    obtain ⟨covered, settled⟩ := balancedBraces_iff_not_overclosed.mp balanced
    refine ⟨⟨by simp, ?_⟩, ?_⟩
    · rw [List.take_length_add_append]
      exact (overclosed_concat_iff (covered body List.prefix_rfl)).mpr
        ⟨rfl, settled⟩
    · rintro earlier ⟨_, closes⟩
      by_contra before
      have isPrefix : (body ++ '\x7d' :: rest).take (earlier + 1) <+: body := by
        rw [List.take_append_of_le_length (by omega)]
        exact List.take_prefix _ _
      exact covered _ isPrefix closes
  · rintro ⟨⟨inside, closes⟩, least⟩
    rw [← List.take_append_getElem inside] at closes
    have covered : ∀ front, front <+: text.take offset → ¬ Overclosed front := by
      intro front isPrefix overclosed
      have shorter : front.length ≤ offset :=
        isPrefix.length_le.trans (List.length_take_le offset text)
      have taken : front = text.take front.length :=
        List.prefix_iff_eq_take.mp (isPrefix.trans (List.take_prefix _ _))
      -- nothing is closed by an empty front
      obtain ⟨earlier, length⟩ : ∃ earlier, front.length = earlier + 1 :=
        Nat.exists_eq_succ_of_ne_zero (by
          intro empty
          rw [List.length_eq_zero_iff.mp empty] at overclosed
          exact Nat.lt_irrefl 0 overclosed)
      have le : offset ≤ earlier := by
        apply least
        refine ⟨by omega, ?_⟩
        rw [← length, ← taken]
        exact overclosed
      omega
    obtain ⟨isBrace, settled⟩ :=
      (overclosed_concat_iff (covered _ List.prefix_rfl)).mp closes
    have balanced : BalancedBraces (text.take offset) :=
      balancedBraces_iff_not_overclosed.mpr ⟨covered, settled⟩
    have split : text = text.take offset ++ '\x7d' :: text.drop (offset + 1) := by
      rw [← isBrace, ← List.drop_eq_getElem_cons inside, List.take_append_drop]
    have found := balanced.closingBraceOffset?_append (text.drop (offset + 1))
    rwa [← split, List.length_take_of_le inside.le] at found

theorem closesAt_iff {text : List Char} {openIndex offset : Nat} :
    ClosesAt text openIndex (offset + (openIndex + 1)) ↔
      offset < (text.drop (openIndex + 1)).length ∧
        Overclosed ((text.drop (openIndex + 1)).take (offset + 1)) := by
  have same : (text.take (offset + (openIndex + 1) + 1)).drop (openIndex + 1) =
      (text.drop (openIndex + 1)).take (offset + 1) := by
    rw [List.drop_take]
    congr 1
    omega
  constructor
  · rintro ⟨_, inside, closes⟩
    rw [same] at closes
    exact ⟨by rw [List.length_drop]; omega, closes⟩
  · rintro ⟨inside, closes⟩
    rw [List.length_drop] at inside
    exact ⟨by omega, by omega, by rwa [same]⟩

/-- The matching brace is the first place at which more braces are closed than
opened. -/
theorem matchingBrace?_eq_some_iff {text : List Char} {openIndex index : Nat} :
    matchingBrace? text openIndex = some index ↔
      IsLeast {index | ClosesAt text openIndex index} index := by
  rw [matchingBrace?, Option.map_eq_some_iff]
  constructor
  · rintro ⟨offset, found, rfl⟩
    obtain ⟨closes, least⟩ := closingBraceOffset?_eq_some_iff.mp found
    refine ⟨closesAt_iff.mpr closes, ?_⟩
    intro other closesThere
    obtain ⟨further, rfl⟩ := Nat.exists_eq_add_of_le' closesThere.behind
    exact Nat.add_le_add_right (least (closesAt_iff.mp closesThere)) _
  · rintro ⟨closes, least⟩
    obtain ⟨offset, rfl⟩ := Nat.exists_eq_add_of_le' closes.behind
    refine ⟨offset, closingBraceOffset?_eq_some_iff.mpr ?_, rfl⟩
    refine ⟨closesAt_iff.mp closes, ?_⟩
    intro other closesThere
    exact Nat.le_of_add_le_add_right (least (closesAt_iff.mpr closesThere))

/-- Behind every index of a text, the search for a matching brace and the
capture of characters up to a closing brace stop at the same place; where the
capture takes all that is left, no brace matches.  The matching brace is the
first place at which more braces are closed than opened. -/
theorem matchingBrace?_eq_capture (text : List Char) (openIndex : Nat) :
    (∃ captured,
      captureUntil "\x7d" ((charTokens text).drop (openIndex + 1)) =
        .ok captured ∧
      let index := openIndex + 1 + captured.length
      matchingBrace? text openIndex =
        if index < text.length then some index else none) ∧
    ∀ index, matchingBrace? text openIndex = some index ↔
      IsLeast {index | ClosesAt text openIndex index} index := by
  refine ⟨⟨_, rfl, ?_⟩, fun index => matchingBrace?_eq_some_iff⟩
  have behind : (charTokens text).drop (openIndex + 1) =
      charTokens (text.drop (openIndex + 1)) := List.map_drop.symm
  simp only [matchingBrace?, closingBraceOffset?_eq_run, behind, List.length_drop]
  split
  · next inside =>
      rw [if_pos (by omega), Option.map_some, Nat.add_comm]
  · next outside =>
      rw [if_neg (by omega), Option.map_none]

end TokenMacros
