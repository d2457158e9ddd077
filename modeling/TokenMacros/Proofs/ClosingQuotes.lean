import Mathlib.Algebra.Group.Nat.Even
import Mathlib.Order.Bounds.Basic
import TokenMacros.Proofs.ExtentLocality

/-!
# Closing quotes

A quoted literal closes at the first quote that no backslash escapes: the
backslashes that stand right in front of it, behind the open quote, come in
pairs.  A literal without such a quote takes all that is left.
-/

namespace TokenMacros

namespace Extent

/-- How many backslashes a text ends with. -/
def trailingBackslashes (text : List Char) : Nat :=
  (text.reverse.takeWhile (· == '\\')).length

/-- An unescaped quote stands at an index of the text. -/
structure Unescaped (quote : Char) (text : List Char) (index : Nat) : Prop where
  isQuote : text[index]? = some quote
  paired : Even (trailingBackslashes (text.take index))

/-- The literal that opens at `start` can close at `index`. -/
structure QuoteClosesAt (quote : Char) (source : List Char) (start index : Nat) :
    Prop where
  behind : start < index
  isQuote : source[index]? = some quote
  paired : Even (trailingBackslashes ((source.take index).drop (start + 1)))

/-- The extent reaches through the first of the closing indexes; it is the whole
length if there is none. -/
def ThroughFirst (closes : Nat → Prop) (length extent : Nat) : Prop :=
  (∃ index, IsLeast {index | closes index} index ∧ extent = index + 1) ∨
    (∀ index, ¬ closes index) ∧ extent = length

theorem ThroughFirst.behind {closes closesBehind : Nat → Prop} {count : Nat}
    (notBefore : ∀ index < count, ¬ closes index)
    (same : ∀ index, closes (count + index) ↔ closesBehind index)
    {length extent : Nat} (through : ThroughFirst closesBehind length extent) :
    ThroughFirst closes (count + length) (count + extent) := by
  have shifted {index : Nat} (closing : closes index) :
      ∃ further, index = count + further ∧ closesBehind further := by
    obtain ⟨further, rfl⟩ := Nat.exists_eq_add_of_le
      (Nat.not_lt.mp fun before => notBefore index before closing)
    exact ⟨further, rfl, (same further).mp closing⟩
  rcases through with ⟨index, ⟨closing, least⟩, rfl⟩ | ⟨none, rfl⟩
  · refine .inl ⟨count + index, ⟨(same index).mpr closing, ?_⟩, rfl⟩
    intro other closesThere
    obtain ⟨further, rfl, closesFurther⟩ := shifted closesThere
    exact Nat.add_le_add_left (least closesFurther) count
  · refine .inr ⟨?_, rfl⟩
    intro index closing
    obtain ⟨further, _, closesFurther⟩ := shifted closing
    exact none further closesFurther

/-! ## Backslashes -/

theorem trailingBackslashes_cons {c : Char} (plain : c ≠ '\\')
    (text : List Char) :
    trailingBackslashes (c :: text) = trailingBackslashes text := by
  have other : [c].takeWhile (· == '\\') = [] :=
    List.takeWhile_cons_of_neg (by simpa using plain)
  rw [trailingBackslashes, List.reverse_cons, List.takeWhile_append, other]
  split
  · next all =>
      rw [List.append_nil, ← all]
      rfl
  · rfl

/-- An escaped character in front of a text pairs its backslash, whatever the
text begins with. -/
theorem even_trailingBackslashes_escape (d : Char) (text : List Char) :
    Even (trailingBackslashes ('\\' :: d :: text)) ↔
      Even (trailingBackslashes text) := by
  have front : ('\\' :: d :: text).reverse = text.reverse ++ [d, '\\'] := by
    rw [List.reverse_cons, List.reverse_cons, List.append_assoc]
    rfl
  rw [trailingBackslashes, front, List.takeWhile_append]
  split
  · next all =>
      rw [List.length_append, ← all]
      by_cases escape : d = '\\'
      · subst escape
        exact Nat.even_add.trans (iff_true_right (by decide))
      · rw [List.takeWhile_cons_of_neg (by simpa using escape)]
        rfl
  · rfl

/-! ## Literals -/

section

variable {quote : Char}

theorem unescaped_nil (index : Nat) : ¬ Unescaped quote [] index := by
  intro closing
  have found := closing.isQuote
  rw [List.getElem?_nil] at found
  cases found

theorem unescaped_zero_iff {c : Char} {text : List Char} :
    Unescaped quote (c :: text) 0 ↔ c = quote := by
  constructor
  · intro closing
    exact Option.some.inj closing.isQuote
  · rintro rfl
    exact ⟨rfl, Even.zero⟩

theorem unescaped_succ_iff {c : Char} (plain : c ≠ '\\') {text : List Char}
    {index : Nat} :
    Unescaped quote (c :: text) (1 + index) ↔ Unescaped quote text index := by
  rw [Nat.add_comm]
  constructor
  · rintro ⟨isQuote, paired⟩
    rw [List.take_succ_cons, trailingBackslashes_cons plain] at paired
    exact ⟨isQuote, paired⟩
  · rintro ⟨isQuote, paired⟩
    refine ⟨isQuote, ?_⟩
    rwa [List.take_succ_cons, trailingBackslashes_cons plain]

theorem unescaped_escape_iff {d : Char} {text : List Char} {index : Nat} :
    Unescaped quote ('\\' :: d :: text) (2 + index) ↔
      Unescaped quote text index := by
  rw [Nat.add_comm]
  constructor
  · rintro ⟨isQuote, paired⟩
    rw [List.take_succ_cons, List.take_succ_cons,
      even_trailingBackslashes_escape] at paired
    exact ⟨isQuote, paired⟩
  · rintro ⟨isQuote, paired⟩
    refine ⟨isQuote, ?_⟩
    rwa [List.take_succ_cons, List.take_succ_cons,
      even_trailingBackslashes_escape]

theorem not_unescaped_of_escape (other : quote ≠ '\\') (text : List Char) :
    ∀ index < 2, ¬ Unescaped quote ('\\' :: text) index := by
  intro index early closing
  match index with
  | 0 => exact other (unescaped_zero_iff.mp closing).symm
  | 1 =>
      have single : Even 1 := closing.paired
      exact Nat.not_even_one single

/-- The text is read in escapes and single characters; the first quote among the
latter is the first unescaped one. -/
theorem throughQuote_throughFirst (other : quote ≠ '\\') (text : List Char) :
    ThroughFirst (Unescaped quote text) text.length (throughQuote quote text) := by
  fun_induction throughQuote quote text with
  | case1 => exact .inr ⟨unescaped_nil, rfl⟩
  | case2 =>
      refine .inr ⟨?_, rfl⟩
      intro index closing
      have inside := List.getElem?_eq_some_iff.mp closing.isQuote
      obtain ⟨short, _⟩ := inside
      rw [List.length_singleton] at short
      exact not_unescaped_of_escape other [] index (by omega) closing
  | case3 d text induction =>
      rw [List.length_cons, List.length_cons, Nat.add_assoc, Nat.add_comm]
      exact induction.behind (not_unescaped_of_escape other (d :: text))
        fun _ => unescaped_escape_iff
  | case4 text =>
      refine .inl ⟨0, ⟨unescaped_zero_iff.mpr rfl, ?_⟩, rfl⟩
      exact fun _ _ => Nat.zero_le _
  | case5 c text notLast notEscape notQuote induction =>
      have plain := ne_backslash notLast notEscape
      rw [List.length_cons, Nat.add_comm text.length]
      refine induction.behind ?_ fun _ => unescaped_succ_iff plain
      intro index early closing
      obtain rfl := Nat.lt_one_iff.mp early
      exact notQuote (unescaped_zero_iff.mp closing)

/-- The closing indexes of a literal are the unescaped quotes behind the open
one. -/
theorem quoteClosesAt_iff {source : List Char} {start index : Nat} :
    QuoteClosesAt quote source start (start + 1 + index) ↔
      Unescaped quote (source.drop (start + 1)) index := by
  have between : (source.take (start + 1 + index)).drop (start + 1) =
      (source.drop (start + 1)).take index := by
    rw [List.drop_take, Nat.add_sub_cancel_left]
  constructor
  · rintro ⟨_, isQuote, paired⟩
    exact ⟨List.getElem?_drop.trans isQuote, between ▸ paired⟩
  · rintro ⟨isQuote, paired⟩
    refine ⟨by omega, List.getElem?_drop.symm.trans isQuote, ?_⟩
    rwa [between]

end

/-- A quoted literal ends behind the first quote in front of which the
backslashes come in pairs, and with the source if there is no such quote. -/
theorem quotedLiteral_closes {quote : Char} (other : quote ≠ '\\')
    {source : List Char} {start : Nat} (inside : start < source.length) :
    ThroughFirst (QuoteClosesAt quote source start) source.length
      (start + quotedLiteral quote (source.drop start)) := by
  have body := throughQuote_throughFirst other (source.drop (start + 1))
  have opened : quotedLiteral quote (source.drop start) =
      1 + throughQuote quote (source.drop (start + 1)) := by
    rw [List.drop_eq_getElem_cons inside]
    rfl
  have length : source.length =
      start + 1 + (source.drop (start + 1)).length := by
    rw [List.length_drop]
    omega
  rw [opened, ← Nat.add_assoc, length]
  refine body.behind ?_ fun _ => quoteClosesAt_iff
  intro index before closing
  exact absurd closing.behind (Nat.not_lt.mpr (Nat.le_of_lt_succ before))

/-- The quote behind one backslash does not close the literal, the one behind two
does. -/
theorem quotedLiteral_closes_behindPair :
    let source := ['=', '\x22', 'a', '\\', '\x22', 'b', '\\', '\\', '\x22', ';']
    '\x22' ≠ '\\' ∧ 1 < source.length ∧
      ThroughFirst (QuoteClosesAt '\x22' source 1) source.length
        (1 + quotedLiteral '\x22' (source.drop 1)) :=
  ⟨by decide, by decide, quotedLiteral_closes (by decide) (by decide)⟩

end Extent

end TokenMacros
