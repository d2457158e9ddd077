import TokenMacros.Proofs.TemplateFrames

/-!
# Segments of a template

A source is cut into template text and code at its open tags.  Whatever the
source is, template text is followed by an open tag.  The cuts are at the tags
of the source if no tag stands behind an `İ`; otherwise they can fall behind the
tag, or even behind the end of the source.
-/

namespace TokenMacros

/-! ## The tags in ASCII lower case -/

theorem prefix_asciiLower_iff {mark : List Char}
    (noLetters : ∀ m ∈ mark, m.toNat < 0x41) {text : List Char} :
    mark <+: asciiLower text ↔ mark <+: text := by
  induction mark generalizing text with
  | nil => exact iff_of_true List.nil_prefix List.nil_prefix
  | cons m mark induction =>
      have later {text : List Char} := @induction
        (fun other member => noLetters other (List.mem_cons_of_mem m member))
        text
      cases text with
      | nil => rfl
      | cons c text =>
          rw [asciiLower_cons, List.cons_prefix_cons, List.cons_prefix_cons,
            eq_comm, Text.toLower_eq_iff (noLetters m List.mem_cons_self),
            eq_comm, later]

theorem opensCode_iff {text : List Char} :
    opensCode text = true ↔
      echoTagMark <+: text ∨ openTagMark <+: asciiLower text := by
  rw [opensCode, Bool.or_eq_true, or_comm, beginsWith, beginsWith,
    List.isPrefixOf_iff_prefix, List.isPrefixOf_iff_prefix,
    prefix_asciiLower_iff (by decide)]

/-! ## Tags that are found -/

theorem opensCode_of_openTagOffset? {text : List Char}
    (found : openTagOffset? (asciiLower text) = some 0) :
    opensCode text = true := by
  cases text with
  | nil => cases found
  | cons c text =>
      rw [asciiLower_cons, openTagOffset?_cons] at found
      split at found
      · next here => exact here
      · obtain ⟨_, _, later⟩ := Option.map_eq_some_iff.mp found
        cases later

theorem opensCode_drop_eq_false {text : List Char} {count : Nat}
    (before : ∀ offset ∈ openTagOffset? (asciiLower text), count < offset) :
    opensCode (text.drop count) = false := by
  induction text generalizing count with
  | nil => rw [List.drop_nil]; rfl
  | cons c text induction =>
      rw [asciiLower_cons, openTagOffset?_cons] at before
      split at before
      · exact absurd (before 0 rfl) (Nat.not_lt_zero count)
      · next notHere =>
          cases count with
          | zero => exact eq_false_of_ne_true notHere
          | succ count =>
              apply induction
              intro offset found
              have := before (offset + 1) (by rw [found]; rfl)
              omega

theorem opensCode_take_openTagExtent {text : List Char}
    (opens : opensCode text = true) :
    opensCode (text.take (openTagExtent text)) = true := by
  rw [opensCode_iff] at opens ⊢
  rw [asciiLower, List.map_take, List.prefix_take_iff, List.prefix_take_iff]
  by_cases echo : echoTagMark <+: text
  · left
    refine ⟨echo, ?_⟩
    rw [openTagExtent, beginsWith, List.isPrefixOf_iff_prefix.mpr echo,
      if_pos rfl]
    exact Nat.le_refl 3
  · right
    refine ⟨opens.resolve_left echo, ?_⟩
    have notEcho : beginsWith echoTagMark text = false := by
      rw [beginsWith, ← Bool.not_eq_true, List.isPrefixOf_iff_prefix]
      exact echo
    rw [openTagExtent, notEcho]
    show 5 ≤ _
    simp only [Bool.false_eq_true, if_false]
    split
    · decide
    · split <;> decide
    · decide

theorem opensCode_of_isPrefix {front text : List Char} (fits : front <+: text)
    (opens : opensCode front = true) : opensCode text = true := by
  rw [opensCode_iff] at opens ⊢
  exact opens.imp (·.trans fits) (·.trans (fits.map Char.toLower))

/-! ## Segments -/

/-- An open tag begins with a mark, and template text contains none. -/
structure Segmented (kind? : Option Kind) (text : List Char) : Prop where
  tag : kind? = some .openTag →
    echoTagMark <+: text ∨ openTagMark <+: asciiLower text
  html : kind? = some .inlineHtml →
    ¬ echoTagMark <:+: text ∧ ¬ openTagMark <:+: asciiLower text

theorem Segmented.of_tag {text : List Char} (opens : opensCode text = true) :
    Segmented (some .openTag) text where
  tag _ := opensCode_iff.mp opens
  html isHtml := by cases isHtml

theorem Segmented.of_html {text : List Char}
    (tagless : ∀ count, opensCode (text.drop count) = false) :
    Segmented (some .inlineHtml) text where
  tag isTag := by cases isTag
  html _ := by
    have noTag (count : Nat) :
        ¬ (echoTagMark <+: text.drop count ∨
          openTagMark <+: asciiLower (text.drop count)) := by
      rw [← opensCode_iff, tagless count]
      decide
    constructor
    · intro inside
      obtain ⟨back, here, behind⟩ := List.infix_iff_prefix_suffix.mp inside
      rw [List.suffix_iff_eq_drop.mp behind] at here
      exact noTag _ (Or.inl here)
    · intro inside
      obtain ⟨back, here, behind⟩ := List.infix_iff_prefix_suffix.mp inside
      rw [List.suffix_iff_eq_drop.mp behind, asciiLower, ← List.map_drop]
        at here
      exact noTag _ (Or.inr here)

theorem segmented_inMode (mode : Mode) (c : Char) (rest : List Char) :
    Segmented (Lexeme.inMode mode c rest).kind?
      ((c :: rest).take (Lexeme.inMode mode c rest).extent) := by
  cases mode with
  | code =>
      have other := Lexeme.next_isTemplate c rest
      constructor <;>
      · intro template
        rw [Lexeme.inMode] at template
        rw [template] at other
        cases other
  | template =>
      unfold Lexeme.inMode
      dsimp only
      split
      · next none =>
          apply Segmented.of_html
          intro count
          rw [List.take_length]
          apply opensCode_drop_eq_false
          rw [none]
          intro offset found
          cases found
      · next here =>
          apply Segmented.of_tag
          exact opensCode_take_openTagExtent (opensCode_of_openTagOffset? here)
      · next offset _ found =>
          apply Segmented.of_html
          intro count
          rw [List.drop_take]
          by_cases inside : count < offset
          · have notHere : opensCode ((c :: rest).drop count) = false := by
              apply opensCode_drop_eq_false
              rw [found]
              rintro _ ⟨⟩
              exact inside
            rw [← Bool.not_eq_true] at notHere ⊢
            exact mt (opensCode_of_isPrefix (List.take_prefix _ _)) notHere
          · rw [Nat.sub_eq_zero_of_le (Nat.le_of_not_lt inside), List.take_zero]
            rfl

theorem segmented_of_mem_sourcePieces {mode : Mode} {text : List Char}
    {piece : Option Kind × List Char} (member : piece ∈ sourcePieces mode text) :
    Segmented piece.1 piece.2 := by
  fun_induction sourcePieces mode text with
  | case1 => cases member
  | case2 mode c rest induction =>
      rcases List.mem_cons.mp member with rfl | later
      · exact segmented_inMode mode c rest
      · exact induction later

/-- The segments of a template.  Only an open tag can be without text, and
template text ends at an open tag or with the source.  Tokens are cut at the
tags of the source where these are in place. -/
theorem lex_template_segments (source : String) :
    (∀ token ∈ lex .template source,
        token.kind? ≠ some .openTag → token.text ≠ "") ∧
      ((lex .template source).IsChain fun html next =>
        html.kind? = some .inlineHtml → next.kind? = some .openTag) ∧
      (TagsInPlace source.toList →
        ∀ token ∈ lex .template source,
          token.text ≠ "" ∧
          (token.kind? = some .openTag →
            echoTagMark <+: token.text.toList ∨
              openTagMark <+: asciiLower token.text.toList) ∧
          (token.kind? = some .inlineHtml →
            ¬ echoTagMark <:+: token.text.toList ∧
              ¬ openTagMark <:+: asciiLower token.text.toList)) := by
  have framed := lex_framed .template source
  refine ⟨fun token member => framed.text_ne_empty member,
    framed.isChain_html, ?_⟩
  intro inPlace token member
  have piece : token.piece ∈ sourcePieces .template source.toList := by
    rw [← lex_sourcePieces inPlace]
    exact List.mem_map_of_mem member
  have segmented := segmented_of_mem_sourcePieces piece
  refine ⟨?_, segmented.tag, segmented.html⟩
  intro empty
  apply sourcePieces_text_ne_nil piece
  exact String.toList_eq_nil_iff.mpr empty

/-- Tags in capitals, and an `İ` behind the last one. -/
theorem lex_template_segments_capital :
    TagsInPlace "a<?PHP 1 ?>b<?=c?>İ".toList ∧
      ∀ token ∈ lex .template "a<?PHP 1 ?>b<?=c?>İ",
        token.text ≠ "" ∧
        (token.kind? = some .openTag →
          echoTagMark <+: token.text.toList ∨
            openTagMark <+: asciiLower token.text.toList) ∧
        (token.kind? = some .inlineHtml →
          ¬ echoTagMark <:+: token.text.toList ∧
            ¬ openTagMark <:+: asciiLower token.text.toList) := by
  have inPlace : TagsInPlace "a<?PHP 1 ?>b<?=c?>İ".toList := by decide
  exact ⟨inPlace, (lex_template_segments _).2.2 inPlace⟩

/-- Behind an `İ` a cut falls behind the tag: the tag is torn, or left to the
template text in front of an open tag without text. -/
theorem lex_template_torn :
    lex .template "İ<?php x" =
        [.classified .inlineHtml "İ<" 1, .classified .openTag "?php " 1,
          .classified .identifier "x" 1] ∧
      lex .template "İİİİİİ<?=" =
        [.classified .inlineHtml "İİİİİİ<?=" 1, .classified .openTag "" 1] := by
  decide +kernel

end TokenMacros
