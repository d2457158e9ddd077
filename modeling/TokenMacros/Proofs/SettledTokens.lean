import TokenMacros.Proofs.LexerTurns
import TokenMacros.Proofs.TemplateStart
import TokenMacros.Proofs.TriviaTexts

/-!
# Settled tokens

Tokens are settled if every token but the first shows by its text whether it is
trivia.  The first one is let off because a source that is read as a template
can begin with blanks that are template text.  Sources without close tags are
lexed into settled tokens; behind a close tag, template text can look like
trivia.
-/

namespace TokenMacros

open Text (lower)

structure Settled (tokens : List Token) : Prop where
  first : ∀ token ∈ tokens.head?, token.isTrivia = true →
    looksTrivial token.text.toList = true
  behind : ∀ token ∈ tokens.tail, token.ShowsTrivia

theorem settled_iff {tokens : List Token} :
    Settled tokens ↔
      (∀ token ∈ tokens.head?, token.isTrivia = true →
        looksTrivial token.text.toList = true) ∧
      ∀ token ∈ tokens.tail, token.ShowsTrivia :=
  ⟨fun settled => ⟨settled.first, settled.behind⟩,
    fun both => ⟨both.1, both.2⟩⟩

instance (tokens : List Token) : Decidable (Settled tokens) :=
  decidable_of_iff _ settled_iff.symm

theorem Settled.of_showsTrivia {tokens : List Token}
    (shows : ∀ token ∈ tokens, token.ShowsTrivia) : Settled tokens := by
  constructor
  · intro token isHead trivia
    have member : token ∈ tokens := List.mem_of_mem_head? isHead
    rw [← shows token member]
    exact trivia
  · intro token member
    exact shows token (List.mem_of_mem_tail member)

theorem Settled.cons_of_not_trivia {first : Token} {tokens : List Token}
    (notTrivia : first.isTrivia = false)
    (shows : ∀ token ∈ tokens, token.ShowsTrivia) :
    Settled (first :: tokens) := by
  refine ⟨?_, shows⟩
  intro token isHead trivia
  obtain rfl : first = token := by simpa using isHead
  rw [notTrivia] at trivia
  cases trivia

/-- The text of a tag that stands where a tag was found does not look like
trivia. -/
theorem Cursor.openTag_showsTrivia {cursor : Cursor} {rest : List Char}
    (tagged : cursor.rest = '<' :: rest) : cursor.openTag.ShowsTrivia := by
  obtain ⟨further, extent⟩ :=
    Nat.exists_eq_add_of_le' (openTagExtent_pos cursor.rest)
  rw [Token.ShowsTrivia, Cursor.openTag, Token.text_ofPiece,
    String.toList_ofList, extent, tagged]
  rfl

/-- A source that is read in its own mode, or as code, is lexed into settled
tokens if it shows no close tag. -/
theorem lex_settled {mode : Mode} {source : String}
    (own : mode = .template → sourceMode source = .template)
    (codeOnly : ∀ token ∈ lex mode source,
      ¬ closeTagMark <+: token.text.toList) :
    Settled (lex mode source) := by
  have success := lexFrom_start mode source
  cases mode with
  | code =>
      apply Settled.of_showsTrivia
      exact showsTrivia_of_lexFrom_code success codeOnly
  | template =>
      obtain ⟨offset, rest, found, tagged⟩ := exists_tag_of_template (own rfl)
      have something : (Cursor.start source.toList).rest ≠ [] := by
        intro nothing
        have empty : source.toList = [] := nothing
        rw [empty, List.drop_nil] at tagged
        cases tagged
      obtain ⟨c, later, remaining⟩ := List.exists_cons_of_ne_nil something
      obtain ⟨following, read, tokens⟩ := exists_of_lexFrom_turn remaining
        (Cursor.turn_template_of_tag c later found) success
      rw [tokens] at codeOnly ⊢
      have followingShow : ∀ token ∈ following, token.ShowsTrivia := by
        apply showsTrivia_of_lexFrom_code read
        intro token member
        exact codeOnly token (List.mem_append_right _ member)
      have tagShows :
          ((Cursor.start source.toList).advance offset).openTag.ShowsTrivia :=
        Cursor.openTag_showsTrivia tagged
      by_cases here : offset = 0
      · rw [Cursor.htmlBefore, if_pos here]
        exact .cons_of_not_trivia rfl followingShow
      · rw [Cursor.htmlBefore, if_neg here]
        apply Settled.cons_of_not_trivia rfl
        intro token member
        rcases List.mem_cons.mp member with rfl | behind
        · exact tagShows
        · exact followingShow token behind

end TokenMacros
