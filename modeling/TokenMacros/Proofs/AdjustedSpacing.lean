import TokenMacros.Proofs.CaptureTables
import TokenMacros.Proofs.LeftOutSpaces
import TokenMacros.Proofs.LiteralRuns
import TokenMacros.Proofs.RuleTokens
import TokenMacros.Proofs.ThinnedPieces

/-!
# Spacing that is adjusted

Instantiation leaves out spaces beside trivia that is captured.  An instance of
lexed captures is lexed into the same tokens as the plain instance, trivia
apart, if the spaces that are left out are loose.  The characters of the plain
instance are traced back to the tokens that they are put in with, and handed out
to the tokens that they are read as.
-/

namespace TokenMacros

open Cell (flat)

/-! ## Trivia that is lexed -/

theorem exists_stop_of_mem_lex (mode : Mode) (source : String) :
    ∀ token ∈ lex mode source, token.isTrivia = true →
      ∃ c ∈ token.text.toList.head?, isStop c = true := by
  refine (turns_of_lexFrom (lexFrom_start mode source)).forall_mem ?_ ?_
  · intro c rest line trivia
    rw [Token.isTrivia_eq, Token.kind_ofPiece] at trivia
    refine ⟨c, ?_, Lexeme.isStop_of_isTrivia trivia⟩
    obtain ⟨further, extent⟩ :=
      Nat.exists_eq_add_of_le' (Lexeme.next_extent_pos c rest)
    rw [Token.text_ofPiece, String.toList_ofList, extent]
    rfl
  · intro token template trivia
    rw [Token.isTrivia_eq] at trivia
    obtain ⟨kind, isKind, isTrivia⟩ := (Option.any_eq_true _ _).mp trivia
    rw [Token.isTemplate, isKind, Option.any_some,
      kind.isTemplate_of_isTrivia isTrivia] at template
    cases template

/-! ## Letters of a plain instance -/

namespace Placed

/-- The letters that a token is put in with. -/
def letters (one : Placed) : List Letter :=
  one.token.text.toList.map fun c => ⟨c, one.leftOut, one.token.isTrivia⟩

end Placed

/-- The letters of a plain instance. -/
def plainLetters (template : List ReplacementElement) (captures : Captures) :
    List Letter :=
  (place template captures).flatMap Placed.letters

namespace Placed

theorem char_letters (placed : List Placed) :
    (placed.flatMap letters).map (·.char) =
      (Token.render (tokens placed)).toList := by
  induction placed with
  | nil => rfl
  | cons one placed induction =>
      rw [List.flatMap_cons, List.map_append, induction, tokens_cons,
        Token.render_cons, String.toList_append, letters, List.map_map]
      congr 1
      exact List.map_id _

theorem char_kept_letters (placed : List Placed) :
    ((placed.flatMap letters).filter fun letter => !letter.leftOut).map
        (·.char) =
      (Token.render (kept placed)).toList := by
  induction placed with
  | nil => rfl
  | cons one placed induction =>
      obtain ⟨token, leftOut⟩ := one
      rw [List.flatMap_cons, List.filter_append, List.map_append, induction]
      cases leftOut with
      | true =>
          rw [kept_cons_true, letters, List.filter_map]
          simp
      | false =>
          rw [kept_cons_false, Token.render_cons, String.toList_append, letters,
            List.filter_map]
          simp [Function.comp_def]

/-- A letter that is left out is put in with a token that is left out, alone if
the token is a space. -/
theorem exists_of_letters {placed : List Placed} {before after : List Letter}
    {space : Letter}
    (spaces : ∀ one ∈ placed, one.leftOut = true → one.token.text = " ")
    (split : placed.flatMap letters = before ++ space :: after)
    (left : space.leftOut = true) :
    ∃ front one back, placed = front ++ one :: back ∧ one.leftOut = true ∧
      space.char = ' ' ∧ front.flatMap letters = before ∧
        back.flatMap letters = after := by
  induction placed generalizing before with
  | nil =>
      exact absurd split.symm
        (List.append_ne_nil_of_right_ne_nil _ (List.cons_ne_nil _ _))
  | cons one placed induction =>
      rw [List.flatMap_cons] at split
      have later {middle : List Letter}
          (here : before = one.letters ++ middle)
          (there : placed.flatMap letters = middle ++ space :: after) :
          ∃ front other back, one :: placed = front ++ other :: back ∧
            other.leftOut = true ∧ space.char = ' ' ∧
            front.flatMap letters = before ∧ back.flatMap letters = after := by
        obtain ⟨front, other, back, rfl, leftOther, isSpace, inFront, behind⟩ :=
          induction (fun other member =>
            spaces other (List.mem_cons_of_mem one member)) there
        refine ⟨one :: front, other, back, rfl, leftOther, isSpace, ?_, behind⟩
        rw [List.flatMap_cons, inFront, here]
      rcases List.append_eq_append_iff.mp split with
        ⟨middle, here, there⟩ | ⟨middle, here, there⟩
      · exact later here there
      · cases middle with
        | nil =>
            rw [List.append_nil] at here
            apply later
            · rw [List.append_nil]
              exact here.symm
            · exact there.symm
        | cons first middle =>
            obtain ⟨rfl, behind⟩ := List.cons.inj there
            have inOne : space ∈ one.letters := by
              rw [here]
              exact List.mem_append_right _ List.mem_cons_self
            have leftOne : one.leftOut = true := by
              obtain ⟨c, _, rfl⟩ := List.mem_map.mp inOne
              exact left
            rw [letters, spaces one List.mem_cons_self leftOne] at here
            obtain ⟨rfl, alone⟩ := (List.append_eq_singleton_iff.mp
              here.symm).resolve_right fun other => by cases other.2
            obtain ⟨rfl, rfl⟩ := List.cons.inj alone
            exact ⟨[], one, placed, rfl, leftOne, rfl, rfl, behind.symm⟩

end Placed

theorem spacesBeside_plainLetters {template : List ReplacementElement}
    {captures : Captures}
    (stops : ∀ token ∈ plainInstance template captures,
      token.isTrivia = true →
        ∃ c ∈ token.text.toList.head?, isStop c = true) :
    SpacesBeside (plainLetters template captures) := by
  intro before after space split left
  have placedStops {one : Placed} (member : one ∈ place template captures)
      (trivia : one.token.isTrivia = true) :
      ∃ c ∈ one.token.text.toList.head?, isStop c = true := by
    apply stops one.token _ trivia
    rw [← tokens_place]
    exact List.mem_map_of_mem member
  have spaces : ∀ one ∈ place template captures, one.leftOut = true →
      one.token.text = " " := by
    intro one member leftOne
    obtain ⟨front, back, whole⟩ := List.append_of_mem member
    have space := (beside_of_place whole leftOne).1
    exact beq_iff_eq.mp (Bool.and_eq_true_iff.mp space).2
  obtain ⟨front, one, back, whole, leftOne, isSpace, rfl, rfl⟩ :=
    Placed.exists_of_letters spaces split left
  refine ⟨isSpace, (beside_of_place whole leftOne).2.imp ?_ ?_⟩
  · rintro ⟨next, isNext, trivia⟩
    have member : next ∈ place template captures := by
      rw [whole]
      exact List.mem_append_right _
        (List.mem_cons_of_mem one (List.mem_of_mem_head? isNext))
    obtain ⟨c, isHead, isStop⟩ := placedStops member trivia
    refine ⟨⟨c, next.leftOut, next.token.isTrivia⟩, ?_, isStop⟩
    rw [List.eq_cons_of_mem_head? isNext, List.flatMap_cons, Placed.letters,
      List.eq_cons_of_mem_head? isHead]
    rfl
  · rintro ⟨last, isLast, trivia, keptLast⟩
    have member : last ∈ place template captures := by
      rw [whole]
      exact List.mem_append_left _ (List.mem_of_getLast? isLast)
    obtain ⟨c, isHead, _⟩ := placedStops member trivia
    have nonempty : last.letters ≠ [] := by
      rw [Placed.letters, List.eq_cons_of_mem_head? isHead]
      exact List.cons_ne_nil _ _
    have isLetter := List.getLast?_eq_some_getLast nonempty
    obtain ⟨d, _, same⟩ := List.mem_map.mp (List.mem_of_getLast? isLetter)
    rw [← same] at isLetter
    refine ⟨⟨d, last.leftOut, last.token.isTrivia⟩, ?_, trivia, keptLast⟩
    obtain ⟨others, rfl⟩ := List.getLast?_eq_some_iff.mp isLast
    rw [List.flatMap_append, List.flatMap_singleton,
      List.getLast?_append_of_ne_nil _ nonempty]
    exact isLetter

/-! ## Cells -/

namespace Cell

/-- Hands the letters of a text out to its pieces. -/
def cut : List (Option Kind × List Char) → List Letter → List Cell
  | [], _ => []
  | piece :: pieces, letters =>
    ⟨piece.1, (letters.take piece.2.length).map (Glyph.mk · piece.1)⟩ ::
      cut pieces (letters.drop piece.2.length)

theorem readAs_cut (pieces : List (Option Kind × List Char))
    (letters : List Letter) :
    ∀ cell ∈ cut pieces letters, ∀ glyph ∈ cell.glyphs,
      glyph.readAs = cell.kind? := by
  induction pieces generalizing letters with
  | nil => exact List.forall_mem_nil _
  | cons piece pieces induction =>
      rw [cut, List.forall_mem_cons]
      refine ⟨?_, induction _⟩
      intro glyph member
      obtain ⟨letter, _, rfl⟩ := List.mem_map.mp member
      rfl

theorem toLetter_cut {pieces : List (Option Kind × List Char)}
    {letters : List Letter}
    (spelled : letters.map (·.char) = pieces.flatMap Prod.snd) :
    (flat (cut pieces letters)).map Glyph.toLetter = letters := by
  induction pieces generalizing letters with
  | nil =>
      obtain rfl := List.map_eq_nil_iff.mp spelled
      rfl
  | cons piece pieces induction =>
      rw [List.flatMap_cons] at spelled
      have later : (letters.drop piece.2.length).map (·.char) =
          pieces.flatMap Prod.snd := by
        rw [List.map_drop, spelled, List.drop_left]
      rw [cut, flat_cons, List.map_append, induction later, List.map_map]
      calc
        (letters.take piece.2.length).map id ++ letters.drop piece.2.length =
            letters.take piece.2.length ++ letters.drop piece.2.length := by
          rw [List.map_id]
        _ = letters := List.take_append_drop _ _

theorem map_piece_cut {pieces : List (Option Kind × List Char)}
    {letters : List Letter}
    (spelled : letters.map (·.char) = pieces.flatMap Prod.snd) :
    (cut pieces letters).map piece = pieces := by
  induction pieces generalizing letters with
  | nil => rfl
  | cons piece pieces induction =>
      rw [List.flatMap_cons] at spelled
      have here : (letters.take piece.2.length).map (·.char) = piece.2 := by
        rw [List.map_take, spelled, List.take_left]
      have later : (letters.drop piece.2.length).map (·.char) =
          pieces.flatMap Prod.snd := by
        rw [List.map_drop, spelled, List.drop_left]
      rw [cut, List.map_cons, induction later, Cell.piece, Glyph.chars,
        List.map_map]
      congr 1
      exact Prod.ext rfl here

end Cell

/-! ## Sources that are lexed into their pieces -/

theorem codePieces_isPrefix (text : List Char) :
    codePieces text <+: sourcePieces .code text := by
  fun_induction codePieces text with
  | case1 => exact List.nil_prefix
  | case2 c rest induction =>
      rw [sourcePieces_cons, Lexeme.inMode, List.prefix_cons_inj,
        modeBehind_next]
      split
      · exact List.nil_prefix
      · exact induction

theorem lexCode_sourcePieces {code : String}
    (codeOnly : CodeOnly (codePieces code.toList)) :
    (lexCode code).map Token.piece = sourcePieces .code code.toList := by
  obtain ⟨behind, split, none⟩ := lexCode_pieces code
  rw [split, none (flatMap_codePieces codeOnly), List.append_nil,
    sourcePieces_code_of_codePieces codeOnly]

theorem sourcePieces_of_templates {source : String}
    (templates : 'İ' ∉ source.toList ∨
      ∀ piece ∈ (lexCode source).map Token.piece, piece.1 ≠ some .closeTag) :
    (lexCode source).map Token.piece = sourcePieces .code source.toList := by
  rcases templates with plain | codeOnly
  · exact lex_sourcePieces (tagsInPlace_of_not_mem plain)
  · apply lexCode_sourcePieces
    intro piece member
    obtain ⟨token, inCode, rfl⟩ := exists_token_of_mem_codePieces member
    exact codeOnly _ (List.mem_map_of_mem inCode)

theorem meaningfulTexts_toList (code : String) :
    meaningfulTexts code.toList =
      (((lexCode code).map Token.piece).filter isMeaningful).map
        fun piece => String.ofList piece.2 := by
  rw [meaningfulTexts, String.ofList_toList, List.filter_map,
    isMeaningful_comp_piece, List.map_map]
  apply List.map_congr_left
  intro token _
  simp [Token.piece]

/-! ## Instances of lexed captures -/

namespace Captures

/-- What is captured was lexed from some code. -/
def Lexed (captures : Captures) : Prop :=
  ∀ name tokens, captures.find? name = some tokens →
    ∃ code, tokens = lexCode code

theorem Lexed.nil : Lexed [] := by
  intro name tokens found
  cases found

theorem Lexed.cons {captures : Captures} (name code : String)
    (lexed : captures.Lexed) : Lexed ((name, lexCode code) :: captures) := by
  intro asked tokens found
  rw [find?_cons] at found
  split at found
  · exact ⟨code, (Option.some.inj found).symm⟩
  · exact lexed asked tokens found

end Captures

theorem exists_stop_of_mem_plainInstance {replacement : String}
    {captures : Captures} (lexed : captures.Lexed) :
    ∀ token ∈ plainInstance (Replacement.parse replacement) captures,
      token.isTrivia = true →
        ∃ c ∈ token.text.toList.head?, isStop c = true := by
  intro token member trivia
  obtain ⟨element, inTemplate, inPlain⟩ := List.mem_flatMap.mp member
  cases element with
  | token copied =>
      obtain rfl := List.mem_singleton.mp inPlain
      obtain ⟨stretch, _, read⟩ := exists_stretch_of_mem_parse inTemplate
      exact exists_stop_of_mem_lex .code _ token read trivia
  | reference name =>
      rw [ReplacementElement.plain] at inPlain
      cases found : captures.find? name with
      | none =>
          rw [found, Option.getD_none, List.mem_singleton] at inPlain
          rw [inPlain] at trivia
          cases trivia
      | some captured =>
          rw [found, Option.getD_some] at inPlain
          obtain ⟨code, rfl⟩ := lexed name captured found
          exact exists_stop_of_mem_lex .code code token inPlain trivia

/-- The cells of a plain instance that is lexed. -/
def plainCells (template : List ReplacementElement) (captures : Captures) :
    List Cell :=
  Cell.cut
    ((lexCode (Token.render (plainInstance template captures))).map Token.piece)
    (plainLetters template captures)

section

variable (template : List ReplacementElement) (captures : Captures)

theorem char_plainLetters :
    (plainLetters template captures).map (·.char) =
      (Token.render (plainInstance template captures)).toList := by
  rw [plainLetters, Placed.char_letters, tokens_place]

theorem plainLetters_spelled :
    (plainLetters template captures).map (·.char) =
      ((lexCode (Token.render (plainInstance template captures))).map
        Token.piece).flatMap Prod.snd := by
  rw [char_plainLetters, flatMap_piece, lexCode, render_lex]

theorem map_piece_plainCells :
    (plainCells template captures).map Cell.piece =
      (lexCode (Token.render (plainInstance template captures))).map
        Token.piece := by
  rw [plainCells, Cell.map_piece_cut (plainLetters_spelled template captures)]

theorem toLetter_plainCells :
    (flat (plainCells template captures)).map Glyph.toLetter =
      plainLetters template captures := by
  rw [plainCells, Cell.toLetter_cut (plainLetters_spelled template captures)]

theorem chars_plainCells :
    Glyph.chars (flat (plainCells template captures)) =
      (Token.render (plainInstance template captures)).toList := by
  rw [← char_plainLetters, ← toLetter_plainCells, List.map_map]
  rfl

theorem chars_kept_plainCells :
    Glyph.chars (Glyph.kept (flat (plainCells template captures))) =
      (Token.render (instantiate template captures)).toList := by
  rw [← kept_place, ← Placed.char_kept_letters, ← plainLetters,
    ← toLetter_plainCells, List.filter_map, List.map_map]
  rfl

end

theorem spaced_plainCells {template : List ReplacementElement}
    {captures : Captures}
    (stops : ∀ token ∈ plainInstance template captures,
      token.isTrivia = true →
        ∃ c ∈ token.text.toList.head?, isStop c = true)
    (loose : LooseSpaces (plainCells template captures))
    (inPlace : ReadInPlace (plainCells template captures))
    (thinned : IsThinned (plainCells template captures)) :
    Spaced (plainCells template captures) where
  reads := by
    have templates := inPlace.templates thinned
    rw [chars_plainCells, map_piece_plainCells] at templates
    rw [chars_plainCells, ← sourcePieces_of_templates templates,
      map_piece_plainCells]
  kinds := Cell.readAs_cut _ _
  loose := loose
  beside := by
    rw [toLetter_plainCells]
    exact spacesBeside_plainLetters stops
  inPlace := inPlace

theorem sourcePieces_of_kept {cells : List Cell} {source : String}
    (spelled : Glyph.chars (Glyph.kept (flat cells)) = source.toList)
    (thins : Thins cells (sourcePieces .code source.toList))
    (templates : 'İ' ∉ Glyph.chars (flat cells) ∨
      ∀ piece ∈ cells.map Cell.piece, piece.1 ≠ some .closeTag) :
    (lexCode source).map Token.piece = sourcePieces .code source.toList := by
  rcases templates with plain | codeOnly
  · apply sourcePieces_of_templates
    left
    rw [← spelled]
    exact fun inKept => plain ((Glyph.chars_kept_sublist _).subset inKept)
  · apply lexCode_sourcePieces
    intro piece member closes
    have listed : piece ∈
        (sourcePieces .code source.toList).filter isMeaningful := by
      apply List.mem_filter.mpr
      refine ⟨(codePieces_isPrefix _).subset member, ?_⟩
      rw [isMeaningful, closes]
      rfl
    rw [thins.filter_isMeaningful] at listed
    exact codeOnly piece (List.mem_of_mem_filter listed) closes

/-- Leaving out loose spaces does not change the tokens of an instance other
than its trivia. -/
theorem lexCode_instantiate {replacement : String} {captures : Captures}
    (lexed : captures.Lexed)
    (loose : LooseSpaces
      (plainCells (Replacement.parse replacement) captures))
    (inPlace : ReadInPlace
      (plainCells (Replacement.parse replacement) captures)) :
    meaningfulTexts (Token.render
        (instantiate (Replacement.parse replacement) captures)).toList =
      meaningfulTexts (Token.render
        (plainInstance (Replacement.parse replacement) captures)).toList := by
  generalize template : Replacement.parse replacement = elements at *
  have stops := @exists_stop_of_mem_plainInstance replacement captures lexed
  rw [template] at stops
  have kept := chars_kept_plainCells elements captures
  by_cases thinned : IsThinned (plainCells elements captures)
  · have thins := (spaced_plainCells stops loose inPlace thinned).thins_kept
    rw [kept] at thins
    rw [meaningfulTexts_toList, meaningfulTexts_toList,
      sourcePieces_of_kept kept thins (inPlace.templates thinned),
      thins.filter_isMeaningful, map_piece_plainCells]
  · rw [← kept, kept_of_not_isThinned thinned, chars_plainCells]

/-- Spaces are left out in front of comments, behind them and inside of one. -/
theorem lexCode_instantiate_comments :
    let captures : Captures :=
      [("x", lexCode " a /* b */"), ("y", lexCode " c // d")]
    let template := Replacement.parse "echo $(x) + $(y) ;"
    captures.Lexed ∧
      LooseSpaces (plainCells template captures) ∧
      ReadInPlace (plainCells template captures) ∧
      meaningfulTexts (Token.render (instantiate template captures)).toList =
        meaningfulTexts
          (Token.render (plainInstance template captures)).toList := by
  intro captures template
  have lexed : captures.Lexed := .cons _ _ (.cons _ _ .nil)
  have loose : LooseSpaces (plainCells template captures) := by
    constructor <;> decide +kernel
  have inPlace : ReadInPlace (plainCells template captures) := by
    apply ReadInPlace.of_cells <;> decide +kernel
  exact ⟨lexed, loose, inPlace, lexCode_instantiate lexed loose inPlace⟩

/-- A lone slash and the slash of a comment come side by side, and for each of
the other conditions there is a space that matters where it fails. -/
theorem lexCode_instantiate_changes :
    let shown (tokens : List Token) : List String :=
      meaningfulTexts (Token.render tokens).toList
    let captured (code : String) : Captures := [("x", lexCode code)]
    let changes (replacement code : String) : Prop :=
      shown (instantiate (Replacement.parse replacement) (captured code)) ≠
        shown (plainInstance (Replacement.parse replacement) (captured code))
    (∀ code, (captured code).Lexed) ∧
      (shown (instantiate (Replacement.parse "/ $(x)") (captured "// c")) =
          [] ∧
        shown (plainInstance (Replacement.parse "/ $(x)") (captured "// c")) =
          ["/"]) ∧
      -- in a string, in a comment and behind a string
      changes "\"$(x) \"" " " ∧
      changes "$(x) [1]" "#" ∧
      changes "\"$(x) b" "// \"a" ∧
      -- in front of a no-break space
      changes "a $(x)" "\u00a0b" ∧
      -- in a heredoc, behind an open tag and between open tags
      changes "<<<A $(x)" "\nfoo\nA" ∧
      changes "?><?php\r $(x)" "\n" ∧
      changes "İİİİİİ<?= $(x)?>abcdef" " " := by
  intro shown captured changes
  refine ⟨fun code => .cons _ _ .nil, ?_⟩
  decide +kernel

end TokenMacros
