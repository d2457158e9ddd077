import TokenMacros.Proofs.OpenTags
import TokenMacros.Proofs.SettledTokens

/-!
# A source as a row of pieces

Up to lines, a source with its open tags in place is lexed into a row of pieces,
each of which depends on the text from its own beginning and on the mode there
alone.
-/

namespace TokenMacros

open Text (lower lowerAfter)

/-- Template text and the open tags that end it. -/
def Kind.isTemplate : Kind → Bool
  | .inlineHtml | .openTag => true
  | _ => false

namespace Lexeme

/-- The piece that begins with the character `c`, which `rest` follows, where
the text is read in the given mode. -/
def inMode (mode : Mode) (c : Char) (rest : List Char) : Lexeme :=
  match mode with
  | .code => next c rest
  | .template =>
    match openTagOffset? (asciiLower (c :: rest)) with
    | none => ⟨some .inlineHtml, (c :: rest).length⟩
    | some 0 => ⟨some .openTag, openTagExtent (c :: rest)⟩
    | some offset => ⟨some .inlineHtml, offset⟩

theorem inMode_extent_pos (mode : Mode) (c : Char) (rest : List Char) :
    0 < (inMode mode c rest).extent := by
  cases mode with
  | code => exact next_extent_pos c rest
  | template =>
      unfold inMode
      dsimp only
      split
      · exact Nat.succ_pos _
      · exact openTagExtent_pos _
      · next notHere _ => exact Nat.pos_of_ne_zero notHere

theorem next_isTemplate (c : Char) (rest : List Char) :
    (next c rest).kind?.any Kind.isTemplate = false := by
  rw [next_eq_read]
  apply @Form.read_kind (fun kind? => kind?.any Kind.isTemplate = false)
  cases Form.ofChars c rest.head? <;> decide

end Lexeme

/-- The mode behind a piece: a close tag leaves code, an open tag template text.
-/
def modeBehind (kind? : Option Kind) : Mode :=
  if kind? = some .closeTag ∨ kind? = some .inlineHtml then .template else .code

theorem modeBehind_next (c : Char) (rest : List Char) :
    modeBehind (Lexeme.next c rest).kind? =
      if (Lexeme.next c rest).kind? = some .closeTag then .template
      else .code := by
  have other := Lexeme.next_isTemplate c rest
  rw [modeBehind]
  congr 1
  rw [eq_iff_iff, or_iff_left_iff_imp]
  intro html
  rw [html] at other
  cases other

/-- The pieces of a source that is read in the given mode. -/
def sourcePieces (mode : Mode) : List Char → List (Option Kind × List Char)
  | [] => []
  | c :: rest =>
    ((Lexeme.inMode mode c rest).kind?,
        (c :: rest).take (Lexeme.inMode mode c rest).extent) ::
      sourcePieces (modeBehind (Lexeme.inMode mode c rest).kind?)
        ((c :: rest).drop (Lexeme.inMode mode c rest).extent)
  termination_by text => text.length
  decreasing_by
    have positive := Lexeme.inMode_extent_pos mode c rest
    rw [List.length_drop, List.length_cons]
    omega

theorem sourcePieces_nil (mode : Mode) : sourcePieces mode [] = [] := by
  rw [sourcePieces]

theorem sourcePieces_cons (mode : Mode) (c : Char) (rest : List Char) :
    sourcePieces mode (c :: rest) =
      ((Lexeme.inMode mode c rest).kind?,
          (c :: rest).take (Lexeme.inMode mode c rest).extent) ::
        sourcePieces (modeBehind (Lexeme.inMode mode c rest).kind?)
          ((c :: rest).drop (Lexeme.inMode mode c rest).extent) := by
  rw [sourcePieces]

theorem flatMap_sourcePieces (mode : Mode) (text : List Char) :
    (sourcePieces mode text).flatMap Prod.snd = text := by
  fun_induction sourcePieces mode text with
  | case1 => rfl
  | case2 mode c rest induction =>
      rw [List.flatMap_cons, induction, List.take_append_drop]

theorem sourcePieces_text_ne_nil {mode : Mode} {text : List Char}
    {piece : Option Kind × List Char} (member : piece ∈ sourcePieces mode text) :
    piece.2 ≠ [] := by
  fun_induction sourcePieces mode text with
  | case1 => cases member
  | case2 mode c rest induction =>
      rcases List.mem_cons.mp member with rfl | later
      · obtain ⟨further, extent⟩ := Nat.exists_eq_add_of_le'
          (Lexeme.inMode_extent_pos mode c rest)
        rw [extent]
        exact List.cons_ne_nil _ _
      · exact induction later

theorem sourcePieces_of_extent {mode : Mode} {kind? : Option Kind} {c : Char}
    {front back : List Char}
    (isKind : (Lexeme.inMode mode c (front ++ back)).kind? = kind?)
    (extent : (Lexeme.inMode mode c (front ++ back)).extent =
      (c :: front).length) :
    sourcePieces mode (c :: front ++ back) =
      (kind?, c :: front) :: sourcePieces (modeBehind kind?) back := by
  rw [List.cons_append, sourcePieces_cons, isKind, extent, ← List.cons_append,
    List.take_left, List.drop_left]

theorem exists_of_sourcePieces_cons {mode : Mode} {kind? : Option Kind}
    {text back : List Char} {pieces : List (Option Kind × List Char)}
    (split : sourcePieces mode (text ++ back) = (kind?, text) :: pieces)
    (goesOn : back ≠ []) :
    ∃ c front, text = c :: front ∧
      (Lexeme.inMode mode c (front ++ back)).kind? = kind? ∧
      (Lexeme.inMode mode c (front ++ back)).extent = (c :: front).length ∧
      sourcePieces (modeBehind kind?) back = pieces := by
  have nonempty : text ≠ [] := by
    apply @sourcePieces_text_ne_nil mode _ (kind?, text)
    rw [split]
    exact List.mem_cons_self
  obtain ⟨c, front, rfl⟩ := List.exists_cons_of_ne_nil nonempty
  rw [List.cons_append, sourcePieces_cons] at split
  obtain ⟨piece, later⟩ := List.cons.inj split
  obtain ⟨isKind, isText⟩ := Prod.mk.inj piece
  have extent : (Lexeme.inMode mode c (front ++ back)).extent =
      (c :: front).length := by
    have more := List.length_pos_iff.mpr goesOn
    have length := congrArg List.length isText
    simp only [List.length_take, List.length_cons,
      List.length_append] at length
    rw [List.length_cons]
    omega
  rw [isKind, extent, ← List.cons_append, List.drop_left] at later
  exact ⟨c, front, rfl, isKind, extent, later⟩

theorem sourcePieces_code_of_codePieces {text : List Char}
    (codeOnly : CodeOnly (codePieces text)) :
    sourcePieces .code text = codePieces text := by
  fun_induction codePieces text with
  | case1 => exact sourcePieces_nil .code
  | case2 c rest induction =>
      have stays : (Lexeme.next c rest).kind? ≠ some .closeTag :=
        codeOnly _ List.mem_cons_self
      have behind : modeBehind (Lexeme.next c rest).kind? = .code := by
        rw [modeBehind_next, if_neg stays]
      rw [if_neg stays] at codeOnly ⊢
      rw [sourcePieces_cons, Lexeme.inMode, behind, induction]
      intro piece member
      exact codeOnly piece (List.mem_cons_of_mem _ member)

/-! ## The pieces that are lexed -/

theorem sourcePieces_html {c : Char} {rest : List Char} {offset : Nat}
    (found : openTagOffset? (asciiLower (c :: rest)) = some offset)
    (html : offset ≠ 0) :
    sourcePieces .template (c :: rest) =
      (some .inlineHtml, (c :: rest).take offset) ::
        sourcePieces .template ((c :: rest).drop offset) := by
  obtain ⟨further, rfl⟩ := Nat.exists_eq_add_one_of_ne_zero html
  rw [sourcePieces_cons]
  simp only [Lexeme.inMode, found]
  rfl

theorem sourcePieces_tag {text : List Char}
    (found : openTagOffset? (asciiLower text) = some 0) :
    sourcePieces .template text =
      (some .openTag, text.take (openTagExtent text)) ::
        sourcePieces .code (text.drop (openTagExtent text)) := by
  cases text with
  | nil => cases found
  | cons c rest =>
      rw [sourcePieces_cons]
      simp only [Lexeme.inMode, found]
      rfl

/-- A source with its tags in place is lexed into its pieces. -/
theorem Turns.map_piece {source : List Char} (inPlace : TagsInPlace source)
    {mode : Mode} {cursor : Cursor} {tokens : List Token}
    (turns : Turns (lower source) mode cursor tokens)
    (within : cursor.source = source) :
    tokens.map Token.piece = sourcePieces mode cursor.rest := by
  have place {cursor : Cursor} (within : cursor.source = source) :
      openTagOffset? ((lower source).drop cursor.position) =
        openTagOffset? (asciiLower cursor.rest) := by
    rw [lower, openTagOffset?_drop_lowerAfter inPlace, ← within,
      ← cursor.rest_eq]
  induction turns with
  | @done mode cursor exhausted =>
      rw [exhausted, sourcePieces_nil]
      rfl
  | @code cursor c rest tokens remaining later induction =>
      rw [List.map_cons, Token.piece_ofPiece, induction within,
        Cursor.rest_advance, remaining, sourcePieces_cons, Lexeme.inMode,
        modeBehind_next]
  | @html cursor nonempty none =>
      rw [place within] at none
      obtain ⟨c, rest, remaining⟩ := List.exists_cons_of_ne_nil nonempty
      rw [remaining] at none ⊢
      rw [sourcePieces_cons]
      simp only [Lexeme.inMode, none]
      rw [List.take_length, List.drop_length, sourcePieces_nil]
      simp
  | @tag cursor offset tokens nonempty found later induction =>
      rw [place within] at found
      let atTag := cursor.advance offset
      have tagText : atTag.rest = cursor.rest.drop offset := rfl
      have tagPieces : sourcePieces .template atTag.rest =
          (atTag.openTag :: tokens).map Token.piece := by
        rw [List.map_cons, induction within, Cursor.openTag,
          Token.piece_ofPiece]
        apply sourcePieces_tag
        rw [tagText, asciiLower, List.map_drop]
        exact openTagOffset?_drop found
      rw [List.map_append, ← tagPieces, tagText, Cursor.htmlBefore]
      split
      · next here => rw [here]; rfl
      · next html =>
          obtain ⟨c, rest, remaining⟩ := List.exists_cons_of_ne_nil nonempty
          rw [remaining] at found
          rw [remaining, sourcePieces_html found html, List.map_singleton,
            Token.piece_ofPiece]
          rfl

theorem lex_sourcePieces {mode : Mode} {source : String}
    (inPlace : TagsInPlace source.toList) :
    (lex mode source).map Token.piece = sourcePieces mode source.toList :=
  (turns_of_lexFrom (lexFrom_start mode source)).map_piece inPlace rfl

end TokenMacros
