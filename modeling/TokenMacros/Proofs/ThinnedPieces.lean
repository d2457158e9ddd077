import TokenMacros.Proofs.ThinnedCells

/-!
# Pieces without the spaces that are left out

A text from which some spaces are left out has the pieces of the whole text,
shortened by these spaces.  The spaces are left out from the back of the text to
its front, so that what stands in front of them is always read as in the whole
text.
-/

namespace TokenMacros

open Text (isBlank)
open Cell (flat)

/-! ## Pieces behind others -/

/-- The mode behind a row of pieces. -/
def modeAfter (mode : Mode) : List (Option Kind × List Char) → Mode
  | [] => mode
  | piece :: pieces => modeAfter (modeBehind piece.1) pieces

theorem sourcePieces_append {mode : Mode} {text : List Char}
    {pieces rest : List (Option Kind × List Char)}
    (split : sourcePieces mode text = pieces ++ rest) :
    sourcePieces (modeAfter mode pieces) (rest.flatMap Prod.snd) = rest := by
  induction pieces generalizing mode text with
  | nil =>
      have spelled := flatMap_sourcePieces mode text
      rw [split, List.nil_append] at spelled
      rw [spelled]
      exact split
  | cons first pieces induction =>
      cases text with
      | nil =>
          rw [sourcePieces_nil] at split
          cases split
      | cons c text =>
          rw [sourcePieces_cons] at split
          obtain ⟨rfl, later⟩ := List.cons.inj split
          exact induction later

theorem modeAfter_concat (mode : Mode)
    (pieces : List (Option Kind × List Char))
    (piece : Option Kind × List Char) :
    modeAfter mode (pieces ++ [piece]) = modeBehind piece.1 := by
  induction pieces generalizing mode with
  | nil => rfl
  | cons first pieces induction => exact induction _

/-! ## Reading without the spaces -/

/-- The cells `back` are read without their spaces behind the cells `front`. -/
structure ThinRead (front back : List Cell)
    (pieces : List (Option Kind × List Char)) : Prop where
  thins : Thins back pieces
  reads : sourcePieces .code
      (Glyph.chars (flat front) ++ Glyph.chars (Glyph.kept (flat back))) =
    front.map Cell.piece ++ pieces

namespace ThinRead

variable {front back : List Cell} {cell : Cell}
  {pieces : List (Option Kind × List Char)}

theorem from_cell (read : ThinRead (front ++ [cell]) back pieces) :
    sourcePieces (modeAfter .code (front.map Cell.piece))
        (Glyph.chars cell.glyphs ++ Glyph.chars (Glyph.kept (flat back))) =
      cell.piece :: pieces := by
  have both := read.reads
  rw [List.map_append, List.append_assoc] at both
  have here := sourcePieces_append both
  rwa [List.map_singleton, List.singleton_append, List.flatMap_cons,
    read.thins.spelled] at here

theorem behind_blanks (read : ThinRead (front ++ [cell]) back pieces)
    (whitespace : cell.kind? = some .whitespace) :
    (∀ c ∈ Glyph.chars cell.glyphs, isBlank c = true) ∧
      (∀ c ∈ (Glyph.chars (Glyph.kept (flat back))).head?,
        isBlank c = false) ∧
      sourcePieces .code (Glyph.chars (Glyph.kept (flat back))) = pieces := by
  have later := sourcePieces_append read.reads
  rw [List.map_append, List.map_singleton, modeAfter_concat,
    read.thins.spelled, Cell.piece, whitespace] at later
  have here := read.from_cell
  rw [Cell.piece, whitespace] at here
  obtain ⟨_, blank, ends⟩ := blanks_of_sourcePieces here
  rw [read.thins.spelled] at ends
  exact ⟨blank, ends, later⟩

theorem split_at (read : ThinRead (front ++ [cell]) back pieces) {first : Char}
    {rest : List Char} (shape : Glyph.chars cell.glyphs = first :: rest) :
    sourcePieces .code (Glyph.chars (flat front) ++ first ::
        (rest ++ Glyph.chars (Glyph.kept (flat back)))) =
      front.map Cell.piece ++ cell.piece :: pieces := by
  have both := read.reads
  rwa [Cell.flat_append, Cell.flat_singleton, Glyph.chars_append, shape,
    List.append_assoc, List.cons_append, List.map_append, List.map_singleton,
    List.append_assoc, List.singleton_append] at both

end ThinRead

namespace Spaced

variable {cells front back : List Cell} {cell : Cell}
  {pieces : List (Option Kind × List Char)}

theorem beside_of_split (spaced : Spaced cells) {before after : List Glyph}
    {space : Glyph} (split : flat cells = before ++ space :: after)
    (left : space.leftOut = true) :
    space.char = ' ' ∧
      ((∃ next ∈ after.head?, isStop next.char = true) ∨
        ∃ last ∈ before.getLast?,
          last.inTrivia = true ∧ last.leftOut = false) := by
  have letters : (flat cells).map Glyph.toLetter =
      before.map Glyph.toLetter ++
        space.toLetter :: after.map Glyph.toLetter := by
    rw [split, List.map_append, List.map_cons]
  obtain ⟨isSpace, beside⟩ := spaced.beside _ _ _ letters left
  refine ⟨isSpace, beside.imp ?_ ?_⟩
  · rintro ⟨_, isHead, stops⟩
    rw [List.head?_map] at isHead
    obtain ⟨next, isNext, rfl⟩ := Option.map_eq_some_iff.mp isHead
    exact ⟨next, isNext, stops⟩
  · rintro ⟨_, isLast, kept⟩
    rw [List.getLast?_map] at isLast
    obtain ⟨last, found, rfl⟩ := Option.map_eq_some_iff.mp isLast
    exact ⟨last, found, kept⟩

theorem char_of_leftOut (spaced : Spaced cells) {glyph : Glyph}
    (member : glyph ∈ flat cells) (left : glyph.leftOut = true) :
    glyph.char = ' ' := by
  obtain ⟨before, after, split⟩ := List.append_of_mem member
  exact (spaced.beside_of_split split left).1

theorem glyphs_ne_nil (spaced : Spaced cells) (member : cell ∈ cells) :
    cell.glyphs ≠ [] := by
  intro nothing
  have piece : cell.piece ∈ sourcePieces .code (Glyph.chars (flat cells)) := by
    rw [spaced.reads]
    exact List.mem_map_of_mem member
  apply sourcePieces_text_ne_nil piece
  rw [Cell.piece, nothing]
  rfl

theorem exists_first (spaced : Spaced cells) (member : cell ∈ cells) :
    ∃ first rest, cell.glyphs = first :: rest ∧
      Glyph.chars cell.glyphs = first.char :: Glyph.chars rest := by
  obtain ⟨first, rest, shape⟩ :=
    List.exists_cons_of_ne_nil (spaced.glyphs_ne_nil member)
  exact ⟨first, rest, shape, by rw [shape, Glyph.chars_cons]⟩

/-- What is read in front of a piece of trivia does not change when that piece
is replaced by another stop, if a space is left out behind. -/
theorem read_replaced (spaced : Spaced (front ++ cell :: back))
    (thinned : IsThinned (cell :: back))
    (trivia : cell.kind?.any Kind.isTrivia = true)
    {stop old : Char} (replaces : Replaces stop old) {more more' : List Char}
    {rest : List (Option Kind × List Char)}
    (read : sourcePieces .code (Glyph.chars (flat front) ++ old :: more) =
      front.map Cell.piece ++ cell.piece :: rest)
    (slash : ∀ last ∈ (front.map Cell.piece).getLast?,
      last = (none, ['/']) → stop = '/' → old = '/') :
    sourcePieces .code (Glyph.chars (flat front) ++ stop :: more') =
      front.map Cell.piece ++ sourcePieces .code (stop :: more') := by
  have begins : ∀ c ∈ cell.piece.2.head?, c = old := by
    intro c isHead
    have spelled := flatMap_sourcePieces .code
      (Glyph.chars (flat front) ++ old :: more)
    rw [read, List.flatMap_append, Cell.flatMap_piece,
      List.append_cancel_left_eq, List.flatMap_cons,
      List.eq_cons_of_mem_head? isHead] at spelled
    exact (List.cons.inj spelled).1
  rw [← Cell.flatMap_piece] at read ⊢
  apply sourcePieces_replaces replaces read trivia slash
  · have chain := spaced.inPlace.shifts _ _ rfl thinned
    apply List.isChain_append.mpr ⟨chain, List.isChain_singleton _, ?_⟩
    intro shift _ trivial isHead _ opens
    obtain rfl := Option.some.inj isHead
    have stops := replaces.oldStops
    rw [← begins '<' opens] at stops
    cases stops
  · exact spaced.inPlace.tags _ _ rfl thinned

/-- A cell from which nothing is left out stays. -/
theorem step_kept (read : ThinRead (front ++ [cell]) back pieces)
    (all : ∀ glyph ∈ cell.glyphs, glyph.leftOut = false) :
    ThinRead front (cell :: back) (cell.piece :: pieces) where
  thins := .keep all read.thins
  reads := by
    have both := read.reads
    rw [Cell.flat_append, Cell.flat_singleton, Glyph.chars_append,
      List.append_assoc, List.map_append, List.map_singleton,
      List.append_assoc, List.singleton_append] at both
    rwa [Cell.flat_cons, Glyph.kept_append, Glyph.chars_append,
      Glyph.kept_eq_self all]

theorem replaces_of_kept (spaced : Spaced cells) (member : cell ∈ cells)
    (whitespace : cell.kind? = some .whitespace)
    (blank : ∀ c ∈ Glyph.chars cell.glyphs, isBlank c = true)
    {stop old : Glyph} {rest glyphs : List Glyph}
    (first : Glyph.kept cell.glyphs = stop :: rest)
    (shape : cell.glyphs = old :: glyphs) : Replaces stop.char old.char := by
  obtain ⟨front, back, rfl⟩ := List.append_of_mem member
  rw [shape] at blank first
  apply Glyph.replaces_of_kept _ _ blank _ first
  · have ascii := spaced.loose.ascii
    rw [Cell.flat_append, Cell.flat_cons, shape] at ascii
    exact ascii.right_of_append.left_of_append
  · intro glyph inCell
    rw [← whitespace]
    apply spaced.kinds cell member
    rwa [shape]
  · intro left
    apply spaced.char_of_leftOut _ left
    apply List.mem_flatMap_of_mem member
    rw [shape]
    exact List.mem_cons_self

/-- White space of which something is kept is shortened. -/
theorem step_shortened (spaced : Spaced (front ++ cell :: back))
    (read : ThinRead (front ++ [cell]) back pieces)
    (thinned : IsThinned (cell :: back))
    (whitespace : cell.kind? = some .whitespace)
    (something : Glyph.kept cell.glyphs ≠ []) :
    ThinRead front (cell :: back)
      ((some .whitespace, Glyph.chars (Glyph.kept cell.glyphs)) :: pieces) := by
  have member : cell ∈ front ++ cell :: back :=
    List.mem_append_right _ List.mem_cons_self
  have isTrivia := Cell.isTrivia_of_whitespace whitespace
  obtain ⟨blank, ends, behind⟩ := read.behind_blanks whitespace
  obtain ⟨stop, rest, first⟩ := List.exists_cons_of_ne_nil something
  obtain ⟨old, glyphs, shape, shapeChars⟩ := spaced.exists_first member
  have replaces := spaced.replaces_of_kept member whitespace blank first shape
  have keptBlank : ∀ c ∈ Glyph.chars (Glyph.kept cell.glyphs),
      isBlank c = true := by
    intro c inKept
    apply blank
    exact (Glyph.chars_kept_sublist cell.glyphs).subset inKept
  have firstChars : Glyph.chars (Glyph.kept cell.glyphs) =
      stop.char :: Glyph.chars rest := by
    rw [first, Glyph.chars_cons]
  have notSlash : stop.char ≠ '/' := by
    intro slash
    have slashBlank : isBlank '/' = true := by
      apply keptBlank
      rw [firstChars, slash]
      exact List.mem_cons_self
    cases slashBlank
  have nonempty : Glyph.chars (Glyph.kept cell.glyphs) ≠ [] := by
    rw [firstChars]
    exact List.cons_ne_nil _ _
  have replaced := @read_replaced front back cell spaced thinned isTrivia _ _
    replaces _ (Glyph.chars rest ++ Glyph.chars (Glyph.kept (flat back))) _
    (read.split_at shapeChars) (fun _ _ _ slash => absurd slash notSlash)
  rw [← List.cons_append, ← firstChars,
    sourcePieces_blanks nonempty keptBlank ends, behind] at replaced
  refine ⟨.shorten _ isTrivia rfl read.thins, ?_⟩
  rw [Cell.flat_cons, Glyph.kept_append, Glyph.chars_append, replaced]

theorem step_comment (spaced : Spaced (front ++ cell :: back))
    (read : ThinRead (front ++ [cell]) back pieces)
    (isTrivia : cell.kind?.any Kind.isTrivia = true)
    (comment : cell.kind? ≠ some .whitespace) {space : Glyph}
    (inCell : space ∈ cell.glyphs) (left : space.leftOut = true) :
    ∃ kind?, ThinRead front (cell :: back)
      ((kind?, Glyph.chars (Glyph.kept cell.glyphs)) :: pieces) := by
  have member : cell ∈ front ++ cell :: back :=
    List.mem_append_right _ List.mem_cons_self
  have loses : LosesSpaces (Glyph.chars cell.glyphs)
      (Glyph.chars (Glyph.kept cell.glyphs)) := by
    apply Glyph.losesSpaces
    intro glyph inside
    exact spaced.char_of_leftOut (List.mem_flatMap_of_mem member inside)
  have alone := spaced.loose.comments cell member space inCell left comment
  obtain ⟨c, rest, rest', kind?, shape, shape', stops, stillTrivia, here⟩ :=
    sourcePieces_shortened isTrivia comment read.from_cell loses alone
  have same : Replaces c c := ⟨stops, stops, .inl rfl⟩
  have replaced := @read_replaced front back cell spaced
    (.of_cell inCell left) isTrivia _ _ same
    _ (rest' ++ Glyph.chars (Glyph.kept (flat back))) _
    (read.split_at shape) (fun _ _ _ slash => slash)
  rw [← List.cons_append, ← shape', here] at replaced
  refine ⟨kind?, .shorten kind? isTrivia stillTrivia read.thins, ?_⟩
  rw [Cell.flat_cons, Glyph.kept_append, Glyph.chars_append, replaced]

theorem not_isBlank_behind (spaced : Spaced (front ++ cell :: back))
    (whitespace : cell.kind? = some .whitespace) :
    ∀ glyph ∈ (flat back).head?, isBlank glyph.char = false := by
  have reads := spaced.reads
  rw [List.map_append] at reads
  have here := sourcePieces_append reads
  rw [List.map_cons, Cell.piece, whitespace] at here
  obtain ⟨_, _, ends⟩ := blanks_of_sourcePieces here
  rw [Cell.flatMap_piece, Glyph.chars, List.head?_map] at ends
  intro glyph isHead
  exact ends glyph.char (Option.mem_map_of_mem _ isHead)

/-- No comment comes about where a lone slash stands in front of a cell that
vanishes. -/
theorem no_slash (spaced : Spaced (front ++ cell :: back))
    (nothing : Glyph.kept cell.glyphs = []) {next : Glyph} {after : List Glyph}
    (split : flat back = next :: after) (keptNext : next.leftOut = false)
    {last : Option Kind × List Char}
    (isLast : last ∈ (front.map Cell.piece).getLast?)
    (bare : last = (none, ['/'])) : next.char ≠ '/' := by
  rw [Option.mem_def, List.getLast?_map, Option.map_eq_some_iff] at isLast
  obtain ⟨lone, isLone, rfl⟩ := isLast
  obtain ⟨before, rfl⟩ := List.getLast?_eq_some_iff.mp isLone
  obtain ⟨isBare, isSlash⟩ := Prod.mk.inj bare
  obtain ⟨slash, shape, char⟩ := List.map_eq_singleton_iff.mp isSlash
  have member : lone ∈ before ++ [lone] ++ cell :: back := by simp
  have inLone : slash ∈ lone.glyphs := by
    rw [shape]
    exact List.mem_cons_self
  have keptSlash : slash.leftOut = false := by
    rw [← Bool.not_eq_true]
    intro left
    have isTrivia := spaced.loose.inTrivia lone member slash inLone left
    rw [isBare] at isTrivia
    cases isTrivia
  have chain := spaced.loose.slashes
  have row : Glyph.kept (flat (before ++ [lone] ++ cell :: back)) =
      Glyph.kept (flat before) ++ slash :: next :: Glyph.kept after := by
    rw [Cell.flat_append, Cell.flat_append, Cell.flat_singleton,
      Cell.flat_cons, shape, split, Glyph.kept_append, Glyph.kept_append,
      Glyph.kept_append, nothing, Glyph.kept_cons_of_kept keptSlash,
      Glyph.kept_cons_of_kept keptNext, List.append_assoc]
    rfl
  rw [row] at chain
  apply (List.isChain_cons_cons.mp chain.right_of_append).1 _ char
  rw [spaced.kinds lone member slash inLone, isBare]

/-- A space between a piece and a comment is left out. -/
theorem step_before_stop (spaced : Spaced (front ++ cell :: back))
    (read : ThinRead (front ++ [cell]) back pieces)
    (whitespace : cell.kind? = some .whitespace)
    (nothing : Glyph.kept cell.glyphs = []) {next : Glyph}
    (isNext : next ∈ (flat back).head?) (stops : isStop next.char = true) :
    ThinRead front (cell :: back) pieces := by
  have member : cell ∈ front ++ cell :: back :=
    List.mem_append_right _ List.mem_cons_self
  obtain ⟨_, _, behind⟩ := read.behind_blanks whitespace
  obtain ⟨old, glyphs, shape, shapeChars⟩ := spaced.exists_first member
  obtain ⟨after, split⟩ : ∃ after, flat back = next :: after :=
    ⟨_, List.eq_cons_of_mem_head? isNext⟩
  have notBlank := spaced.not_isBlank_behind whitespace next isNext
  have keptNext : next.leftOut = false := by
    rw [← Bool.not_eq_true]
    intro left
    have space : next.char = ' ' := by
      apply spaced.char_of_leftOut _ left
      rw [Cell.flat_append, Cell.flat_cons, split]
      simp
    rw [space] at notBlank
    cases notBlank
  have inCell : old ∈ cell.glyphs := by
    rw [shape]
    exact List.mem_cons_self
  have leftOld : old.leftOut = true := by
    simpa using List.filter_eq_nil_iff.mp nothing old inCell
  have oldSpace : old.char = ' ' :=
    spaced.char_of_leftOut (List.mem_flatMap_of_mem member inCell) leftOld
  have replaces : Replaces next.char old.char := by
    refine ⟨stops, by rw [oldSpace]; rfl, .inr ⟨oldSpace, ?_⟩⟩
    apply isIdentifierPart_of_isStop stops
    rw [isStop, notBlank, Bool.false_or, Bool.or_eq_true, beq_iff_eq,
      beq_iff_eq] at stops
    rcases stops with hash | slash
    · rw [hash]
      decide
    · rw [slash]
      decide
  have keptBack : Glyph.chars (Glyph.kept (flat back)) =
      next.char :: Glyph.chars (Glyph.kept after) := by
    rw [split, Glyph.kept_cons_of_kept keptNext, Glyph.chars_cons]
  have isTrivia := Cell.isTrivia_of_whitespace whitespace
  have replaced := @read_replaced front back cell spaced
    (.of_cell inCell leftOld) isTrivia _ _ replaces _
    (Glyph.chars (Glyph.kept after)) _ (read.split_at shapeChars)
    (fun last isLast bare slash => absurd slash
      (spaced.no_slash nothing split keptNext isLast bare))
  rw [← keptBack, behind] at replaced
  refine ⟨.vanish isTrivia nothing read.thins, ?_⟩
  rwa [Cell.flat_cons, Glyph.kept_append, nothing, List.nil_append]

theorem exists_comment_in_front (spaced : Spaced (front ++ cell :: back))
    {space last : Glyph} (single : cell.glyphs = [space])
    (left : space.leftOut = true) (isLast : last ∈ (flat front).getLast?)
    (trivia : last.inTrivia = true) :
    ∃ before comment, front = before ++ [comment] ∧
      comment.kind?.any Kind.isTrivia = true ∧
        comment.kind? ≠ some .whitespace := by
  rcases List.eq_nil_or_concat' front with rfl | ⟨before, comment, rfl⟩
  · cases isLast
  have member : comment ∈ before ++ [comment] ++ cell :: back := by simp
  refine ⟨before, comment, rfl, ?_, ?_⟩
  · rw [Cell.flat_append, Cell.flat_singleton,
      List.getLast?_append_of_ne_nil _ (spaced.glyphs_ne_nil member)] at isLast
    obtain ⟨glyphs, shape⟩ := List.getLast?_eq_some_iff.mp isLast
    have chain := spaced.loose.behindTrivia
    have row : flat (before ++ [comment] ++ cell :: back) =
        (flat before ++ glyphs) ++ last :: space :: flat back := by
      rw [Cell.flat_append, Cell.flat_append, Cell.flat_singleton,
        Cell.flat_cons, shape, single]
      simp
    rw [row] at chain
    rw [← spaced.kinds comment member last (List.mem_of_getLast? isLast)]
    exact (List.isChain_cons_cons.mp chain.right_of_append).1 left trivia
  · intro blank
    have isSpace : space.char = ' ' := by
      apply spaced.char_of_leftOut _ left
      rw [Cell.flat_append, Cell.flat_cons, single]
      simp
    rw [List.append_assoc, List.singleton_append] at spaced
    have notBlank := spaced.not_isBlank_behind blank space (by
      rw [Cell.flat_cons, single]
      rfl)
    rw [isSpace] at notBlank
    cases notBlank

/-- A single space behind a comment is left out. -/
theorem step_behind_comment {comment : Cell}
    (spaced : Spaced (front ++ comment :: cell :: back))
    (read : ThinRead (front ++ [comment] ++ [cell]) back pieces)
    (isTrivia : comment.kind?.any Kind.isTrivia = true)
    (notBlank : comment.kind? ≠ some .whitespace)
    (whitespace : cell.kind? = some .whitespace) {space : Glyph}
    (single : cell.glyphs = [space]) (left : space.leftOut = true) :
    ThinRead (front ++ [comment]) (cell :: back) pieces := by
  have member : comment ∈ front ++ comment :: cell :: back :=
    List.mem_append_right _ List.mem_cons_self
  have singleChars : Glyph.chars cell.glyphs = [' '] := by
    have isSpace : space.char = ' ' := by
      apply spaced.char_of_leftOut _ left
      rw [Cell.flat_append, Cell.flat_cons, Cell.flat_cons, single]
      simp
    rw [single, ← isSpace]
    rfl
  obtain ⟨first, glyphs, shape, firstChars⟩ := spaced.exists_first member
  have shapeChars (back : List Char) :
      Glyph.chars comment.glyphs ++ back =
        first.char :: (Glyph.chars glyphs ++ back) := by
    rw [firstChars, List.cons_append]
  have whole : sourcePieces .code (Glyph.chars (flat front) ++
      (Glyph.chars comment.glyphs ++
        ' ' :: Glyph.chars (Glyph.kept (flat back)))) =
      front.map Cell.piece ++ comment.piece :: (cell.piece :: pieces) := by
    have both := read.split_at singleChars
    simpa [Cell.flat_append, Cell.flat_singleton] using both
  have here := sourcePieces_append whole
  rw [List.flatMap_cons, List.flatMap_cons, read.thins.spelled, Cell.piece,
    Cell.piece, singleChars] at here
  obtain ⟨stops, closed⟩ := sourcePieces_comment isTrivia notBlank here
  have same : Replaces first.char first.char := by
    have firstStops : isStop first.char = true := by
      apply stops
      rw [shape]
      rfl
    exact ⟨firstStops, firstStops, .inl rfl⟩
  rw [shapeChars] at whole
  have thinned : IsThinned (cell :: back) := by
    apply IsThinned.of_cell _ left
    rw [single]
    exact List.mem_cons_self
  have replaced := @read_replaced front (cell :: back) comment spaced
    thinned.cons isTrivia _ _ same _
    (Glyph.chars glyphs ++ Glyph.chars (Glyph.kept (flat back))) _ whole
    (fun _ _ _ slash => slash)
  obtain ⟨_, _, behind⟩ := read.behind_blanks whitespace
  rw [← shapeChars, closed, behind] at replaced
  have vanishes : Glyph.kept cell.glyphs = [] := by
    rw [single, Glyph.kept_cons_of_leftOut left]
    rfl
  have isBlank := Cell.isTrivia_of_whitespace whitespace
  refine ⟨.vanish isBlank vanishes read.thins, ?_⟩
  rw [Cell.flat_cons, Glyph.kept_append, vanishes, List.nil_append,
    Cell.flat_append, Cell.flat_singleton, Glyph.chars_append,
    List.append_assoc, replaced]
  simp [Cell.piece]

theorem step_vanished (spaced : Spaced (front ++ cell :: back))
    (read : ThinRead (front ++ [cell]) back pieces)
    (whitespace : cell.kind? = some .whitespace)
    (nothing : Glyph.kept cell.glyphs = []) :
    ThinRead front (cell :: back) pieces := by
  have member : cell ∈ front ++ cell :: back :=
    List.mem_append_right _ List.mem_cons_self
  obtain ⟨glyphs, space, shape⟩ :=
    (List.eq_nil_or_concat' cell.glyphs).resolve_left
      (spaced.glyphs_ne_nil member)
  have allLeft : ∀ glyph ∈ cell.glyphs, glyph.leftOut = true := by
    intro glyph inCell
    simpa using List.filter_eq_nil_iff.mp nothing glyph inCell
  have left : space.leftOut = true := by
    apply allLeft
    rw [shape]
    exact List.mem_append_right _ List.mem_cons_self
  have whole : flat (front ++ cell :: back) =
      flat front ++ glyphs ++ space :: flat back := by
    rw [Cell.flat_append, Cell.flat_cons, shape]
    simp
  obtain ⟨_, beside⟩ := spaced.beside_of_split whole left
  rcases beside with ⟨next, isNext, stops⟩ | ⟨last, isLast, trivia, keptLast⟩
  · exact spaced.step_before_stop read whitespace nothing isNext stops
  · -- the trivia is kept, so it stands in front of the cell
    have alone : glyphs = [] := by
      cases isEmpty : glyphs with
      | nil => rfl
      | cons first rest =>
          exfalso
          have inGlyphs : last ∈ glyphs := by
            rw [List.getLast?_append_of_ne_nil] at isLast
            · exact List.mem_of_getLast? isLast
            · rw [isEmpty]
              exact List.cons_ne_nil _ _
          have leftLast : last.leftOut = true := by
            apply allLeft
            rw [shape]
            exact List.mem_append_left _ inGlyphs
          rw [keptLast] at leftLast
          cases leftLast
    rw [alone, List.append_nil] at isLast
    rw [alone] at shape
    obtain ⟨before, comment, rfl, isTrivia, notBlank⟩ :=
      spaced.exists_comment_in_front shape left isLast trivia
    rw [List.append_assoc, List.singleton_append] at spaced
    exact spaced.step_behind_comment read isTrivia notBlank whitespace shape
      left

theorem step (spaced : Spaced (front ++ cell :: back))
    (read : ThinRead (front ++ [cell]) back pieces) :
    ∃ pieces, ThinRead front (cell :: back) pieces := by
  by_cases some : ∃ glyph ∈ cell.glyphs, glyph.leftOut = true
  · obtain ⟨glyph, inCell, left⟩ := some
    have isTrivia : cell.kind?.any Kind.isTrivia = true :=
      spaced.loose.inTrivia cell
        (List.mem_append_right _ List.mem_cons_self) glyph inCell left
    by_cases whitespace : cell.kind? = Option.some .whitespace
    · by_cases nothing : Glyph.kept cell.glyphs = []
      · exact ⟨_, spaced.step_vanished read whitespace nothing⟩
      · exact ⟨_, spaced.step_shortened read (.of_cell inCell left) whitespace
          nothing⟩
    · obtain ⟨kind?, shortened⟩ :=
        spaced.step_comment read isTrivia whitespace inCell left
      exact ⟨_, shortened⟩
  · refine ⟨_, step_kept read ?_⟩
    intro glyph inCell
    rw [← Bool.not_eq_true]
    exact fun left => some ⟨glyph, inCell, left⟩

theorem thinRead (spaced : Spaced (front ++ back)) :
    ∃ pieces, ThinRead front back pieces := by
  induction back generalizing front with
  | nil =>
      refine ⟨[], .nil, ?_⟩
      have reads := spaced.reads
      rw [List.append_nil] at reads
      simpa [Cell.flat, Glyph.kept, Glyph.chars] using reads
  | cons cell back induction =>
      have behind : Spaced (front ++ [cell] ++ back) := by
        rwa [List.append_assoc, List.singleton_append]
      obtain ⟨pieces, read⟩ := induction behind
      exact spaced.step read

/-- A text without the spaces that are left out is read as the whole text, but
for its trivia. -/
theorem thins_kept (spaced : Spaced cells) :
    Thins cells
      (sourcePieces .code (Glyph.chars (Glyph.kept (flat cells)))) := by
  obtain ⟨pieces, thins, reads⟩ := @thinRead [] cells spaced
  rw [Cell.flat, List.flatMap_nil] at reads
  exact reads ▸ thins

end Spaced

end TokenMacros
