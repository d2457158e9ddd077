import TokenMacros.Proofs.ShortenedComments
import TokenMacros.Proofs.StablePieces

/-!
# Texts from which spaces are left out

The characters of a text that is put together from tokens are followed with what
they come from, and cut into the pieces that the text is lexed into.  What is
left out of a text are spaces that no token depends on, and only its white space
and its comments get shorter.
-/

namespace TokenMacros

open Text (isBlank)

/-- A character of a text that is put together from tokens. -/
structure Letter where
  char : Char
  /-- It is a space that is left out. -/
  leftOut : Bool
  /-- The token it is put in with is white space or a comment. -/
  inTrivia : Bool
  deriving Repr, DecidableEq

/-- A letter, and the kind of the token it belongs to when the text is lexed. -/
structure Glyph extends Letter where
  readAs : Option Kind
  deriving Repr, DecidableEq

namespace Glyph

def chars (glyphs : List Glyph) : List Char :=
  glyphs.map (·.char)

/-- What is not left out. -/
def kept (glyphs : List Glyph) : List Glyph :=
  glyphs.filter fun glyph => !glyph.leftOut

theorem chars_cons (glyph : Glyph) (glyphs : List Glyph) :
    chars (glyph :: glyphs) = glyph.char :: chars glyphs := rfl

@[simp] theorem chars_append (front back : List Glyph) :
    chars (front ++ back) = chars front ++ chars back :=
  List.map_append

@[simp] theorem kept_append (front back : List Glyph) :
    kept (front ++ back) = kept front ++ kept back :=
  List.filter_append ..

theorem kept_cons_of_leftOut {glyph : Glyph} (left : glyph.leftOut = true)
    (glyphs : List Glyph) : kept (glyph :: glyphs) = kept glyphs := by
  rw [kept, List.filter_cons_of_neg, kept]
  rw [left]
  decide

theorem kept_cons_of_kept {glyph : Glyph} (keeps : glyph.leftOut = false)
    (glyphs : List Glyph) :
    kept (glyph :: glyphs) = glyph :: kept glyphs := by
  rw [kept, List.filter_cons_of_pos, kept]
  rw [keeps]
  rfl

theorem chars_kept_sublist (glyphs : List Glyph) :
    (chars (kept glyphs)).Sublist (chars glyphs) :=
  List.filter_sublist.map _

theorem kept_eq_self {glyphs : List Glyph}
    (all : ∀ glyph ∈ glyphs, glyph.leftOut = false) : kept glyphs = glyphs := by
  apply List.filter_eq_self.mpr
  intro glyph member
  rw [all glyph member]
  rfl

/-- Behind a left-out space nothing beyond ASCII is kept as white space. -/
theorem toNat_lt_of_kept {space stop : Glyph} {glyphs rest : List Glyph}
    (ascii : (space :: glyphs).IsChain fun space behind =>
      space.leftOut = true → behind.readAs = some .whitespace →
        behind.char.toNat < 0x80)
    (white : ∀ glyph ∈ glyphs, glyph.readAs = some .whitespace)
    (left : space.leftOut = true) (first : kept glyphs = stop :: rest) :
    stop.char.toNat < 0x80 := by
  induction glyphs generalizing space with
  | nil => cases first
  | cons glyph glyphs induction =>
      obtain ⟨here, later⟩ := List.isChain_cons_cons.mp ascii
      cases leftOut : glyph.leftOut with
      | true =>
          rw [kept_cons_of_leftOut leftOut] at first
          apply induction later _ leftOut first
          intro other member
          exact white other (List.mem_cons_of_mem glyph member)
      | false =>
          rw [kept_cons_of_kept leftOut] at first
          obtain rfl := (List.cons.inj first).1
          exact here left (white _ List.mem_cons_self)

theorem losesSpaces {glyphs : List Glyph}
    (spaces : ∀ glyph ∈ glyphs, glyph.leftOut = true → glyph.char = ' ') :
    LosesSpaces (chars glyphs) (chars (kept glyphs)) := by
  induction glyphs with
  | nil => exact .nil
  | cons glyph glyphs induction =>
      rw [List.forall_mem_cons] at spaces
      have later := induction spaces.2
      rw [chars_cons]
      cases leftOut : glyph.leftOut with
      | true =>
          rw [kept_cons_of_leftOut leftOut, spaces.1 leftOut]
          exact .leaveOut later
      | false =>
          rw [kept_cons_of_kept leftOut]
          exact .keep glyph.char later

theorem replaces_of_kept {stop old : Glyph} {glyphs rest : List Glyph}
    (ascii : (old :: glyphs).IsChain fun space behind =>
      space.leftOut = true → behind.readAs = some .whitespace →
        behind.char.toNat < 0x80)
    (white : ∀ glyph ∈ old :: glyphs, glyph.readAs = some .whitespace)
    (blank : ∀ c ∈ chars (old :: glyphs), isBlank c = true)
    (space : old.leftOut = true → old.char = ' ')
    (first : kept (old :: glyphs) = stop :: rest) :
    Replaces stop.char old.char := by
  have member : stop ∈ old :: glyphs := by
    apply List.mem_of_mem_filter
    rw [kept] at first
    rw [first]
    exact List.mem_cons_self
  have stops {glyph : Glyph} (inside : glyph ∈ old :: glyphs) :
      isStop glyph.char = true := by
    rw [isStop, blank glyph.char (List.mem_map_of_mem inside)]
    rfl
  refine ⟨stops member, stops List.mem_cons_self, ?_⟩
  cases leftOut : old.leftOut with
  | true =>
      right
      refine ⟨space leftOut, ?_⟩
      rw [kept_cons_of_leftOut leftOut] at first
      apply isIdentifierPart_of_isStop (stops member)
      apply toNat_lt_of_kept ascii _ leftOut first
      intro other inside
      exact white other (List.mem_cons_of_mem old inside)
  | false =>
      left
      rw [kept_cons_of_kept leftOut] at first
      rw [(List.cons.inj first).1]

end Glyph

/-- Each left-out space has a stop behind it, or trivia that is kept in front of
it. -/
def SpacesBeside (letters : List Letter) : Prop :=
  ∀ before after space, letters = before ++ space :: after →
    space.leftOut = true →
      space.char = ' ' ∧
        ((∃ next ∈ after.head?, isStop next.char = true) ∨
          ∃ last ∈ before.getLast?, last.inTrivia = true ∧ last.leftOut = false)

/-- The glyphs of a piece. -/
structure Cell where
  kind? : Option Kind
  glyphs : List Glyph

namespace Cell

def piece (cell : Cell) : Option Kind × List Char :=
  (cell.kind?, Glyph.chars cell.glyphs)

def flat (cells : List Cell) : List Glyph :=
  cells.flatMap glyphs

end Cell

open Cell (flat)

/-- Left-out spaces that no token depends on. -/
structure LooseSpaces (cells : List Cell) : Prop where
  /-- They are read as white space or in comments. -/
  inTrivia : ∀ cell ∈ cells, ∀ glyph ∈ cell.glyphs, glyph.leftOut = true →
    cell.kind?.any Kind.isTrivia = true
  /-- A comment without them is one comment by itself. -/
  comments : ∀ cell ∈ cells, ∀ glyph ∈ cell.glyphs, glyph.leftOut = true →
    cell.kind? ≠ some .whitespace →
      (lexCode (String.ofList (Glyph.chars (Glyph.kept cell.glyphs)))).map
        Token.isTrivia = [true]
  /-- Trivia in front of them is still read as trivia. -/
  behindTrivia : (flat cells).IsChain fun before space =>
    space.leftOut = true → before.inTrivia = true →
      before.readAs.any Kind.isTrivia = true
  /-- White space behind them is no part of a name. -/
  ascii : (flat cells).IsChain fun space behind =>
    space.leftOut = true → behind.readAs = some .whitespace →
      behind.char.toNat < 0x80
  /-- No comment comes about by leaving them out. -/
  slashes : (Glyph.kept (flat cells)).IsChain fun slash behind =>
    slash.readAs = none → slash.char = '/' → behind.char ≠ '/'

/-- The pieces of the cells without what is left out. -/
inductive Thins : List Cell → List (Option Kind × List Char) → Prop where
  | nil : Thins [] []
  | keep {cell : Cell} {cells : List Cell}
      {pieces : List (Option Kind × List Char)} :
      (∀ glyph ∈ cell.glyphs, glyph.leftOut = false) →
      Thins cells pieces →
      Thins (cell :: cells) (cell.piece :: pieces)
  | vanish {cell : Cell} {cells : List Cell}
      {pieces : List (Option Kind × List Char)} :
      cell.kind?.any Kind.isTrivia = true →
      Glyph.kept cell.glyphs = [] →
      Thins cells pieces →
      Thins (cell :: cells) pieces
  | shorten {cell : Cell} {cells : List Cell}
      {pieces : List (Option Kind × List Char)} (kind? : Option Kind) :
      cell.kind?.any Kind.isTrivia = true →
      kind?.any Kind.isTrivia = true →
      Thins cells pieces →
      Thins (cell :: cells)
        ((kind?, Glyph.chars (Glyph.kept cell.glyphs)) :: pieces)

namespace Cell

variable (cells : List Cell)

theorem flat_cons (cell : Cell) :
    flat (cell :: cells) = cell.glyphs ++ flat cells := rfl

theorem flat_singleton (cell : Cell) : flat [cell] = cell.glyphs :=
  List.append_nil _

theorem isTrivia_of_whitespace {cell : Cell}
    (whitespace : cell.kind? = some .whitespace) :
    cell.kind?.any Kind.isTrivia = true := by
  rw [whitespace]
  rfl

theorem flat_append (front back : List Cell) :
    flat (front ++ back) = flat front ++ flat back :=
  List.flatMap_append

theorem flatMap_piece :
    (cells.map piece).flatMap Prod.snd = Glyph.chars (flat cells) := by
  induction cells with
  | nil => rfl
  | cons cell cells induction =>
      rw [List.map_cons, List.flatMap_cons, induction, flat_cons,
        Glyph.chars_append]
      rfl

end Cell

namespace Thins

variable {cells : List Cell} {pieces : List (Option Kind × List Char)}

theorem spelled (thins : Thins cells pieces) :
    pieces.flatMap Prod.snd = Glyph.chars (Glyph.kept (flat cells)) := by
  induction thins with
  | nil => rfl
  | keep all _ induction =>
      rw [List.flatMap_cons, induction, Cell.flat_cons, Glyph.kept_append,
        Glyph.chars_append, Glyph.kept_eq_self all, Cell.piece]
  | vanish _ nothing _ induction =>
      rw [induction, Cell.flat_cons, Glyph.kept_append, nothing,
        List.nil_append]
  | shorten kind? _ _ _ induction =>
      rw [List.flatMap_cons, induction, Cell.flat_cons, Glyph.kept_append,
        Glyph.chars_append]

theorem filter_isMeaningful (thins : Thins cells pieces) :
    pieces.filter isMeaningful =
      (cells.map Cell.piece).filter isMeaningful := by
  have skipped {kind? : Option Kind} (text : List Char)
      (trivia : kind?.any Kind.isTrivia = true) :
      ¬ isMeaningful (kind?, text) = true := by
    rw [isMeaningful, trivia]
    decide
  induction thins with
  | nil => rfl
  | keep _ _ induction =>
      rw [List.map_cons, List.filter_cons, List.filter_cons, induction]
  | vanish trivia _ _ induction =>
      rw [induction, List.map_cons, Cell.piece,
        List.filter_cons_of_neg (skipped _ trivia)]
  | shorten kind? trivia still _ induction =>
      rw [List.filter_cons_of_neg (skipped _ still), induction, List.map_cons,
        Cell.piece, List.filter_cons_of_neg (skipped _ trivia)]

end Thins

/-- A space of the cells is left out. -/
def IsThinned (cells : List Cell) : Prop :=
  ∃ glyph ∈ flat cells, glyph.leftOut = true

namespace IsThinned

variable {cell : Cell} {cells : List Cell}

theorem cons (thinned : IsThinned cells) : IsThinned (cell :: cells) := by
  obtain ⟨glyph, member, left⟩ := thinned
  exact ⟨glyph, List.mem_append_right _ member, left⟩

theorem of_cell {glyph : Glyph} (inCell : glyph ∈ cell.glyphs)
    (left : glyph.leftOut = true) : IsThinned (cell :: cells) :=
  ⟨glyph, List.mem_append_left _ inCell, left⟩

end IsThinned

theorem kept_of_not_isThinned {cells : List Cell} (stays : ¬ IsThinned cells) :
    Glyph.kept (flat cells) = flat cells := by
  apply Glyph.kept_eq_self
  intro glyph member
  rw [← Bool.not_eq_true]
  exact fun left => stays ⟨glyph, member, left⟩

/-- What stands in front of a left-out space is read in its place: shifts begin
no heredoc and tags own all of their line break.  If a space is left out at all,
the text has no `İ` or no template text. -/
structure ReadInPlace (cells : List Cell) : Prop where
  shifts : ∀ front back, cells = front ++ back → IsThinned back →
    (front.map Cell.piece).IsChain fun shift next =>
      shift.2 = ['<', '<'] → next.2.head? ≠ some '<'
  tags : ∀ front back, cells = front ++ back → IsThinned back →
    ∀ tag ∈ front.map Cell.piece, tag.1 = some .openTag →
      tag.2.getLast? ≠ some '\r'
  templates : IsThinned cells → 'İ' ∉ Glyph.chars (flat cells) ∨
    ∀ piece ∈ cells.map Cell.piece, piece.1 ≠ some .closeTag

theorem ReadInPlace.of_cells {cells : List Cell}
    (shifts : (cells.map Cell.piece).IsChain fun shift next =>
      shift.2 = ['<', '<'] → next.2.head? ≠ some '<')
    (tags : ∀ tag ∈ cells.map Cell.piece, tag.1 = some .openTag →
      tag.2.getLast? ≠ some '\r')
    (templates : 'İ' ∉ Glyph.chars (flat cells) ∨
      ∀ piece ∈ cells.map Cell.piece, piece.1 ≠ some .closeTag) :
    ReadInPlace cells where
  shifts := by
    rintro front back rfl _
    rw [List.map_append] at shifts
    exact shifts.left_of_append
  tags := by
    rintro front back rfl _ tag member
    apply tags
    rw [List.map_append]
    exact List.mem_append_left _ member
  templates := fun _ => templates

/-- The cells of a text that is read as code, with spaces that can be left out.
-/
structure Spaced (cells : List Cell) : Prop where
  reads : sourcePieces .code (Glyph.chars (flat cells)) =
    cells.map Cell.piece
  kinds : ∀ cell ∈ cells, ∀ glyph ∈ cell.glyphs, glyph.readAs = cell.kind?
  loose : LooseSpaces cells
  beside : SpacesBeside ((flat cells).map Glyph.toLetter)
  inPlace : ReadInPlace cells

end TokenMacros
