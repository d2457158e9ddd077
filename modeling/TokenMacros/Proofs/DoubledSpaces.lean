import Mathlib.Data.List.Chain
import TokenMacros.Proofs.DroppedSpaces
import TokenMacros.Proofs.LexerTurns
import TokenMacros.Proofs.TriviaPieces

/-!
# Doubled spaces

Instantiation is followed with a note on every token whether it was captured or
copied from the template.  A single space of the template can stand beside a
captured one only where a capture that is empty keeps them from meeting: it ends
the search for a space to leave out without adding a token.
-/

namespace TokenMacros

open Text (isBlank)

/-- A token of an instance, and whether it was captured.  The others are copied
from the template. -/
structure Traced where
  token : Token
  captured : Bool
  deriving Repr, DecidableEq

/-- Both tokens are single spaces, one of them captured and the other not. -/
def Traced.Doubles (one two : Traced) : Prop :=
  one.token.isPlainSpace = true ∧ two.token.isPlainSpace = true ∧
    one.captured ≠ two.captured

instance (one two : Traced) : Decidable (one.Doubles two) :=
  inferInstanceAs (Decidable (_ ∧ _ ∧ _))

/-- No captured space stands beside a space of the template. -/
def Undoubled (traced : List Traced) : Prop :=
  traced.IsChain fun one two => ¬ one.Doubles two

instance (traced : List Traced) : Decidable (Undoubled traced) :=
  inferInstanceAs (Decidable (traced.IsChain _))

theorem Traced.Doubles.symm {one two : Traced} (doubles : one.Doubles two) :
    two.Doubles one :=
  ⟨doubles.2.1, doubles.1, doubles.2.2.symm⟩

theorem Undoubled.reverse {traced : List Traced} (undoubled : Undoubled traced) :
    Undoubled traced.reverse := by
  refine List.isChain_reverse.mpr (undoubled.imp ?_)
  exact fun _ _ apart doubles => apart doubles.symm

theorem Undoubled.cons_visible {traced : List Traced}
    (undoubled : Undoubled traced) {first : Traced}
    (visible : first.token.isPlainSpace = false) :
    Undoubled (first :: traced) := by
  refine List.isChain_cons.mpr ⟨?_, undoubled⟩
  rintro _ _ ⟨isSpace, _⟩
  rw [visible] at isSpace
  cases isSpace

theorem undoubled_captured (captured : List Token) :
    Undoubled (captured.map (⟨·, true⟩)) := by
  apply (List.isChain_map _).mpr
  apply List.Pairwise.isChain
  apply List.pairwise_of_forall_mem_list
  exact fun _ _ _ _ doubles => doubles.2.2 rfl

/-- The tokens `emitted`, which are in reverse, as they are kept in front of
captured ones: without the last one if it is a single space and trivia follows.
-/
def keptBefore (captured : List Token) (emitted : List Traced) : List Traced :=
  if captured.head?.any Token.isTrivia &&
      emitted.head?.any (·.token.isPlainSpace) then emitted.tail
  else emitted

/-- The instance of the remaining elements behind the tokens `emitted`, which
are in reverse. -/
def traceAfter (captures : Captures) (emitted : List Traced)
    (skipSpace : Bool) : List ReplacementElement → List Traced
  | [] => emitted.reverse
  | .token token :: elements =>
    if skipSpace && token.isPlainSpace then traceAfter captures emitted false elements
    else traceAfter captures (⟨token, false⟩ :: emitted) false elements
  | .reference name :: elements =>
    match captures.find? name with
    | none =>
      traceAfter captures (⟨.bare (referenceText name), false⟩ :: emitted)
        false elements
    | some captured =>
      traceAfter captures
        ((captured.map (⟨·, true⟩)).reverse ++ keptBefore captured emitted)
        (captured.getLast?.any Token.isTrivia) elements

/-- An instance whose tokens tell where they come from. -/
def trace (template : List ReplacementElement) (captures : Captures) :
    List Traced :=
  traceAfter captures [] false template

theorem map_token_keptBefore (captured : List Token) (emitted : List Traced) :
    (keptBefore captured emitted).map Traced.token =
      if captured.head?.any Token.isTrivia &&
          (emitted.map Traced.token).head?.any Token.isPlainSpace then
        (emitted.map Traced.token).tail
      else emitted.map Traced.token := by
  rw [List.head?_map, Option.any_map, keptBefore]
  split
  · exact List.map_tail
  · rfl

theorem map_token_traceAfter (captures : Captures) (emitted : List Traced)
    (skipSpace : Bool) (template : List ReplacementElement) :
    (traceAfter captures emitted skipSpace template).map Traced.token =
      instantiateAfter captures (emitted.map Traced.token) skipSpace
        template := by
  fun_induction traceAfter captures emitted skipSpace template with
  | case1 emitted => rw [List.map_reverse, instantiateAfter]
  | case2 emitted skipSpace token elements skipped induction =>
      have elementSpace : (ReplacementElement.token token).isPlainSpace =
          token.isPlainSpace := rfl
      rw [induction, instantiateAfter, elementSpace, if_pos skipped]
  | case3 emitted skipSpace token elements stays induction =>
      have elementSpace : (ReplacementElement.token token).isPlainSpace =
          token.isPlainSpace := rfl
      rw [induction, instantiateAfter, elementSpace, if_neg stays, List.map_cons]
  | case4 emitted skipSpace name elements unresolved induction =>
      rw [induction, instantiateAfter]
      simp [ReplacementElement.isPlainSpace, unresolved]
  | case5 emitted skipSpace name elements captured resolved induction =>
      have tokens : (captured.map (⟨·, true⟩)).map Traced.token = captured := by
        rw [List.map_map]
        exact List.map_id captured
      rw [induction, instantiateAfter, List.map_append, List.map_reverse, tokens,
        map_token_keptBefore]
      simp [ReplacementElement.isPlainSpace, resolved]

theorem map_token_trace (template : List ReplacementElement)
    (captures : Captures) :
    (trace template captures).map Traced.token =
      instantiate template captures :=
  map_token_traceAfter captures [] false template

/-! ## Single spaces of the template -/

/-- No single space directly follows another one. -/
def SpacesAlone (template : List ReplacementElement) : Prop :=
  template.IsChain fun one two =>
    ¬ (one.isPlainSpace = true ∧ two.isPlainSpace = true)

namespace Lexeme

/-- A piece of code that is a single space is a blank, and no other blank
follows it. -/
theorem blank_of_plainSpace {c : Char} {rest : List Char} {line : Nat}
    (space : (Token.ofPiece (next c rest).kind?
      ((c :: rest).take (next c rest).extent) line).isPlainSpace = true) :
    c = ' ' ∧ ((c :: rest).drop (next c rest).extent).head? ≠ some ' ' := by
  obtain ⟨_, isSpace⟩ := Bool.and_eq_true_iff.mp space
  rw [beq_iff_eq, Token.text_ofPiece] at isSpace
  replace isSpace := congrArg String.toList isSpace
  rw [String.toList_ofList] at isSpace
  obtain ⟨further, extent⟩ :=
    Nat.exists_eq_add_of_le' (next_extent_pos c rest)
  obtain rfl : c = ' ' := by
    rw [extent, List.take_succ_cons] at isSpace
    exact (List.cons.inj isSpace).1
  refine ⟨rfl, ?_⟩
  have parts := @List.takeWhile_append_dropWhile _ isBlank (' ' :: rest)
  have behind : (' ' :: rest).drop (next ' ' rest).extent =
      (' ' :: rest).dropWhile isBlank := by
    rw [next_blank (by decide), Extent.blanks]
    conv_lhs => arg 2; rw [← parts]
    exact List.drop_left
  rw [behind]
  intro isHead
  have notBlank := List.head?_dropWhile_not isBlank (' ' :: rest)
  rw [isHead] at notBlank
  exact absurd notBlank (by decide)

end Lexeme

theorem isChain_cons_of_not_space {first : Token} {tokens : List Token}
    (other : first.isPlainSpace = false)
    (alone : tokens.IsChain fun one two =>
      ¬ (one.isPlainSpace = true ∧ two.isPlainSpace = true))
    (text : List Char) :
    (∀ token ∈ (first :: tokens).head?, token.isPlainSpace = true →
      text.head? = some ' ') ∧
    (first :: tokens).IsChain fun one two =>
      ¬ (one.isPlainSpace = true ∧ two.isPlainSpace = true) := by
  constructor
  · intro token isFirst isSpace
    obtain rfl := Option.some.inj isFirst
    exact absurd (other.symm.trans isSpace) Bool.false_ne_true
  · refine List.isChain_cons.mpr ⟨?_, alone⟩
    rintro next _ ⟨isSpace, _⟩
    exact Bool.false_ne_true (other.symm.trans isSpace)

/-- A single space is read at a space, and none is read behind it. -/
theorem Turns.spacesAlone {lowered : List Char} {mode : Mode} {cursor : Cursor}
    {tokens : List Token} (turns : Turns lowered mode cursor tokens) :
    (∀ first ∈ tokens.head?, first.isPlainSpace = true →
      cursor.rest.head? = some ' ') ∧
    tokens.IsChain fun one two =>
      ¬ (one.isPlainSpace = true ∧ two.isPlainSpace = true) := by
  induction turns with
  | done => exact ⟨by simp, List.isChain_nil⟩
  | @code cursor c rest _ remaining _ induction =>
      obtain ⟨begins, alone⟩ := induction
      rw [Cursor.rest_advance] at begins
      rw [remaining] at begins ⊢
      have space := @Lexeme.blank_of_plainSpace c rest cursor.line
      constructor
      · intro first isFirst isSpace
        obtain rfl := Option.some.inj isFirst
        rw [(space isSpace).1]
        rfl
      · refine List.isChain_cons.mpr ⟨?_, alone⟩
        rintro next isNext ⟨here, behind⟩
        exact (space here).2 (begins next isNext behind)
  | @html cursor => exact isChain_cons_of_not_space rfl List.isChain_nil _
  | @tag cursor offset _ _ _ _ induction =>
      have tagged (text : List Char) :=
        @isChain_cons_of_not_space (cursor.advance offset).openTag _ rfl
          induction.2 text
      rw [Cursor.htmlBefore]
      split
      · exact tagged _
      · exact isChain_cons_of_not_space rfl (tagged []).2 _

theorem lexCode_spacesAlone (code : String) :
    (lexCode code).IsChain fun one two =>
      ¬ (one.isPlainSpace = true ∧ two.isPlainSpace = true) :=
  (turns_of_lexFrom (lexFrom_start .code code)).spacesAlone.2

theorem Replacement.spacesAlone_codeElements (stretch : List Char) :
    SpacesAlone (codeElements stretch) :=
  List.isChain_map _ |>.mpr (lexCode_spacesAlone _)

/-- In a replacement text a single space is not directly followed by another
one, because references stand between the stretches of code. -/
theorem Replacement.spacesAlone_parse (text : String) :
    SpacesAlone (parse text) := by
  let elements (marked : List Char × List Char) : List ReplacementElement :=
    .reference (String.ofList marked.1) :: codeElements marked.2
  have marked (stretches : List (List Char × List Char)) :
      (∀ first ∈ (stretches.flatMap elements).head?,
        first.isPlainSpace = false) ∧
      SpacesAlone (stretches.flatMap elements) := by
    induction stretches with
    | nil => exact ⟨by simp, List.isChain_nil⟩
    | cons first stretches induction =>
        rw [List.flatMap_cons]
        constructor
        · intro element isFirst
          obtain rfl := Option.some.inj isFirst
          rfl
        · refine List.isChain_append.mpr ⟨?_, induction.2, ?_⟩
          · refine List.isChain_cons.mpr ⟨?_, spacesAlone_codeElements _⟩
            rintro _ _ ⟨isSpace, _⟩
            cases isSpace
          · rintro _ _ next isNext ⟨_, isSpace⟩
            rw [induction.1 next isNext] at isSpace
            cases isSpace
  obtain ⟨begins, alone⟩ := marked (Stretches.cut Mark.reference? text.toList).marked
  refine List.isChain_append.mpr ⟨spacesAlone_codeElements _, alone, ?_⟩
  rintro _ _ next isNext ⟨_, isSpace⟩
  rw [begins next isNext] at isSpace
  cases isSpace

/-! ## What keeps spaces apart -/

def ReplacementElement.isEmptyCapture (captures : Captures) :
    ReplacementElement → Bool
  | .token _ => false
  | .reference name => (captures.find? name).any List.isEmpty

/-- The element adds no token, or nothing but a single space. -/
def ReplacementElement.isGap (captures : Captures)
    (element : ReplacementElement) : Bool :=
  element.isPlainSpace || element.isEmptyCapture captures

/-- Two single spaces of the template, at least one empty capture between them,
and behind them nothing but gaps. -/
inductive SpacesApart (captures : Captures) : List ReplacementElement → Prop where
  | intro {first space : Token} {empty : String}
      {gap gap' : List ReplacementElement}
      (isFirst : first.isPlainSpace = true)
      (gaps : ∀ element ∈ gap, element.isGap captures = true)
      (nothing : captures.find? empty = some [])
      (isSpace : space.isPlainSpace = true)
      (gaps' : ∀ element ∈ gap', element.isGap captures = true) :
      SpacesApart captures
        (.token first :: (gap ++ .reference empty :: .token space :: gap'))

/-- In a run of elements an empty capture keeps a captured space and a single
space of the template from meeting. -/
inductive KeepsApart (captures : Captures) : List ReplacementElement → Prop where
  /-- The captured space is in front and forgotten at the empty capture. -/
  | behind {name empty : String} {captured : List Token}
      {gap : List ReplacementElement} {space : Token}
      (resolved : captures.find? name = some captured)
      (ends : captured.getLast?.any Token.isPlainSpace = true)
      (gaps : ∀ element ∈ gap, element.isGap captures = true)
      (nothing : captures.find? empty = some [])
      (isSpace : space.isPlainSpace = true) :
      KeepsApart captures
        (.reference name :: (gap ++ [.reference empty, .token space]))
  /-- The captured space is behind two spaces, of which one is left out. -/
  | inFront {name : String} {captured : List Token}
      {spaces : List ReplacementElement}
      (apart : SpacesApart captures spaces)
      (resolved : captures.find? name = some captured)
      (begins : captured.head?.any Token.isPlainSpace = true) :
      KeepsApart captures (spaces ++ [.reference name])

/-- Where no empty capture stands directly in front of a single space, nothing
is kept apart. -/
theorem KeepsApart.not_isChain {captures : Captures}
    {run : List ReplacementElement} (apart : KeepsApart captures run) :
    ¬ run.IsChain fun one two =>
      ¬ (one.isEmptyCapture captures = true ∧ two.isPlainSpace = true) := by
  intro chain
  obtain ⟨front, empty, space, back, split, nothing, isSpace⟩ :
      ∃ front empty space back,
        run = front ++ .reference empty :: .token space :: back ∧
          captures.find? empty = some [] ∧ space.isPlainSpace = true := by
    cases apart with
    | @behind name empty _ gap space _ _ _ nothing isSpace =>
        exact ⟨.reference name :: gap, empty, space, [], rfl, nothing, isSpace⟩
    | @inFront name _ _ apart =>
        obtain @⟨first, space, empty, gap, gap', _, _, nothing, isSpace, _⟩ := apart
        exact ⟨.token first :: gap, empty, space, gap' ++ [.reference name],
          by simp, nothing, isSpace⟩
  rw [split] at chain
  obtain ⟨_, behind, _⟩ := List.isChain_append.mp chain
  apply behind.rel
  rw [ReplacementElement.isEmptyCapture, nothing]
  exact ⟨rfl, isSpace⟩

section Trace

variable {captures : Captures} {done rest : List ReplacementElement}
  {emitted : List Traced} {skipSpace : Bool}

/-- A gap that ends in front of a single space ends with an empty capture. -/
theorem exists_empty_of_gap {gap : List ReplacementElement} {space : Token}
    (gaps : ∀ element ∈ gap, element.isGap captures = true)
    (nonempty : gap ≠ [])
    (alone : SpacesAlone (gap ++ .token space :: rest))
    (isSpace : space.isPlainSpace = true) :
    ∃ gap' empty, gap = gap' ++ [.reference empty] ∧
      captures.find? empty = some [] := by
  obtain ⟨gap', last, rfl⟩ := (List.eq_nil_or_concat' gap).resolve_left nonempty
  have isGap := gaps last (List.mem_append_right _ (List.mem_singleton_self last))
  rw [ReplacementElement.isGap, Bool.or_eq_true] at isGap
  cases last with
  | token copied =>
      rw [List.append_assoc] at alone
      obtain ⟨_, behind, _⟩ := List.isChain_append.mp alone
      have isSpace' := isGap.resolve_right Bool.false_ne_true
      exact absurd ⟨isSpace', isSpace⟩ behind.rel
  | reference name =>
      have isEmpty := isGap.resolve_left Bool.false_ne_true
      obtain ⟨captured, resolved, nothing⟩ := (Option.any_eq_true _ _).mp isEmpty
      obtain rfl := List.isEmpty_iff.mp nothing
      exact ⟨gap', name, rfl, resolved⟩

/-- What is known of the last token emitted, if it is a single space, when the
elements `done` have been instantiated. -/
inductive Standing (captures : Captures) (done : List ReplacementElement) :
    (skipSpace : Bool) → (emitted : List Traced) → Prop where
  | visible {skipSpace : Bool} {emitted : List Traced}
      (visible : ∀ last ∈ emitted.head?, last.token.isPlainSpace = false) :
      Standing captures done skipSpace emitted
  /-- It was captured, and nothing was added since.  A space is left out
  directly behind it. -/
  | captured {skipSpace : Bool} {last : Traced} {emitted : List Traced}
      {name : String} {captured : List Token}
      {front gap : List ReplacementElement}
      (split : done = front ++ .reference name :: gap)
      (resolved : captures.find? name = some captured)
      (ends : captured.getLast?.any Token.isPlainSpace = true)
      (gaps : ∀ element ∈ gap, element.isGap captures = true)
      (skips : skipSpace = true ↔ gap = [])
      (isCaptured : last.captured = true) :
      Standing captures done skipSpace (last :: emitted)
  /-- It was copied, and nothing was added since.  If another copied space is in
  front of it, an empty capture is between them. -/
  | copied {last : Traced} {emitted : List Traced} {first : Token}
      {front gap : List ReplacementElement}
      (split : done = front ++ .token first :: gap)
      (isFirst : first.isPlainSpace = true)
      (gaps : ∀ element ∈ gap, element.isGap captures = true)
      (isCopied : last.captured = false)
      (apart : ∀ second ∈ emitted.head?, second.token.isPlainSpace = true →
        second.captured = false →
        ∃ spaces, spaces <:+ done ∧ SpacesApart captures spaces) :
      Standing captures done false (last :: emitted)

theorem Standing.widen (standing : Standing captures done skipSpace emitted)
    {element : ReplacementElement} (isGap : element.isGap captures = true) :
    Standing captures (done ++ [element]) false emitted := by
  have widened {gap : List ReplacementElement}
      (gaps : ∀ element ∈ gap, element.isGap captures = true) :
      ∀ one ∈ gap ++ [element], one.isGap captures = true := by
    rw [List.forall_mem_append, List.forall_mem_singleton]
    exact ⟨gaps, isGap⟩
  cases standing with
  | visible visible => exact .visible visible
  | captured split resolved ends gaps skips isCaptured =>
      have longer := congrArg (· ++ [element]) split
      rw [List.append_assoc, List.cons_append] at longer
      exact .captured longer resolved ends (widened gaps) (by simp) isCaptured
  | copied split isFirst gaps isCopied apart =>
      have longer := congrArg (· ++ [element]) split
      rw [List.append_assoc, List.cons_append] at longer
      refine .copied longer isFirst (widened gaps) isCopied ?_
      intro second isSecond isSpace copied
      obtain ⟨_, ⟨front, rfl⟩, spaces⟩ := apart second isSecond isSpace copied
      obtain @⟨first, space, empty, gap, gap', isFirst, gaps, nothing, isSpace,
        gaps'⟩ := spaces
      exact ⟨_, ⟨front, by simp⟩,
        .intro isFirst gaps nothing isSpace (widened gaps')⟩

/-- A single space that is not left out does not stand beside a captured one. -/
theorem Standing.copy {space : Token} (isSpace : space.isPlainSpace = true)
    (alone : SpacesAlone (done ++ .token space :: rest))
    (free : ∀ run, run <:+: done ++ .token space :: rest →
      ¬ KeepsApart captures run)
    (standing : Standing captures done false emitted) :
    (∀ last ∈ emitted.head?, ¬ Traced.Doubles ⟨space, false⟩ last) ∧
      Standing captures (done ++ [.token space]) false
        (⟨space, false⟩ :: emitted) := by
  have newest (apart : ∀ second ∈ emitted.head?,
      second.token.isPlainSpace = true → second.captured = false →
        ∃ spaces, spaces <:+ done ++ [.token space] ∧
          SpacesApart captures spaces) :
      Standing captures (done ++ [.token space]) false
        (⟨space, false⟩ :: emitted) :=
    .copied rfl isSpace (List.forall_mem_nil _) rfl apart
  cases standing with
  | visible visible =>
      refine ⟨?_, newest ?_⟩
      · rintro last isLast ⟨_, isSpace', _⟩
        rw [visible last isLast] at isSpace'
        cases isSpace'
      · intro last isLast isSpace'
        rw [visible last isLast] at isSpace'
        cases isSpace'
  | @captured _ last emitted name _ front gap split resolved ends gaps skips =>
      have nonempty : gap ≠ [] := fun none => by cases skips.mpr none
      rw [split, List.append_assoc, List.cons_append] at alone free
      have behind := (List.isChain_append.mp alone).2.1.tail
      obtain ⟨gap', empty, rfl, nothing⟩ :=
        exists_empty_of_gap gaps nonempty behind isSpace
      have gaps' := (List.forall_mem_append.mp gaps).1
      refine absurd (.behind resolved ends gaps' nothing isSpace) (free _ ?_)
      exact ⟨front, rest, by simp⟩
  | @copied last emitted first front gap split isFirst gaps isCopied _ =>
      refine ⟨?_, newest ?_⟩
      · intro last' isLast doubles
        obtain rfl := Option.some.inj isLast
        exact doubles.2.2 isCopied.symm
      · intro _ _ _ _
        rw [split, List.append_assoc, List.cons_append] at alone
        have behind := (List.isChain_append.mp alone).2.1
        have nonempty : gap ≠ [] := by
          rintro rfl
          exact behind.rel ⟨isFirst, isSpace⟩
        obtain ⟨gap', empty, rfl, nothing⟩ :=
          exists_empty_of_gap gaps nonempty behind.tail isSpace
        have gaps' := (List.forall_mem_append.mp gaps).1
        refine ⟨_, ⟨front, ?_⟩,
          .intro isFirst gaps' nothing isSpace (List.forall_mem_nil _)⟩
        rw [split]
        simp

/-- In front of a captured space no space of the template is kept. -/
theorem Standing.not_doubles {name : String} {captured : List Token}
    (resolved : captures.find? name = some captured)
    (undoubled : Undoubled emitted)
    (free : ∀ run, run <:+: done ++ .reference name :: rest →
      ¬ KeepsApart captures run)
    (standing : Standing captures done skipSpace emitted) :
    ∀ first ∈ captured.head?, ∀ last ∈ (keptBefore captured emitted).head?,
      ¬ Traced.Doubles ⟨first, true⟩ last := by
  rintro first isFirst last isLast ⟨isSpace, isSpace', different⟩
  have isCopied : last.captured = false := by
    cases told : last.captured with
    | false => rfl
    | true => exact absurd told.symm different
  have brings : captured.head?.any Token.isTrivia = true := by
    rw [Option.mem_def.mp isFirst]
    exact Placed.isTrivia_of_isPlainSpace isSpace
  rw [keptBefore, brings, Bool.true_and] at isLast
  split at isLast
  · next popped =>
      cases emitted with
      | nil => cases isLast
      | cons top emitted =>
          rw [List.tail_cons] at isLast
          cases standing with
          | visible visible =>
              rw [List.head?_cons, Option.any_some, visible top rfl] at popped
              cases popped
          | captured split resolved' ends gaps skips isCaptured =>
              refine (List.isChain_cons.mp undoubled).1 last isLast
                ⟨popped, isSpace', ?_⟩
              rw [isCaptured, isCopied]
              decide
          | copied split isFirst' gaps isCopied' apart =>
              obtain ⟨spaces, ⟨front, rfl⟩, between⟩ :=
                apart last isLast isSpace' isCopied
              have begins : captured.head?.any Token.isPlainSpace = true := by
                rw [Option.mem_def.mp isFirst]
                exact isSpace
              refine free _ ?_ (.inFront between resolved begins)
              exact ⟨front, rest, by simp⟩
  · next stays =>
      apply stays
      rw [Option.mem_def.mp isLast]
      exact isSpace'

/-- Captured tokens are put in without a doubled space. -/
theorem Standing.capture {name : String} {captured : List Token}
    (resolved : captures.find? name = some captured)
    (undoubled : Undoubled emitted)
    (free : ∀ run, run <:+: done ++ .reference name :: rest →
      ¬ KeepsApart captures run)
    (standing : Standing captures done skipSpace emitted) :
    let after := (captured.map (⟨·, true⟩)).reverse ++ keptBefore captured emitted
    Undoubled after ∧
      Standing captures (done ++ [.reference name])
        (captured.getLast?.any Token.isTrivia) after := by
  intro after
  constructor
  · have among : Undoubled (captured.map (⟨·, true⟩)).reverse :=
      (undoubled_captured captured).reverse
    have kept : Undoubled (keptBefore captured emitted) := by
      rw [keptBefore]
      split
      · exact undoubled.tail
      · exact undoubled
    refine List.isChain_append.mpr ⟨among, kept, ?_⟩
    rw [List.getLast?_reverse, List.head?_map]
    intro one isOne last isLast
    obtain ⟨first, isFirst, rfl⟩ := Option.map_eq_some_iff.mp isOne
    exact standing.not_doubles resolved undoubled free first isFirst last isLast
  · cases isLast : captured.getLast? with
    | none =>
        obtain rfl := List.getLast?_eq_none_iff.mp isLast
        have isGap : (ReplacementElement.reference name).isGap captures = true := by
          rw [ReplacementElement.isGap, ReplacementElement.isEmptyCapture,
            resolved]
          rfl
        exact standing.widen isGap
    | some last =>
        obtain ⟨front, rfl⟩ := List.getLast?_eq_some_iff.mp isLast
        have shape : after = ⟨last, true⟩ :: ((front.map (⟨·, true⟩)).reverse ++
            keptBefore (front ++ [last]) emitted) := by
          simp [after]
        rw [shape]
        cases isSpace : last.isPlainSpace with
        | false =>
            apply Standing.visible
            intro top isTop
            obtain rfl := Option.some.inj isTop
            exact isSpace
        | true =>
            have trivia := Placed.isTrivia_of_isPlainSpace isSpace
            refine .captured rfl resolved ?_ (List.forall_mem_nil _) ?_ rfl
            · rw [isLast]
              exact isSpace
            · simp [trivia]

theorem undoubled_traceAfter {template : List ReplacementElement}
    (alone : SpacesAlone template)
    (free : ∀ run, run <:+: template → ¬ KeepsApart captures run)
    (split : template = done ++ rest)
    (standing : Standing captures done skipSpace emitted)
    (undoubled : Undoubled emitted) :
    Undoubled (traceAfter captures emitted skipSpace rest) := by
  fun_induction traceAfter captures emitted skipSpace rest
    generalizing done with
  | case1 emitted => exact undoubled.reverse
  | case2 emitted skipSpace token rest skipped induction =>
      have isSpace := (Bool.and_eq_true_iff.mp skipped).2
      have isGap : (ReplacementElement.token token).isGap captures = true :=
        Bool.or_eq_true_iff.mpr (.inl isSpace)
      refine induction ?_ (standing.widen isGap) undoubled
      rw [split, List.append_assoc, List.singleton_append]
  | case3 emitted skipSpace token rest stays induction =>
      have further : template = done ++ [.token token] ++ rest := by
        rw [split, List.append_assoc, List.singleton_append]
      cases isSpace : token.isPlainSpace with
      | false =>
          apply induction further
          · apply Standing.visible
            intro top isTop
            obtain rfl := Option.some.inj isTop
            exact isSpace
          · exact undoubled.cons_visible isSpace
      | true =>
          obtain rfl : skipSpace = false := by simpa [isSpace] using stays
          rw [split] at alone free
          obtain ⟨apart, standing'⟩ := standing.copy isSpace alone free
          exact induction further standing'
            (List.isChain_cons.mpr ⟨apart, undoubled⟩)
  | case4 emitted skipSpace name rest unresolved induction =>
      have further : template = done ++ [.reference name] ++ rest := by
        rw [split, List.append_assoc, List.singleton_append]
      apply induction further
      · apply Standing.visible
        intro top isTop
        obtain rfl := Option.some.inj isTop
        rfl
      · exact undoubled.cons_visible rfl
  | case5 emitted skipSpace name rest captured resolved induction =>
      rw [split] at free
      obtain ⟨undoubled', standing'⟩ :=
        standing.capture resolved undoubled free
      refine induction ?_ standing' undoubled'
      rw [split, List.append_assoc, List.singleton_append]

end Trace

/-- In the instance of a replacement text, whatever the captures, no single space
of the text stands beside a captured one, unless an empty capture kept them
from meeting. -/
theorem instantiate_undoubled (text : String) (captures : Captures)
    (free : ∀ run, run <:+: Replacement.parse text →
      ¬ KeepsApart captures run) :
    let traced := trace (Replacement.parse text) captures
    traced.map Traced.token = instantiate (Replacement.parse text) captures ∧
      Undoubled traced := by
  intro traced
  refine ⟨map_token_trace _ _, ?_⟩
  exact undoubled_traceAfter (Replacement.spacesAlone_parse text) free
    (List.nil_append _).symm (.visible (by simp)) List.isChain_nil

/-- Captures that begin or end with spaces, and an empty one between brackets. -/
theorem instantiate_undoubled_spaced :
    let template := Replacement.parse "if ($(e)) { $(body) } $(next)"
    let captures : Captures :=
      [("e", []), ("body", lexCode " echo $x; "), ("next", lexCode " y ")]
    let traced := trace template captures
    (∀ run, run <:+: template → ¬ KeepsApart captures run) ∧
      traced.map Traced.token = instantiate template captures ∧
      Undoubled traced := by
  intro template captures traced
  have chain : template.IsChain fun one two =>
      ¬ (one.isEmptyCapture captures = true ∧ two.isPlainSpace = true) := by
    decide +kernel
  have free : ∀ run, run <:+: template → ¬ KeepsApart captures run :=
    fun _ inside apart => apart.not_isChain <| chain.infix inside
  exact ⟨free, instantiate_undoubled _ captures free⟩

/-- A captured space and a space of the template stand side by side where an
empty capture was between them. -/
theorem instantiate_doubled :
    let captures : Captures := [("a", lexCode "x "), ("e", lexCode "")]
    let template := Replacement.parse "$(a)$(e) y"
    let traced := trace template captures
    traced.map Traced.token = instantiate template captures ∧
      traced =
        (lexCode "x ").map (⟨·, true⟩) ++ (lexCode " y").map (⟨·, false⟩) ∧
      (lexCode "x ").getLast?.any Token.isPlainSpace = true ∧
      (lexCode " y").head?.any Token.isPlainSpace = true ∧
      ¬ Undoubled traced := by
  decide +kernel

end TokenMacros
