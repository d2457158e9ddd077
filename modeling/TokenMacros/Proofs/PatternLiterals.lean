import TokenMacros.Proofs.CaptureMarks
import TokenMacros.Proofs.LexemeLocality
import TokenMacros.Proofs.LiteralRuns
import TokenMacros.Proofs.RuleTokens

/-!
# Literals of patterns with captures

A pattern with captures is read chunk by chunk.  Where no token of a stretch
spans several chunks, this gives the tokens that the stretch has as code, trivia
left out; a literal with a blank or a bracket in it is torn apart, and so is one
with something in it that looks like a marker.
-/

namespace TokenMacros

open Text (isBlank)

/-- The text lies in one chunk or between chunks: it is white space, a single
character, or free of white space and brackets. -/
def IsWhole (text : List Char) : Prop :=
  (∀ c ∈ text, isBlank c = true) ∨ text.length = 1 ∨ ∀ c ∈ text, IsPlain c

instance (text : List Char) : Decidable (IsWhole text) :=
  inferInstanceAs (Decidable (_ ∨ _ ∨ _))

/-- The pieces of a text are whole and spell it. -/
structure WholePieces (text : List Char) : Prop where
  whole : ∀ piece ∈ codePieces text, IsWhole piece.2
  spelled : (codePieces text).flatMap Prod.snd = text

theorem wholePieces_nil : WholePieces [] := by
  constructor
  · intro piece member
    rw [codePieces_nil] at member
    cases member
  · rw [codePieces_nil]
    rfl

namespace WholePieces

variable {c : Char} {rest : List Char}

theorem first (pieces : WholePieces (c :: rest)) :
    IsWhole ((c :: rest).take (Lexeme.next c rest).extent) := by
  have whole := pieces.whole
  rw [codePieces_cons] at whole
  exact whole _ List.mem_cons_self

theorem drop_eq_nil (pieces : WholePieces (c :: rest))
    (closes : (Lexeme.next c rest).kind? = some .closeTag) :
    (c :: rest).drop (Lexeme.next c rest).extent = [] := by
  have spelled := pieces.spelled
  rw [codePieces_cons, if_pos closes, List.flatMap_cons, List.flatMap_nil,
    List.append_nil, List.take_eq_self_iff] at spelled
  exact List.drop_eq_nil_iff.mpr spelled

/-- With whole pieces, what follows the first piece is always read on. -/
theorem codePieces_eq (pieces : WholePieces (c :: rest)) :
    codePieces (c :: rest) =
      ((Lexeme.next c rest).kind?,
          (c :: rest).take (Lexeme.next c rest).extent) ::
        codePieces ((c :: rest).drop (Lexeme.next c rest).extent) := by
  rw [codePieces_cons]
  split
  · next closes => rw [pieces.drop_eq_nil closes, codePieces_nil]
  · rfl

theorem drop (pieces : WholePieces (c :: rest)) :
    WholePieces ((c :: rest).drop (Lexeme.next c rest).extent) := by
  have whole := pieces.whole
  have spelled := pieces.spelled
  rw [pieces.codePieces_eq] at whole spelled
  refine ⟨fun piece member => whole piece (List.mem_cons_of_mem _ member), ?_⟩
  rw [List.flatMap_cons] at spelled
  exact List.append_cancel_left
    (spelled.trans (List.take_append_drop _ (c :: rest)).symm)

end WholePieces

/-! ## Runs -/

/-- A whole piece that begins in a run ends in it. -/
theorem extent_le_of_isWhole {c b : Char} {front later : List Char}
    {extent : Nat} (plain : IsPlain c) (breaks : ¬ IsPlain b)
    (whole : IsWhole ((c :: (front ++ b :: later)).take extent))
    (positive : 0 < extent) : extent ≤ (c :: front).length := by
  by_contra! long
  obtain ⟨further, rfl⟩ := Nat.exists_eq_add_one_of_ne_zero positive.ne'
  rw [List.length_cons, Nat.add_lt_add_iff_right] at long
  obtain ⟨more, rfl⟩ := Nat.exists_eq_add_of_lt long
  have shape : (c :: (front ++ b :: later)).take (front.length + more + 1 + 1) =
      c :: (front ++ b :: later.take more) := by
    rw [List.take_succ_cons, Nat.add_assoc, List.take_length_add_append,
      List.take_succ_cons]
  rw [shape] at whole
  rcases whole with blank | single | allPlain
  · have blankHere := blank c List.mem_cons_self
    rw [plain.1] at blankHere
    cases blankHere
  · simp at single
  · exact breaks (allPlain b (by simp))

/-- The pieces of a run are read without the text behind it. -/
theorem codePieces_append {run back : List Char}
    (plain : ∀ c ∈ run, IsPlain c) (breaks : BreaksOff back)
    (pieces : WholePieces (run ++ back)) :
    codePieces (run ++ back) = codePieces run ++ codePieces back ∧
      (codePieces run).flatMap Prod.snd = run ∧ WholePieces back := by
  cases back with
  | nil =>
      rw [List.append_nil] at pieces ⊢
      rw [codePieces_nil, List.append_nil]
      exact ⟨rfl, pieces.spelled, wholePieces_nil⟩
  | cons b later =>
  -- a piece takes several characters of the run, not one
  induction length : run.length using Nat.strong_induction_on
    generalizing run with
  | _ bound induction =>
  cases run with
  | nil =>
      rw [codePieces_nil]
      exact ⟨rfl, rfl, pieces⟩
  | cons c front =>
      rw [List.cons_append] at pieces ⊢
      have fits := extent_le_of_isWhole (plain c List.mem_cons_self)
        (breaks b rfl) pieces.first (Lexeme.next_extent_pos _ _)
      have same : Lexeme.next c (front ++ b :: later) = Lexeme.next c front :=
        Lexeme.next_append_of_breaksOff breaks fits
      rw [same] at fits
      have behind :
          (c :: (front ++ b :: later)).drop (Lexeme.next c front).extent =
            (c :: front).drop (Lexeme.next c front).extent ++ b :: later := by
        rw [← List.cons_append, List.drop_append_of_le_length fits]
      have here :
          (c :: (front ++ b :: later)).take (Lexeme.next c front).extent =
            (c :: front).take (Lexeme.next c front).extent := by
        rw [← List.cons_append, List.take_append_of_le_length fits]
      have staysIn : (Lexeme.next c front).kind? ≠ some .closeTag := by
        -- a close tag would be the last piece, but the break follows
        intro closes
        rw [← same] at closes
        have nothing := pieces.drop_eq_nil closes
        rw [same, behind] at nothing
        simp at nothing
      have rest := pieces.drop
      rw [same, behind] at rest
      have shorter : ((c :: front).drop (Lexeme.next c front).extent).length <
          bound := by
        rw [← length]
        exact length_drop_next_lt c front
      obtain ⟨split, spelled, pieces'⟩ := induction _ shorter
        (fun d member => plain d (List.mem_of_mem_drop member)) rest rfl
      rw [pieces.codePieces_eq, same, behind, here, split,
        codePieces_cons c front, if_neg staysIn]
      refine ⟨rfl, ?_, pieces'⟩
      rw [List.flatMap_cons, spelled, List.take_append_drop]

/-! ## Chunks -/

/-- Whatever looks like a marker in the text is a run of its own. -/
def MarkersApart (text : List Char) : Prop :=
  ∀ start < text.length, ∀ extent ∈ markerExtent? (text.drop start),
    (∀ c ∈ (text.take start).getLast?, ¬ IsPlain c) ∧
      (∀ c ∈ (text.drop start).take extent, IsPlain c) ∧
        BreaksOff (text.drop (start + extent))

-- found before the instance that runs through all characters
instance decidableForallOption (p : Char → Prop) [DecidablePred p] (c? : Option Char) :
    Decidable (∀ c ∈ c?, p c) :=
  Option.decidableForallMem c?

instance (text : List Char) : Decidable (BreaksOff text) :=
  inferInstanceAs (Decidable (∀ c ∈ text.head?, _))

instance (text : List Char) : Decidable (MarkersApart text) :=
  inferInstanceAs (Decidable (∀ start < text.length,
    ∀ extent ∈ markerExtent? (text.drop start), _))

theorem MarkersApart.of_suffix {text back : List Char}
    (apart : MarkersApart text) (behind : back <:+ text) : MarkersApart back := by
  obtain ⟨front, rfl⟩ := behind
  intro start inside extent found
  have dropped (count : Nat) :
      (front ++ back).drop (front.length + count) = back.drop count := by
    rw [← List.drop_drop, List.drop_left]
  have there : front.length + start < (front ++ back).length := by
    rw [List.length_append]
    omega
  obtain ⟨before, plain, breaks⟩ := apart _ there extent (by rwa [dropped])
  rw [dropped] at plain
  rw [Nat.add_assoc, dropped] at breaks
  refine ⟨?_, plain, breaks⟩
  intro c isLast
  apply before c
  rw [List.take_length_add_append, List.getLast?_append, isLast]
  rfl

theorem unmarked_of_breaks {b : Char} (breaks : ¬ IsPlain b)
    (rest : List Char) : markerExtent? (b :: rest) = none := by
  have different : '_' ≠ b := by
    rintro rfl
    exact breaks (by decide)
  have notHere : ¬ beginsWith markerStart (b :: rest) = true := by
    simp [beginsWith, markerStart, List.isPrefixOf, different]
  rw [markerExtent?, if_neg notHere]

theorem takeWhile_isPlain {run back : List Char} (plain : ∀ c ∈ run, IsPlain c)
    (breaks : BreaksOff back) :
    (run ++ back).takeWhile (fun c => IsPlain c) = run := by
  rw [List.takeWhile_append_of_pos (by simpa using plain)]
  cases back with
  | nil => simp
  | cons b back =>
      rw [List.takeWhile_cons_of_neg (by simpa using breaks b rfl),
        List.append_nil]

/-- A run that a plain character stands in front of is cut nowhere. -/
theorem chunksAfter_run {d : Char} (plainBefore : IsPlain d)
    {run back : List Char} (plain : ∀ c ∈ run, IsPlain c)
    (breaks : BreaksOff back) (apart : MarkersApart (d :: (run ++ back)))
    (before : List Char) :
    chunksAfter before (run ++ back) =
      runChunk (run.reverse ++ before) ++ chunks back := by
  induction run generalizing d before with
  | nil =>
      rw [List.nil_append]
      cases back with
      | nil => rw [chunks, chunksAfter_nil, chunksAfter_nil]; simp [runChunk]
      | cons b back =>
          have unmarked := unmarked_of_breaks (breaks b rfl) back
          cases bracket : isBracket b with
          | true =>
              rw [chunks, chunksAfter_bracket unmarked _ bracket,
                chunksAfter_bracket unmarked _ bracket]
              rfl
          | false =>
              have blank : isBlank b = true := by
                by_contra notBlank
                exact breaks b rfl ⟨Bool.eq_false_iff.mpr notBlank, bracket⟩
              rw [chunks, chunksAfter_blank unmarked _ bracket blank,
                chunksAfter_blank unmarked _ bracket blank]
              rfl
  | cons c run induction =>
      have plainHere := plain c List.mem_cons_self
      rw [List.cons_append] at apart ⊢
      have unmarked : markerExtent? (c :: (run ++ back)) = none := by
        by_contra marked
        obtain ⟨extent, found⟩ := Option.ne_none_iff_exists'.mp marked
        have alone := apart 1 (by simp) extent found
        exact alone.1 d rfl plainBefore
      rw [chunksAfter_plain unmarked before plainHere.2 plainHere.1,
        induction plainHere
          (fun d member => plain d (List.mem_cons_of_mem _ member))
          (apart.of_suffix (List.suffix_cons _ _))]
      simp

/-- The run in front of a break is one chunk, be it a marker or not. -/
theorem chunks_run {c : Char} {run back : List Char}
    (plain : ∀ d ∈ c :: run, IsPlain d) (breaks : BreaksOff back)
    (apart : MarkersApart (c :: (run ++ back))) :
    chunks (c :: (run ++ back)) = (c :: run) :: chunks back := by
  rw [List.forall_mem_cons] at plain
  cases found : markerExtent? (c :: (run ++ back)) with
  | none =>
      rw [chunks, chunksAfter_plain found [] plain.1.2 plain.1.1,
        chunksAfter_run plain.1 plain.2 breaks apart]
      simp [runChunk]
  | some extent =>
      obtain ⟨-, markerPlain, markerBreaks⟩ := apart 0 (Nat.succ_pos _) extent found
      rw [List.drop_zero] at markerPlain
      rw [Nat.zero_add] at markerBreaks
      have whole : (c :: (run ++ back)).take extent = c :: run := by
        have first := takeWhile_isPlain markerPlain markerBreaks
        rw [List.take_append_drop, ← List.cons_append,
          takeWhile_isPlain (List.forall_mem_cons.mpr plain) breaks] at first
        exact first.symm
      have left : (run ++ back).drop (extent - 1) = back := by
        cases extent with
        | zero => cases whole
        | succ further =>
            have parts := List.take_append_drop (further + 1) (c :: (run ++ back))
            rw [whole, List.cons_append, List.cons.injEq,
              List.append_cancel_left_eq] at parts
            exact parts.2
      rw [chunks, chunksAfter, found]
      simp only [runChunk, List.isEmpty_nil, if_true, List.nil_append]
      rw [whole, left, chunks]

theorem isBracket_of_blank {c : Char} (blank : isBlank c = true) :
    isBracket c = false := by
  cases bracket : isBracket c with
  | false => rfl
  | true =>
      simp only [isBracket, Bool.or_eq_true, beq_iff_eq] at bracket
      rcases bracket with ((((rfl | rfl) | rfl) | rfl) | rfl) | rfl <;>
        exact absurd blank (by decide)

theorem chunks_blanks {blanks back : List Char}
    (blank : ∀ c ∈ blanks, isBlank c = true) :
    chunks (blanks ++ back) = chunks back := by
  induction blanks with
  | nil => rfl
  | cons c blanks induction =>
      have here := blank c List.mem_cons_self
      have breaks : ¬ IsPlain c := by
        rintro ⟨notBlank, _⟩
        rw [here] at notBlank
        cases notBlank
      rw [List.cons_append, chunks,
        chunksAfter_blank (unmarked_of_breaks breaks _) []
          (isBracket_of_blank here) here]
      exact induction fun d member => blank d (List.mem_cons_of_mem _ member)

/-! ### One chunk or break at a time -/

section

variable {b : Char} {rest : List Char}

theorem meaningfulPieces_bracket (bracket : isBracket b = true) :
    meaningfulPieces [b] = [[b]] ∧
      (codePieces [b]).flatMap Prod.snd = [b] := by
  rw [meaningfulPieces, codePieces_bracket bracket]
  exact ⟨rfl, rfl⟩

theorem take_next_of_bracket (bracket : isBracket b = true)
    (pieces : WholePieces (b :: rest)) :
    (b :: rest).take (Lexeme.next b rest).extent = [b] := by
  have whole := pieces.first
  obtain ⟨further, extent⟩ :=
    Nat.exists_eq_add_one_of_ne_zero (Lexeme.next_extent_pos b rest).ne'
  rw [extent, List.take_succ_cons] at whole ⊢
  rcases whole with blank | single | plain
  · have notBracket := isBracket_of_blank (blank b List.mem_cons_self)
    rw [bracket] at notBracket
    cases notBracket
  · rw [List.length_cons, Nat.add_eq_right, List.length_eq_zero_iff] at single
    rw [single]
  · have notBracket := (plain b List.mem_cons_self).2
    rw [bracket] at notBracket
    cases notBracket

theorem meaningfulPieces_cons_bracket (bracket : isBracket b = true)
    (pieces : WholePieces (b :: rest)) :
    meaningfulPieces (b :: rest) = [b] :: meaningfulPieces rest ∧
      WholePieces rest := by
  have taken := take_next_of_bracket bracket pieces
  have left : (b :: rest).drop (Lexeme.next b rest).extent = rest := by
    have parts := List.take_append_drop (Lexeme.next b rest).extent (b :: rest)
    rw [taken, List.singleton_append] at parts
    exact (List.cons.inj parts).2
  have notTrivia : (Lexeme.next b rest).kind?.any Kind.isTrivia = false := by
    rw [Lexeme.next_isTrivia, ← Lexeme.looksTrivial_take_next, taken]
    exact looksTrivial_bracket bracket
  have later := pieces.drop
  rw [left] at later
  refine ⟨?_, later⟩
  rw [meaningfulPieces, pieces.codePieces_eq, taken, left,
    List.filter_cons_of_pos (by simp [isMeaningful, notTrivia])]
  rfl

theorem meaningfulPieces_cons_blank (blank : isBlank b = true)
    (pieces : WholePieces (b :: rest)) :
    meaningfulPieces (b :: rest) =
        meaningfulPieces ((b :: rest).dropWhile isBlank) ∧
      WholePieces ((b :: rest).dropWhile isBlank) := by
  have space := Lexeme.next_blank blank rest
  have left : (b :: rest).drop (Lexeme.next b rest).extent =
      (b :: rest).dropWhile isBlank := by
    rw [space]
    calc
      (b :: rest).drop (Extent.blanks (b :: rest)) =
          ((b :: rest).takeWhile isBlank ++ (b :: rest).dropWhile isBlank).drop
            (Extent.blanks (b :: rest)) := by
        rw [List.takeWhile_append_dropWhile]
      _ = (b :: rest).dropWhile isBlank := List.drop_left
  have later := pieces.drop
  rw [left] at later
  refine ⟨?_, later⟩
  rw [meaningfulPieces, pieces.codePieces_eq, left,
    List.filter_cons_of_neg (by simp [isMeaningful, space, Kind.isTrivia])]
  rfl

end

theorem meaningfulPieces_append {run back : List Char}
    (plain : ∀ c ∈ run, IsPlain c) (breaks : BreaksOff back)
    (pieces : WholePieces (run ++ back)) :
    meaningfulPieces (run ++ back) =
      meaningfulPieces run ++ meaningfulPieces back := by
  rw [meaningfulPieces, (codePieces_append plain breaks pieces).1,
    List.filter_append, List.map_append]
  rfl

theorem exists_run (text : List Char) :
    ∃ run back, text = run ++ back ∧ (∀ c ∈ run, IsPlain c) ∧
      BreaksOff back := by
  refine ⟨text.takeWhile (fun c => IsPlain c), text.dropWhile (fun c => IsPlain c),
    List.takeWhile_append_dropWhile.symm, ?_, ?_⟩
  · intro c member
    simpa using List.all_eq_true.mp List.all_takeWhile c member
  · intro c isHead plain
    have stops := List.head?_dropWhile_not (fun c => decide (IsPlain c)) text
    rw [isHead] at stops
    simp [plain] at stops

/-- At the front of a text of whole pieces there is a chunk, or white space in
front of the next one, that is read by itself. -/
theorem exists_first_chunk {c : Char} {text : List Char}
    (apart : MarkersApart (c :: text)) (pieces : WholePieces (c :: text)) :
    ∃ (first : List (List Char)) (rest : List Char),
      rest <:+ text ∧ WholePieces rest ∧
      chunks (c :: text) = first ++ chunks rest ∧
      meaningfulPieces (c :: text) =
        first.flatMap meaningfulPieces ++ meaningfulPieces rest ∧
      ∀ chunk ∈ first, (codePieces chunk).flatMap Prod.snd = chunk := by
  by_cases plain : IsPlain c
  · obtain ⟨run, back, rfl, allPlain, breaks⟩ := exists_run text
    have allPlain : ∀ d ∈ c :: run, IsPlain d :=
      List.forall_mem_cons.mpr ⟨plain, allPlain⟩
    obtain ⟨_, spelled, later⟩ := codePieces_append allPlain breaks pieces
    refine ⟨[c :: run], back, List.suffix_append _ _, later,
      chunks_run allPlain breaks apart, ?_, ?_⟩
    · rw [List.flatMap_singleton]
      exact meaningfulPieces_append allPlain breaks pieces
    · rwa [List.forall_mem_singleton]
  · cases blank : isBlank c with
    | true =>
        obtain ⟨same, later⟩ := meaningfulPieces_cons_blank blank pieces
        have skipped := @chunks_blanks _ ((c :: text).dropWhile isBlank)
          (List.all_eq_true.mp (List.all_takeWhile (l := c :: text)))
        rw [List.takeWhile_append_dropWhile] at skipped
        refine ⟨[], _, ?_, later, skipped, same, List.forall_mem_nil _⟩
        rw [List.dropWhile_cons_of_pos blank]
        exact List.dropWhile_suffix _
    | false =>
        have bracket : isBracket c = true := by
          by_contra notBracket
          exact plain ⟨blank, Bool.eq_false_iff.mpr notBracket⟩
        obtain ⟨same, later⟩ := meaningfulPieces_cons_bracket bracket pieces
        obtain ⟨single, spelled⟩ := meaningfulPieces_bracket bracket
        refine ⟨[[c]], text, List.suffix_rfl, later,
          chunksAfter_bracket (unmarked_of_breaks plain text) [] bracket, ?_, ?_⟩
        · rw [List.flatMap_singleton, single, same]
          rfl
        · rwa [List.forall_mem_singleton]

/-- Chunk by chunk, whole pieces are the same. -/
theorem flatMap_chunks {text : List Char} (apart : MarkersApart text)
    (pieces : WholePieces text) :
    (chunks text).flatMap meaningfulPieces = meaningfulPieces text ∧
      ∀ chunk ∈ chunks text, (codePieces chunk).flatMap Prod.snd = chunk := by
  induction length : text.length using Nat.strong_induction_on
    generalizing text with
  | _ bound induction =>
  cases text with
  | nil =>
      rw [chunks, chunksAfter_nil, meaningfulPieces_nil]
      exact ⟨rfl, List.forall_mem_nil _⟩
  | cons c text =>
      obtain ⟨first, rest, behind, later, split, same, spelled⟩ :=
        exists_first_chunk apart pieces
      have shorter : rest.length < bound := by
        rw [← length, List.length_cons]
        exact Nat.lt_succ_of_le behind.length_le
      obtain ⟨sameRest, spelledRest⟩ := induction rest.length shorter
        (apart.of_suffix (behind.trans (List.suffix_cons c text))) later rfl
      rw [split, same, List.flatMap_append, sameRest]
      exact ⟨rfl, List.forall_mem_append.mpr ⟨spelled, spelledRest⟩⟩

/-! ## Stretches of whole tokens -/

/-- The tokens of a stretch are whole, and no template text is behind them. -/
def WholeTokens (stretch : List Char) : Prop :=
  (∀ token ∈ lexCode (String.ofList stretch), IsWhole token.text.toList) ∧
    ∀ token ∈ (lexCode (String.ofList stretch)).dropLast,
      token.kind? ≠ some .closeTag

instance (stretch : List Char) : Decidable (WholeTokens stretch) :=
  inferInstanceAs (Decidable (_ ∧ _))

theorem flatMap_codePieces_of_dropLast {code : String}
    (codeOnly : ∀ token ∈ (lexCode code).dropLast,
      token.kind? ≠ some .closeTag) :
    (codePieces code.toList).flatMap Prod.snd = code.toList := by
  obtain ⟨behind, split, none⟩ := lexCode_pieces code
  have ended : behind = [] := by
    -- otherwise no piece is the last token, so none is a close tag
    by_contra more
    apply more
    apply none
    apply flatMap_codePieces
    intro piece member
    have inFront : piece ∈ ((lexCode code).map Token.piece).dropLast := by
      rw [split, List.dropLast_append_of_ne_nil more]
      exact List.mem_append_left _ member
    rw [← List.map_dropLast] at inFront
    obtain ⟨token, listed, rfl⟩ := List.mem_map.mp inFront
    exact codeOnly token listed
  rw [ended, List.append_nil] at split
  rw [← split, flatMap_piece]
  exact congrArg String.toList (render_lex .code code)

theorem WholeTokens.pieces {stretch : List Char}
    (tokens : WholeTokens stretch) : WholePieces stretch := by
  have spelled := flatMap_codePieces_of_dropLast tokens.2
  rw [String.toList_ofList] at spelled
  refine ⟨?_, spelled⟩
  intro piece member
  rw [← @String.toList_ofList stretch] at member
  obtain ⟨token, lexed, rfl⟩ := exists_token_of_mem_codePieces member
  exact tokens.1 token lexed

theorem WholeTokens.chunkTexts_eq {stretch : List Char}
    (tokens : WholeTokens stretch) (apart : MarkersApart stretch) :
    chunkTexts stretch = meaningfulTexts stretch := by
  obtain ⟨same, spelled⟩ := flatMap_chunks apart tokens.pieces
  calc
    chunkTexts stretch = (chunks stretch).flatMap fun chunk =>
        (meaningfulPieces chunk).map String.ofList := by
      apply List.flatMap_congr
      intro chunk member
      exact meaningfulTexts_eq (spelled chunk member)
    _ = (meaningfulPieces stretch).map String.ofList := by
      rw [← List.map_flatMap, same]
    _ = meaningfulTexts stretch :=
      (meaningfulTexts_eq tokens.pieces.spelled).symm

/-- The literals in front of, between and behind the captures are those of the
stretches, read chunk by chunk, if no stretch contains the marker of a capture
and those in front of captures close the markers that begin there.  For stretches
of whole tokens, in which other markers stand apart, these are their tokens
without trivia. -/
theorem parse_literals {text : String} {stretches : Stretches}
    (isCut : CutAtCaptures text.toList stretches)
    (capturing : stretches.marked ≠ [])
    (unforged : ∀ stretch ∈ stretches.all,
      Unforged stretches.marked.length stretch)
    (closes : ∀ stretch ∈ stretches.all.dropLast, ClosesMarkers stretch) :
    literalRuns (Pattern.parse text).elements =
        stretches.all.map chunkTexts ∧
      ∀ stretch ∈ stretches.all, MarkersApart stretch → WholeTokens stretch →
        chunkTexts stretch = meaningfulTexts stretch := by
  refine ⟨literalRuns_parse isCut.eq_cut capturing unforged closes, ?_⟩
  intro stretch _ apart tokens
  exact tokens.chunkTexts_eq apart

/-- Around these captures brackets, operators and names are whole, and the marker
of another number stands apart. -/
theorem parse_literals_unless :
    let text :=
      "unless __CAPTURE_9__ ($a->b===$(layer() as c)) return $(layer() as d);"
    let stretches := Stretches.cut Mark.capture? text.toList
    CutAtCaptures text.toList stretches ∧ stretches.marked ≠ [] ∧
      (∀ stretch ∈ stretches.all,
        Unforged stretches.marked.length stretch) ∧
      (∀ stretch ∈ stretches.all.dropLast, ClosesMarkers stretch) ∧
      (∀ stretch ∈ stretches.all,
        MarkersApart stretch ∧ WholeTokens stretch) ∧
      literalRuns (Pattern.parse text).elements =
        stretches.all.map meaningfulTexts ∧
      stretches.all.map meaningfulTexts =
        [["unless", "__CAPTURE_9__", "(", "$a", "->", "b", "==="],
          [")", "return"], [";"]] := by
  intro text stretches
  have isCut : CutAtCaptures text.toList stretches := cut_capture? text.toList
  have capturing : stretches.marked ≠ [] := by decide +kernel
  have unforged : ∀ stretch ∈ stretches.all,
      Unforged stretches.marked.length stretch := by
    decide +kernel
  have closes : ∀ stretch ∈ stretches.all.dropLast, ClosesMarkers stretch := by
    decide +kernel
  have whole : ∀ stretch ∈ stretches.all,
      MarkersApart stretch ∧ WholeTokens stretch := by
    decide +kernel
  obtain ⟨literals, same⟩ := parse_literals isCut capturing unforged closes
  refine ⟨isCut, capturing, unforged, closes, whole, ?_, by decide +kernel⟩
  rw [literals]
  apply List.map_congr_left
  intro stretch member
  exact same stretch member (whole stretch member).1 (whole stretch member).2

/-- Each condition is needed.  Blanks and brackets tear a string apart, behind a
close tag blanks are no trivia, the marker of a capture stands for it, one that
is not closed takes in what follows, and one inside a name tears it apart. -/
theorem parse_literals_torn :
    let runs (text : String) := literalRuns (Pattern.parse text).elements
    let wanted (text : String) :=
      (Stretches.cut Mark.capture? text.toList).all.map meaningfulTexts
    (runs "\"a b\" $(layer() as x)" = [["\"a", "b", "\""], []] ∧
      wanted "\"a b\" $(layer() as x)" = [["\"a b\""], []]) ∧
    (runs "?> $(layer() as x)" = [["?>"], []] ∧
      wanted "?> $(layer() as x)" = [["?>", " "], []]) ∧
    (runs "__CAPTURE_0__ $(layer() as x)" = [[], [], []] ∧
      wanted "__CAPTURE_0__ $(layer() as x)" = [["__CAPTURE_0__"], []]) ∧
    (runs "f __CAPTURE_5 $(layer() as x)" ≠
      wanted "f __CAPTURE_5 $(layer() as x)") ∧
    (runs "a__CAPTURE_9__ $(layer() as x)" = [["a", "__CAPTURE_9__"], []] ∧
      wanted "a__CAPTURE_9__ $(layer() as x)" = [["a__CAPTURE_9__"], []]) := by
  decide +kernel

end TokenMacros
