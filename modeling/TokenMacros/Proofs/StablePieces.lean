import TokenMacros.Proofs.TriviaPieces

/-!
# Rows of pieces in front of a stop

Code and template text that are read up to a piece of trivia are read in the same
way when that piece gives way to another stop.  The tag that ends a stretch of
template text stands in front of the trivia, so it is found at the same place.
-/

namespace TokenMacros

open Text (isBlank)

/-! ## Open tags -/

/-- What the long tag owns behind its mark. -/
def tagBreak : List Char → Nat
  | '\r' :: '\n' :: _ => 2
  | c :: _ => if isBlank c then 1 else 0
  | [] => 0

theorem tagBreak_cons {c : Char} {rest : List Char}
    (noBreak : c = '\r' → rest.head? ≠ some '\n') :
    tagBreak (c :: rest) = if isBlank c then 1 else 0 := by
  unfold tagBreak
  split
  · next shape =>
      obtain ⟨rfl, rfl⟩ := List.cons.inj shape
      exact absurd rfl (noBreak rfl)
  · next shape => rw [(List.cons.inj shape).1]
  · next shape => cases shape

theorem openTagExtent_eq (text : List Char) :
    openTagExtent text =
      if beginsWith echoTagMark text then 3 else 5 + tagBreak (text.drop 5) := by
  unfold openTagExtent
  split
  · rfl
  · generalize text.drop 5 = behind
    split
    · rfl
    · next c rest apart =>
        have noBreak : c = '\r' → rest.head? ≠ some '\n' := by
          intro isReturn isNewline
          obtain ⟨tail, rfl⟩ := List.head?_eq_some_iff.mp isNewline
          exact apart tail isReturn rfl
        rw [tagBreak_cons noBreak]
        cases isBlank c <;> rfl
    · rfl

theorem tagBreak_cons_cons (c d : Char) (rest rest' : List Char) :
    tagBreak (c :: d :: rest) = tagBreak (c :: d :: rest') := by
  by_cases breaks : c = '\r' ∧ d = '\n'
  · obtain ⟨rfl, rfl⟩ := breaks
    rfl
  · have noBreak : c = '\r' → some d ≠ some '\n' := by
      rintro isReturn isNewline
      exact breaks ⟨isReturn, Option.some.inj isNewline⟩
    rw [tagBreak_cons noBreak, tagBreak_cons noBreak]

theorem tagBreak_pos {c : Char} (blank : isBlank c = true) (rest : List Char) :
    0 < tagBreak (c :: rest) := by
  unfold tagBreak
  split
  · decide
  · next shape =>
      rw [← (List.cons.inj shape).1, if_pos blank]
      decide
  · next shape => cases shape

section

variable {stop old : Char} (replaces : Replaces stop old)
  {text more more' : List Char}

include replaces

theorem tagBreak_replaces
    (fits : tagBreak (text ++ old :: more) ≤ text.length)
    (noReturn : (text.take (tagBreak (text ++ old :: more))).getLast? ≠
      some '\r') :
    tagBreak (text ++ stop :: more') = tagBreak (text ++ old :: more) := by
  match text with
  | [] =>
      have notBlank : ¬ isBlank old = true := by
        intro blank
        exact absurd fits (Nat.not_le_of_gt (tagBreak_pos blank more))
      have apart {c : Char} (blank : isBlank c = true) : old ≠ c := by
        rintro rfl
        exact notBlank blank
      rw [replaces.eq_of_ne_space (apart (by decide)), List.nil_append,
        List.nil_append, tagBreak_cons (absurd · (apart (by decide))),
        tagBreak_cons (absurd · (apart (by decide)))]
  | [c] =>
      have notReturn : c ≠ '\r' := by
        rintro rfl
        have positive := @tagBreak_pos '\r' (by decide) (old :: more)
        have one : tagBreak ('\r' :: old :: more) = 1 :=
          Nat.le_antisymm fits positive
        rw [List.singleton_append, one] at noReturn
        exact noReturn rfl
      rw [List.singleton_append, List.singleton_append,
        tagBreak_cons (absurd · notReturn), tagBreak_cons (absurd · notReturn)]
  | c :: d :: text => exact tagBreak_cons_cons c d _ _

/-- An open tag that ends in the text has its extent whatever stop follows it,
unless it would own a line break whose carriage return it ends with. -/
theorem openTagExtent_replaces
    (fits : openTagExtent (text ++ old :: more) ≤ text.length)
    (noReturn : (text.take (openTagExtent (text ++ old :: more))).getLast? ≠
      some '\r') :
    openTagExtent (text ++ stop :: more') =
      openTagExtent (text ++ old :: more) := by
  have mark {stop : Char} (stops : isStop stop = true) (more : List Char) :
      beginsWith echoTagMark (text ++ stop :: more) =
        beginsWith echoTagMark text :=
    beginsWith_stop (by decide) text stops more
  rw [openTagExtent_eq, mark replaces.oldStops] at fits noReturn
  rw [openTagExtent_eq, openTagExtent_eq, mark replaces.stops,
    mark replaces.oldStops]
  split
  · rfl
  · next long =>
      rw [if_neg long] at fits noReturn
      have five : 5 ≤ text.length := by omega
      rw [List.drop_append_of_le_length five] at fits noReturn
      rw [List.drop_append_of_le_length five,
        List.drop_append_of_le_length five]
      rw [tagBreak_replaces replaces]
      · rw [List.length_drop]
        omega
      · intro returns
        apply noReturn
        rw [List.take_add, List.getLast?_append, returns]
        rfl

end

theorem openTagOffset?_asciiLower_cons (c : Char) (text : List Char) :
    openTagOffset? (asciiLower (c :: text)) =
      if opensCode (c :: text) then some 0
      else (openTagOffset? (asciiLower text)).map (· + 1) := rfl

/-- Within a tag no other one begins. -/
theorem opensCode_of_append {c : Char} {text back : List Char}
    (opens : opensCode (c :: text ++ back) = true)
    (tagged : ∃ tag, tag <:+ text ∧ opensCode tag = true) :
    opensCode (c :: text) = true := by
  obtain ⟨tag, behind, tagOpens⟩ := tagged
  have bracket : '<' ∈ asciiLower text := by
    apply (behind.map Char.toLower).subset
    rw [opensCode_iff] at tagOpens
    rcases tagOpens with echo | long
    · rw [← prefix_asciiLower_iff (by decide)] at echo
      exact echo.subset (by decide)
    · exact long.subset (by decide)
  have within {mark : List Char} (single : '<' ∉ mark.tail)
      (begins : mark <+: asciiLower (c :: text ++ back)) :
      mark <+: asciiLower (c :: text) := by
    have text' : asciiLower (c :: text) <+: asciiLower (c :: text ++ back) :=
      (List.prefix_append _ _).map Char.toLower
    rcases List.prefix_or_prefix_of_prefix begins text' with inside | spills
    · exact inside
    · -- the mark would contain the bracket that the later tag begins with
      obtain ⟨rest, rfl⟩ := spills
      exact absurd (List.mem_append_left rest bracket) single
  rw [opensCode, Bool.or_eq_true, beginsWith, beginsWith,
    List.isPrefixOf_iff_prefix, List.isPrefixOf_iff_prefix] at opens ⊢
  exact opens.imp (within (by decide)) (within (by decide))

/-- A tag that stands in the text is found there whatever follows the text. -/
theorem openTagOffset?_append_of_inside {text back back' : List Char}
    {offset : Nat}
    (found : openTagOffset? (asciiLower (text ++ back)) = some offset)
    (inside : opensCode (text.drop offset) = true) :
    openTagOffset? (asciiLower (text ++ back')) = some offset := by
  induction text generalizing offset with
  | nil =>
      rw [List.drop_nil] at inside
      cases inside
  | cons c text induction =>
      rw [List.cons_append, openTagOffset?_asciiLower_cons] at found ⊢
      cases offset with
      | zero =>
          rw [if_pos]
          exact opensCode_of_isPrefix (List.prefix_append (c :: text) back')
            inside
      | succ offset =>
          split at found
          · cases found
          · next notHere =>
              obtain ⟨later, foundLater, same⟩ :=
                Option.map_eq_some_iff.mp found
              obtain rfl : later = offset := by omega
              rw [if_neg, induction foundLater inside]
              · rfl
              · intro opens
                have tagged : ∃ tag, tag <:+ text ∧ opensCode tag = true :=
                  ⟨text.drop later, List.drop_suffix _ _, inside⟩
                apply notHere
                exact opensCode_of_isPrefix (List.prefix_append (c :: text) back)
                  (opensCode_of_append opens tagged)

/-! ## Template text in front of trivia -/

section

variable {piece : Option Kind × List Char}
  {pieces rest : List (Option Kind × List Char)}
  (trivia : piece.1.any Kind.isTrivia = true)

include trivia

theorem exists_front_of_isTemplate {first : Option Kind × List Char}
    {later : List (Option Kind × List Char)}
    (template : first.1.any Kind.isTemplate = true)
    (split : first :: later = pieces ++ piece :: rest) :
    ∃ front, pieces = first :: front ∧ later = front ++ piece :: rest := by
  cases pieces with
  | nil =>
      obtain rfl := (List.cons.inj split).1
      exfalso
      obtain ⟨kind, isKind, isTrivia⟩ := (Option.any_eq_true _ _).mp trivia
      rw [isKind, Option.any_some, kind.isTemplate_of_isTrivia isTrivia]
        at template
      cases template
  | cons q pieces =>
      obtain ⟨rfl, same⟩ := List.cons.inj split
      exact ⟨pieces, rfl, same⟩

theorem exists_tag_of_openTagOffset? {text : List Char}
    (found : openTagOffset? (asciiLower text) = some 0)
    (split : sourcePieces .template text = pieces ++ piece :: rest) :
    ∃ tag later, pieces = (some .openTag, tag) :: later ∧
      opensCode tag = true := by
  rw [sourcePieces_tag found] at split
  obtain ⟨later, rfl, _⟩ := exists_front_of_isTemplate trivia rfl split
  exact ⟨_, later, rfl,
    opensCode_take_openTagExtent (opensCode_of_openTagOffset? found)⟩

/-- Template text in front of trivia has a tag. -/
theorem exists_tag_of_split {text : List Char}
    (split : sourcePieces .template text = pieces ++ piece :: rest) :
    ∃ tag ∈ pieces, opensCode tag.2 = true := by
  cases found : openTagOffset? (asciiLower text) with
  | none =>
      exfalso
      cases text with
      | nil =>
          rw [sourcePieces_nil] at split
          exact List.append_ne_nil_of_right_ne_nil _ (List.cons_ne_nil _ _)
            split.symm
      | cons c text =>
          rw [sourcePieces_cons] at split
          simp only [Lexeme.inMode, found, List.drop_length,
            sourcePieces_nil] at split
          obtain ⟨front, _, later⟩ :=
            exists_front_of_isTemplate trivia rfl split
          exact List.append_ne_nil_of_right_ne_nil _ (List.cons_ne_nil _ _)
            later.symm
  | some offset =>
      by_cases here : offset = 0
      · rw [here] at found
        obtain ⟨tag, later, rfl, opens⟩ :=
          exists_tag_of_openTagOffset? trivia found split
        exact ⟨_, List.mem_cons_self, opens⟩
      · cases text with
        | nil => cases found
        | cons c text =>
            rw [sourcePieces_html found here] at split
            obtain ⟨front, rfl, later⟩ :=
              exists_front_of_isTemplate trivia rfl split
            have first := openTagOffset?_drop found
            rw [asciiLower, ← List.map_drop] at first
            obtain ⟨tag, _, rfl, opens⟩ :=
              exists_tag_of_openTagOffset? trivia first later
            exact ⟨_, List.mem_cons_of_mem _ List.mem_cons_self, opens⟩

theorem three_le_length_of_template {text : List Char}
    (split : sourcePieces .template text = pieces ++ piece :: rest) :
    3 ≤ (pieces.flatMap Prod.snd).length := by
  obtain ⟨tag, member, opens⟩ := exists_tag_of_split trivia split
  have long : 3 ≤ tag.2.length := by
    rcases opensCode_iff.mp opens with echo | long
    · exact echo.length_le
    · have five := long.length_le
      rw [asciiLower, List.length_map] at five
      exact Nat.le_trans (by decide) five
  apply Nat.le_trans long
  rw [List.flatMap_def]
  exact (List.sublist_flatten_of_mem (List.mem_map_of_mem member)).length_le

end

/-! ## Pieces -/

theorem flatMap_ne_nil_of_sourcePieces {mode : Mode} {text : List Char}
    {first piece : Option Kind × List Char}
    {pieces rest : List (Option Kind × List Char)}
    (split : sourcePieces mode text = first :: pieces ++ piece :: rest) :
    (first :: pieces).flatMap Prod.snd ≠ [] := by
  have nonempty : first.2 ≠ [] := by
    apply @sourcePieces_text_ne_nil mode text
    rw [split]
    exact List.mem_cons_self
  rw [List.flatMap_cons]
  exact List.append_ne_nil_of_left_ne_nil nonempty _

section

variable {stop old : Char} (replaces : Replaces stop old)
  {more more' : List Char} {mode : Mode} {c : Char} {first : List Char}
  {piece : Option Kind × List Char}
  {pieces rest : List (Option Kind × List Char)}

include replaces

theorem Lexeme.next_replaces_of_later
    (trivia : piece.1.any Kind.isTrivia = true)
    (extent : (next c (first ++ pieces.flatMap Prod.snd ++ old :: more)).extent =
      (c :: first).length)
    (later : sourcePieces (modeBehind (next c (first ++
        pieces.flatMap Prod.snd ++ old :: more)).kind?)
        (pieces.flatMap Prod.snd ++ old :: more) = pieces ++ piece :: rest)
    (slash : pieces = [] → first = [] → c = '/' →
      (next c (first ++ pieces.flatMap Prod.snd ++ old :: more)).kind? = none →
      stop = '/' → old = '/')
    (heredoc : c :: first = ['<', '<'] →
      ∀ next ∈ (pieces ++ [piece]).head?, next.2.head? ≠ some '<') :
    next c (first ++ pieces.flatMap Prod.snd ++ stop :: more') =
      next c (first ++ pieces.flatMap Prod.snd ++ old :: more) := by
  have noPieces (nothing : pieces.flatMap Prod.snd = []) : pieces = [] := by
    cases pieces with
    | nil => rfl
    | cons first pieces =>
        exact absurd nothing (flatMap_ne_nil_of_sourcePieces later)
  apply next_replaces replaces
  · rw [extent, ← List.cons_append, List.length_append]
    exact Nat.le_add_right _ _
  · intro isSlash nothing stopSlash
    obtain ⟨noFirst, nothing⟩ := List.append_eq_nil_iff.mp nothing
    by_cases same : old = '/'
    · exact same
    · apply slash (noPieces nothing) noFirst isSlash _ stopSlash
      rw [noFirst, nothing, isSlash]
      exact congrArg Lexeme.kind? (next_slash replaces.oldStops same more)
  · intro closes
    rw [closes] at later
    have long := three_le_length_of_template trivia later
    rw [List.length_append]
    omega
  · intro begins
    have whole : beginsWith ['<', '<', '<']
        (c :: (first ++ pieces.flatMap Prod.snd ++ old :: more)) = true := by
      rwa [beginsWith_cons_stop (by decide) c _ replaces.oldStops]
    rcases next_shift whole with isString | shift
    · exact isString
    · exfalso
      rw [shift, List.length_cons] at extent
      obtain ⟨d, rfl⟩ := List.length_eq_one_iff.mp (Nat.succ.inj extent).symm
      obtain ⟨tail, shape⟩ := List.isPrefixOf_iff_prefix.mp begins
      simp only [List.cons_append, List.nil_append, List.cons.injEq] at shape
      obtain ⟨rfl, rfl, behind⟩ := shape
      cases pieces with
      | nil => cases behind
      | cons following pieces =>
          have nonempty : following.2 ≠ [] := by
            apply sourcePieces_text_ne_nil
            rw [later]
            exact List.mem_cons_self
          obtain ⟨e, text, shape⟩ := List.exists_cons_of_ne_nil nonempty
          rw [List.flatMap_cons, shape] at behind
          obtain rfl := (List.cons.inj behind).1
          apply heredoc rfl following rfl
          rw [shape]
          rfl

theorem Lexeme.inMode_template_replaces
    (trivia : piece.1.any Kind.isTrivia = true)
    (extent : (inMode .template c (first ++ pieces.flatMap Prod.snd ++
      old :: more)).extent = (c :: first).length)
    (later : sourcePieces (modeBehind (inMode .template c (first ++
        pieces.flatMap Prod.snd ++ old :: more)).kind?)
        (pieces.flatMap Prod.snd ++ old :: more) = pieces ++ piece :: rest)
    (noReturn : (inMode .template c (first ++ pieces.flatMap Prod.snd ++
        old :: more)).kind? = some .openTag →
      (c :: first).getLast? ≠ some '\r') :
    inMode .template c (first ++ pieces.flatMap Prod.snd ++ stop :: more') =
      inMode .template c (first ++ pieces.flatMap Prod.snd ++ old :: more) := by
  generalize spelled : pieces.flatMap Prod.snd = text at *
  have inText : (c :: first).length ≤ (c :: (first ++ text)).length := by
    rw [← List.cons_append, List.length_append]
    exact Nat.le_add_right _ _
  have stays {offset : Nat}
      (found : openTagOffset? (asciiLower
        (c :: (first ++ text ++ old :: more))) = some offset)
      (inside : opensCode ((c :: (first ++ text)).drop offset) = true) :
      openTagOffset? (asciiLower (c :: (first ++ text ++ stop :: more'))) =
        some offset :=
    @openTagOffset?_append_of_inside (c :: (first ++ text)) (old :: more) _
      offset found inside
  cases found : openTagOffset? (asciiLower
      (c :: (first ++ text ++ old :: more))) with
  | none =>
      simp only [inMode, found] at extent
      simp only [List.length_cons, List.length_append] at extent
      omega
  | some offset =>
  cases offset with
  | zero =>
      simp only [inMode, found] at extent noReturn ⊢
      have opens := opensCode_take_openTagExtent
        (opensCode_of_openTagOffset? found)
      have cut : (c :: (first ++ text ++ old :: more)).take
          (c :: first).length = c :: first := by
        rw [List.append_assoc, ← List.cons_append, List.take_left]
      rw [extent, cut] at opens
      have inside : opensCode (c :: (first ++ text)) = true :=
        opensCode_of_isPrefix (List.prefix_append (c :: first) text) opens
      rw [stays found inside]
      apply congrArg (Lexeme.mk (some .openTag))
      rw [← List.cons_append, ← List.cons_append] at extent ⊢
      apply openTagExtent_replaces replaces
      · rw [extent]
        exact inText
      · rw [extent, List.take_left]
        exact noReturn trivial
  | succ offset =>
      simp only [inMode, found] at extent later ⊢
      have here := openTagOffset?_drop found
      rw [asciiLower, ← List.map_drop, extent, List.append_assoc,
        ← List.cons_append, List.drop_left] at here
      obtain ⟨tag, behind, rfl, opens⟩ :=
        exists_tag_of_openTagOffset? trivia here later
      have inside : opensCode ((c :: (first ++ text)).drop (offset + 1)) =
          true := by
        rw [extent, ← List.cons_append, List.drop_left, ← spelled,
          List.flatMap_cons]
        exact opensCode_of_isPrefix (List.prefix_append tag _) opens
      rw [stays found inside]
      rfl

end

/-- The pieces in front of a piece of trivia are the same whatever stop that
piece is replaced by, unless a slash would begin a comment.  What begins like a
heredoc is one, and open tags do not end with a carriage return. -/
theorem sourcePieces_replaces {stop old : Char} (replaces : Replaces stop old)
    {more more' : List Char} {mode : Mode}
    {pieces rest : List (Option Kind × List Char)}
    {piece : Option Kind × List Char}
    (split : sourcePieces mode (pieces.flatMap Prod.snd ++ old :: more) =
      pieces ++ piece :: rest)
    (trivia : piece.1.any Kind.isTrivia = true)
    (slash : ∀ last ∈ pieces.getLast?,
      last = (none, ['/']) → stop = '/' → old = '/')
    (heredoc : (pieces ++ [piece]).IsChain fun shift next =>
      shift.2 = ['<', '<'] → next.2.head? ≠ some '<')
    (noReturn : ∀ tag ∈ pieces, tag.1 = some .openTag →
      tag.2.getLast? ≠ some '\r') :
    sourcePieces mode (pieces.flatMap Prod.snd ++ stop :: more') =
      pieces ++ sourcePieces .code (stop :: more') := by
  induction pieces generalizing mode with
  | nil =>
      cases mode with
      | code => rfl
      | template =>
          obtain ⟨_, member, _⟩ := exists_tag_of_split trivia split
          cases member
  | cons q pieces induction =>
      obtain ⟨kind?, text⟩ := q
      have shape (back : List Char) :
          ((kind?, text) :: pieces).flatMap Prod.snd ++ back =
            text ++ (pieces.flatMap Prod.snd ++ back) := by
        rw [List.flatMap_cons, List.append_assoc]
      rw [shape, List.cons_append] at split
      obtain ⟨c, first, rfl, isKind, extent, later⟩ :=
        exists_of_sourcePieces_cons split
          (List.append_ne_nil_of_right_ne_nil _ (List.cons_ne_nil old more))
      rw [← List.append_assoc] at isKind extent
      rw [← isKind] at later
      have stays : Lexeme.inMode mode c
          (first ++ pieces.flatMap Prod.snd ++ stop :: more') =
            Lexeme.inMode mode c
              (first ++ pieces.flatMap Prod.snd ++ old :: more) := by
        cases mode with
        | code =>
            apply Lexeme.next_replaces_of_later replaces trivia extent later
            · intro noPieces noFirst isSlash bare
              apply slash (none, ['/'])
              · rw [noPieces, noFirst, isSlash, ← isKind, Lexeme.inMode, bare]
                rfl
              · rfl
            · intro shift following isHead
              exact (List.isChain_cons.mp heredoc).1 following isHead shift
        | template =>
            apply Lexeme.inMode_template_replaces replaces trivia extent later
            intro isTag
            exact noReturn _ List.mem_cons_self (isKind.symm.trans isTag)
      have behind := induction (isKind ▸ later)
        (fun last isLast => slash last (by
          rw [Option.mem_def] at isLast ⊢
          rw [List.getLast?_cons, isLast]
          rfl))
        (List.isChain_cons.mp heredoc).2
        (fun tag member => noReturn tag (List.mem_cons_of_mem _ member))
      rw [← stays] at isKind extent
      rw [List.append_assoc] at isKind extent
      rw [shape, sourcePieces_of_extent isKind extent, behind, List.cons_append]

end TokenMacros
