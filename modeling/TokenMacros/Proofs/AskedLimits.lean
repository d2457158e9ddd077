import Mathlib.Data.List.Basic
import TokenMacros.Proofs.ArgumentWords

/-!
# Asked limits

Which iteration limit a command line asks for, told from its words: the one that
its last option for it has as its value.  The words are searched for this option
alone; what else they hold makes no difference, once they are accepted.
-/

namespace TokenMacros

/-- The option for the iteration limit. -/
def limitName : String := "--max-iterations"

/-- How an option for the limit begins that has its value attached. -/
def limitPrefix : List Char := limitName.toList ++ ['=']

/-- What the options for the limit have as their values, in order.  It stands
behind an equals sign, or is the next word.  Behind a separator there are no
options. -/
def limitsAsked : List String → List (List Char)
  | [] => []
  | word :: rest =>
    if word = "--" then []
    else if word = limitName then
      (rest.head?.map String.toList).toList ++ limitsAsked rest
    else
      match limitPrefix.isPrefixOf? word.toList with
      | some value => value :: limitsAsked rest
      | none => limitsAsked rest

/-- The value of the last option for the limit, if there is one. -/
def limitAsked? (words : List String) : Option (List Char) :=
  (limitsAsked words).getLast?

/-! ## Words that ask for a limit -/

namespace Word

theorem isLong_maxIterations : Switch.IsLong .maxIterations := by
  intro written member
  rw [List.mem_singleton.mp member]
  decide

theorem ofName?_maxIterations {name : List Char}
    (named : Switch.ofName? name = some .maxIterations) :
    name = limitName.toList := by
  obtain ⟨written, member, rfl⟩ := Switch.exists_name_of_ofName? named
  rw [List.mem_singleton.mp member, limitName]

theorem ofName?_of_equalsSign {name : List Char} (member : '=' ∈ name) :
    Switch.ofName? name = none := by
  cases named : Switch.ofName? name with
  | none => rfl
  | some switch =>
      obtain ⟨written, isName, rfl⟩ := Switch.exists_name_of_ofName? named
      have unequal : ∀ switch ∈ Switch.all, ∀ written ∈ switch.names,
          '=' ∉ written.toList := by decide
      have known : switch ∈ Switch.all := by
        cases switch with
        | _ => decide
      exact absurd member (unequal switch known written isName)

theorem classify_limitName :
    classify limitName.toList = .long .maxIterations none := by
  decide

theorem classify_limitPrefix (value : List Char) :
    classify (limitPrefix ++ value) = .long .maxIterations (some value) := by
  have unnamed : ofName (limitPrefix ++ value) none = none := by
    rw [ofName, ofName?_of_equalsSign, Option.map_none]
    exact List.mem_append_left value (by decide)
  have name : (limitPrefix ++ value).takeWhile (· != '=') = limitName.toList := by
    rw [limitPrefix, List.append_assoc,
      List.takeWhile_append_of_pos (by decide)]
    simp
  have assigned : ofAssignment (limitPrefix ++ value) =
      some (.long .maxIterations (some value)) := by
    rw [ofAssignment, name, if_neg (by simp [limitPrefix])]
    rfl
  rw [classify, unnamed, assigned]
  rfl

theorem ne_separator_of_ofName {name : List Char}
    {attached : Option (List Char)} {option : Word}
    (read : ofName name attached = some option) : option ≠ .separator := by
  obtain ⟨switch, _, rfl⟩ := Option.map_eq_some_iff.mp read
  split
  · exact Word.noConfusion
  · exact Word.noConfusion

theorem eq_of_classify_separator {word : List Char} :
    classify word = .separator → word = ['-', '-'] := by
  apply classify_cases (motive := fun option =>
    option = .separator → word = ['-', '-'])
  · exact fun dashes _ => dashes
  · exact Word.noConfusion
  · exact Word.noConfusion
  · exact fun _ read same => absurd same (ne_separator_of_ofName read)
  · intro option read same
    rw [ofAssignment] at read
    split at read
    · cases read
    · exact absurd same (ne_separator_of_ofName read)
  · intro option read same
    rw [ofCluster] at read
    split at read
    · cases read
    · obtain ⟨_, _, rfl⟩ := Option.map_eq_some_iff.mp read
      cases same

/-- A word that asks for a limit spells the option and its value. -/
def SpellsLimit (word : List Char) : Word → Prop
  | .long .maxIterations attached =>
    word = attached.elim limitName.toList (limitPrefix ++ ·)
  | .short .maxIterations _ => False
  | _ => True

theorem spellsLimit_of_ofName {word name : List Char}
    {attached : Option (List Char)} {option : Word}
    (spelled : name = limitName.toList →
      word = attached.elim limitName.toList (limitPrefix ++ ·))
    (read : ofName name attached = some option) : SpellsLimit word option := by
  obtain ⟨switch, named, rfl⟩ := Option.map_eq_some_iff.mp read
  cases switch with
  | maxIterations =>
      have same := ofName?_maxIterations named
      subst same
      exact spelled rfl
  | _ =>
      split
      · trivial
      · trivial

theorem cut_at_mark {mark : Char} {text : List Char}
    (marked : (text.takeWhile (· != mark)).length ≠ text.length) :
    text.takeWhile (· != mark) ++
        mark :: text.drop ((text.takeWhile (· != mark)).length + 1) = text := by
  induction text with
  | nil => exact absurd rfl marked
  | cons c text induction =>
      by_cases isMark : c = mark
      · subst isMark
        simp
      · have taken : (c :: text).takeWhile (· != mark) =
            c :: text.takeWhile (· != mark) :=
          List.takeWhile_cons_of_pos (by simpa using isMark)
        rw [taken] at marked ⊢
        simp only [List.length_cons, ne_eq, Nat.add_right_cancel_iff] at marked
        rw [List.cons_append, List.length_cons, List.drop_succ_cons,
          induction marked]

theorem spellsLimit_of_ofAssignment {word : List Char} {option : Word}
    (read : ofAssignment word = some option) : SpellsLimit word option := by
  rw [ofAssignment] at read
  split at read
  · cases read
  · next marked =>
      apply spellsLimit_of_ofName _ read
      intro same
      have cut := cut_at_mark marked
      rw [same] at cut ⊢
      rw [Option.elim_some, limitPrefix, List.append_assoc, List.singleton_append,
        cut]

theorem classify_spellsLimit (word : List Char) :
    SpellsLimit word (classify word) := by
  apply classify_cases (fun _ => trivial) trivial trivial
  · exact fun _ => spellsLimit_of_ofName id
  · exact fun _ => spellsLimit_of_ofAssignment
  · intro option read
    rw [ofCluster] at read
    split at read
    · cases read
    · obtain ⟨switch, named, rfl⟩ := Option.map_eq_some_iff.mp read
      have other := isLong_maxIterations.ne_of_short (List.length_take_le 2 word)
        named
      cases switch with
      | maxIterations => exact absurd rfl other
      | _ => trivial

/-- The word is no option for the limit. -/
def LacksLimit (word : Word) : Prop :=
  ∀ attached, word ≠ .long .maxIterations attached

end Word

theorem limitsAsked_limitName (rest : List String) :
    limitsAsked (limitName :: rest) =
      (rest.head?.map String.toList).toList ++ limitsAsked rest := by
  rw [limitsAsked, if_neg (by decide), if_pos rfl]

theorem limitsAsked_limitPrefix {word : String} {value : List Char}
    (spelled : word.toList = limitPrefix ++ value) (rest : List String) :
    limitsAsked (word :: rest) = value :: limitsAsked rest := by
  have isWord : Word.classify word.toList = .long .maxIterations (some value) := by
    rw [spelled, Word.classify_limitPrefix]
  have notSeparator : word ≠ "--" := by
    rintro rfl
    cases isWord
  have notName : word ≠ limitName := by
    rintro rfl
    rw [Word.classify_limitName] at isWord
    cases isWord
  rw [limitsAsked, if_neg notSeparator, if_neg notName,
    List.isPrefixOf?_eq_some_iff_append_eq.mpr spelled.symm]

theorem limitsAsked_other {word : String}
    (options : Word.classify word.toList ≠ .separator)
    (lacks : (Word.classify word.toList).LacksLimit) (rest : List String) :
    limitsAsked (word :: rest) = limitsAsked rest := by
  have notSeparator : word ≠ "--" := by
    rintro rfl
    exact options rfl
  have notName : word ≠ limitName := by
    rintro rfl
    exact lacks none Word.classify_limitName
  rw [limitsAsked, if_neg notSeparator, if_neg notName]
  cases cut : limitPrefix.isPrefixOf? word.toList with
  | none => rfl
  | some value =>
      rw [List.isPrefixOf?_eq_some_iff_append_eq] at cut
      rw [← cut] at lacks
      exact absurd (Word.classify_limitPrefix value) (lacks (some value))

theorem limitsAsked_argument {word : String}
    (argument : Word.classify word.toList = .argument) (rest : List String) :
    limitsAsked (word :: rest) = limitsAsked rest := by
  apply limitsAsked_other
  · rw [argument]
    exact Word.noConfusion
  · rw [argument]
    exact fun _ => Word.noConfusion

/-! ## Limits behind words -/

/-- The limit behind what options ask for: the last one counts. -/
def limitBehind (current : Option Int) (asked : List (List Char)) :
    Except Dismissal (Option Int) :=
  asked.getLast?.elim (.ok current) fun value =>
    (Arguments.readLimit value).map some

theorem limitBehind_cons {current : Option Int} {value : List Char}
    {limit : Int} (reads : Arguments.readLimit value = .ok limit)
    (later : List (List Char)) :
    limitBehind current (value :: later) = limitBehind (some limit) later := by
  cases later with
  | nil => rw [limitBehind, List.getLast?_singleton, Option.elim_some, reads]; rfl
  | cons value' later => rw [limitBehind, List.getLast?_cons_cons, limitBehind]; rfl

namespace Cluster

/-- The value that the last option of a cluster takes, and whether it is the next
word. -/
inductive Takes (cluster : Cluster) (next : Option String) :
    List Char → Bool → Prop where
  | attached {text : List Char} (attached : cluster.attached = some text) :
      Takes cluster next text false
  | next {word : String} (bare : cluster.attached = none)
      (isNext : next = some word)
      (argument : Word.classify word.toList = .argument) :
      Takes cluster next word.toList true
  | nothing (bare : cluster.attached = none)
      (valueless : cluster.last.takesValue = false) :
      Takes cluster next [] false

theorem ofWord?_limit (attached : Option (List Char)) :
    ofWord? (.long .maxIterations attached) =
      some (.ok ⟨[], .maxIterations, attached⟩) := by
  cases attached with
  | none => rfl
  | some _ => rfl

theorem exists_of_option {option : Word} (notSeparator : option ≠ .separator)
    (notArgument : option ≠ .argument) (notUnknown : option ≠ .unknown) :
    ∃ result, ofWord? option = some result := by
  cases option with
  | separator => exact absurd rfl notSeparator
  | argument => exact absurd rfl notArgument
  | unknown => exact absurd rfl notUnknown
  | long switch attached => exact ⟨_, rfl⟩
  | short switch attached =>
      cases attached with
      | none => exact ⟨_, rfl⟩
      | some text =>
          cases text with
          | nil => exact ⟨_, rfl⟩
          | cons c rest => exact ⟨_, rfl⟩

theorem single_avoids {switch avoided : Switch} (other : switch ≠ avoided)
    (attached : Option (List Char)) :
    Yields (·.Avoids avoided) (fun _ => True) (single switch attached) := by
  unfold single
  split
  · split
    · exact ⟨List.not_mem_nil, other⟩
    · trivial
  · exact ⟨List.not_mem_nil, other⟩

theorem ofWord?_avoids {word : List Char} {option : Word}
    {result : Except Dismissal Cluster} (spells : Word.SpellsLimit word option)
    (lacks : option.LacksLimit) (read : ofWord? option = some result) :
    Yields (·.Avoids .maxIterations) (fun _ => True) result := by
  have notShort {switch : Switch} {attached : Option (List Char)}
      (short : option = .short switch attached) : switch ≠ .maxIterations := by
    rintro rfl
    rw [short] at spells
    exact spells
  rw [ofWord?.eq_def] at read
  split at read
  · next switch attached =>
      cases read
      apply single_avoids
      rintro rfl
      exact lacks attached rfl
  · cases read
    exact ofShort_avoids Word.isLong_maxIterations _ (notShort rfl)
  · cases read
    exact single_avoids (notShort rfl) _
  · cases read

end Cluster

namespace Arguments

/-- The arguments have the limit, if it is one. -/
def HasLimit (limit : Option Int) (arguments : Arguments) : Prop :=
  arguments.maxIterations = limit

variable {arguments arguments' : Arguments} {limit : Option Int}

theorem HasLimit.apply (has : HasLimit limit arguments) {switch : Switch}
    (other : switch ≠ .maxIterations) (value : List Char) :
    Yields (HasLimit limit) (fun _ => True) (arguments.apply switch value) := by
  cases switch with
  | help => trivial
  | maxIterations => exact absurd rfl other
  | _ => exact has

theorem HasLimit.applyAll (has : HasLimit limit arguments)
    {switches : List Switch} (others : .maxIterations ∉ switches) :
    Yields (HasLimit limit) (fun _ => True) (arguments.applyAll switches) := by
  apply Yields.foldlM has
  intro switch member arguments has
  apply HasLimit.apply has
  rintro rfl
  exact others member

theorem reads_of_apply {value : List Char}
    (applied : arguments.apply .maxIterations value = .ok arguments') :
    ∃ limit, readLimit value = .ok limit ∧
      arguments'.maxIterations = some limit := by
  obtain ⟨limit, reads, same⟩ := bind_eq_ok_iff.mp applied
  cases same
  exact ⟨limit, reads, rfl⟩

end Arguments

namespace Reading

variable {reading reading' : Reading} {taken : Bool}

/-- The limit that was read so far. -/
def limit (reading : Reading) : Option Int :=
  reading.arguments.maxIterations

theorem limit_take (reading : Reading) (word : String) :
    (reading.take word).limit = reading.limit := by
  unfold take
  split
  · rfl
  · rfl

theorem limit_takeSeparated (reading : Reading) (afterInput : Bool)
    (words : List String) :
    (reading.takeSeparated afterInput words).limit = reading.limit := by
  have taken (words : List String) (reading : Reading) :
      (words.foldl take reading).limit = reading.limit := by
    induction words generalizing reading with
    | nil => rfl
    | cons word words induction =>
        rw [List.foldl_cons, induction, limit_take]
  rw [takeSeparated, taken]
  split
  · rfl
  · exact limit_take _ _

theorem applyCluster_eq_ok {cluster : Cluster} {next : Option String}
    (applied : reading.applyCluster cluster next = .ok (reading', taken)) :
    ∃ value arguments, cluster.Takes next value taken ∧
      reading.arguments.applyAll cluster.switches = .ok arguments ∧
      arguments.apply cluster.last value = .ok reading'.arguments := by
  have inside (value : List Char) (taken' : Bool)
      (takes : cluster.Takes next value taken')
      (applied : (do
        let arguments ← reading.arguments.applyAll cluster.switches
        let arguments ← arguments.apply cluster.last value
        return ({ reading with arguments := arguments }, taken')) =
          Except.ok (reading', taken)) :
      ∃ value arguments, cluster.Takes next value taken ∧
        reading.arguments.applyAll cluster.switches = .ok arguments ∧
        arguments.apply cluster.last value = .ok reading'.arguments := by
    obtain ⟨arguments, first, applied⟩ := bind_eq_ok_iff.mp applied
    obtain ⟨arguments', last, same⟩ := bind_eq_ok_iff.mp applied
    cases same
    exact ⟨value, arguments, takes, first, last⟩
  unfold applyCluster at applied
  split at applied
  · next text attached => exact inside _ _ (.attached attached) applied
  · next bare =>
      split at applied
      · split at applied
        · next word =>
            split at applied
            · next argument => exact inside _ _ (.next bare rfl argument) applied
            · cases applied
        · cases applied
      · next valueless =>
          exact inside _ _ (.nothing bare (Bool.eq_false_iff.mpr valueless)) applied

/-- A word that asks for a limit asks for the value that its option takes. -/
theorem limitsAsked_of_takes {word : String} {rest : List String}
    {attached : Option (List Char)} {value : List Char}
    (asks : Word.classify word.toList = .long .maxIterations attached)
    (takes : Cluster.Takes ⟨[], .maxIterations, attached⟩ rest.head? value taken) :
    limitsAsked (word :: rest) = value :: limitsAsked rest := by
  have spelled := Word.classify_spellsLimit word.toList
  rw [asks] at spelled
  have spelled : word.toList = attached.elim limitName.toList (limitPrefix ++ ·) :=
    spelled
  cases takes with
  | attached isAttached =>
      obtain rfl : attached = some value := isAttached
      exact limitsAsked_limitPrefix spelled rest
  | next bare isNext =>
      obtain rfl : attached = none := bare
      rw [String.toList_inj.mp spelled, limitsAsked_limitName, isNext]
      rfl
  | nothing _ valueless => cases valueless

theorem limitBehind_option {word : String} {rest : List String}
    {cluster : Cluster}
    (option : Cluster.ofWord? (Word.classify word.toList) = some (.ok cluster))
    (applied : reading.applyCluster cluster rest.head? = .ok (reading', taken)) :
    limitBehind reading.limit (limitsAsked (word :: rest)) =
      limitBehind reading'.limit
        (limitsAsked (if taken then rest.tail else rest)) := by
  obtain ⟨value, arguments, takes, first, last⟩ := applyCluster_eq_ok applied
  -- a word that is taken as a value asks for nothing
  have behind : limitsAsked (if taken then rest.tail else rest) =
      limitsAsked rest := by
    cases takes with
    | attached => rfl
    | nothing => rfl
    | @next word _ isNext argument =>
        obtain ⟨words, rfl⟩ := List.head?_eq_some_iff.mp isNext
        exact (limitsAsked_argument argument words).symm
  rw [behind]
  by_cases lacks : (Word.classify word.toList).LacksLimit
  · have notSeparator : Word.classify word.toList ≠ .separator := by
      intro separator
      rw [separator] at option
      cases option
    have avoids : cluster.Avoids .maxIterations :=
      Cluster.ofWord?_avoids (Word.classify_spellsLimit _) lacks option
    have start : Arguments.HasLimit reading.limit reading.arguments := rfl
    have before := start.applyAll avoids.switches
    rw [first] at before
    have after := Arguments.HasLimit.apply before avoids.last value
    rw [last] at after
    have same : reading'.limit = reading.limit := after
    rw [limitsAsked_other notSeparator lacks, same]
  · obtain ⟨attached, asks⟩ := not_forall_not.mp lacks
    rw [asks, Cluster.ofWord?_limit] at option
    cases option
    cases first
    obtain ⟨rounds, reads, has⟩ := Arguments.reads_of_apply last
    have limit : reading'.limit = some rounds := has
    rw [limitsAsked_of_takes asks takes, limitBehind_cons reads, limit]

theorem readWords_limit (reading : Reading) (afterInput : Bool)
    (words : List String) :
    Yields (fun result =>
        limitBehind reading.limit (limitsAsked words) = .ok result.limit)
      (fun _ => True) (reading.readWords afterInput words) := by
  -- the words in front are told by the limit that was read from them
  fun_induction Reading.readWords reading afterInput words with
  | case1 => rfl
  | case2 reading afterInput word rest separator =>
      have dashes : word = "--" :=
        String.toList_inj.mp (Word.eq_of_classify_separator separator)
      rw [limitsAsked, if_pos dashes]
      exact congrArg Except.ok (limit_takeSeparated reading afterInput rest).symm
  | case3 reading afterInput word rest argument induction =>
      rw [limitsAsked_argument argument, ← limit_take reading word]
      exact induction
  | case4 reading afterInput word rest unknown induction =>
      rw [limitsAsked_other]
      · exact induction
      · rw [unknown]
        exact Word.noConfusion
      · rw [unknown]
        exact fun _ => Word.noConfusion
  | case5 reading afterInput word rest notSeparator notArgument notUnknown none =>
      obtain ⟨result, option⟩ :=
        Cluster.exists_of_option notSeparator notArgument notUnknown
      cases none.symm.trans option
  | case6 => trivial
  | case7 => trivial
  | case8 reading afterInput word rest cluster reading' applied _ _ _ option
      induction =>
      rw [limitBehind_option option applied]
      exact induction
  | case9 reading afterInput word rest cluster reading' applied _ _ _ option
      induction =>
      rw [limitBehind_option option applied]
      exact induction

end Reading

/-- Arguments that are accepted have the limit that their words ask for. -/
theorem Arguments.parse_limit (words : List String) :
    Yields (fun arguments =>
        limitBehind none (limitsAsked words) = .ok arguments.maxIterations)
      (fun _ => True) (parse words) := by
  apply Yields.bind (Reading.readWords_limit {} false words)
  intro reading read
  split
  · exact read
  · trivial

end TokenMacros
