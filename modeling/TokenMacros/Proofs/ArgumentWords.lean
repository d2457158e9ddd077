import TokenMacros.CommandLine.Arguments
import TokenMacros.Proofs.PartialResults

/-!
# Words behind arguments

What arguments ask for stems from the words they were read from.  Failures are
explained unless there is a word that asks for the opposite by its full name.
-/

namespace TokenMacros

/-- The word that asks for failures as they are. -/
def rawFailuresWord : String := "--debug-unwrap-errors"

namespace Switch

theorem exists_name_of_ofName? {name : List Char} {switch : Switch}
    (named : ofName? name = some switch) :
    ∃ written ∈ switch.names, written.toList = name := by
  have isName : switch.names.any (·.toList == name) = true := by
    have found := List.find?_some named
    exact found
  obtain ⟨written, member, same⟩ := List.any_eq_true.mp isName
  exact ⟨written, member, eq_of_beq same⟩

theorem ofName?_rawFailures {name : List Char}
    (named : ofName? name = some .rawFailures) :
    name = rawFailuresWord.toList := by
  obtain ⟨written, member, rfl⟩ := exists_name_of_ofName? named
  rw [List.mem_singleton.mp member, rawFailuresWord]

/-- An option that has no name of one dash and one character. -/
def IsLong (switch : Switch) : Prop :=
  ∀ written ∈ switch.names, 2 < written.toList.length

theorem isLong_rawFailures : IsLong .rawFailures := by
  intro written member
  rw [List.mem_singleton.mp member]
  decide

theorem IsLong.ne_of_short {long switch : Switch} (isLong : long.IsLong)
    {name : List Char} (short : name.length ≤ 2)
    (named : ofName? name = some switch) : switch ≠ long := by
  rintro rfl
  obtain ⟨written, member, rfl⟩ := exists_name_of_ofName? named
  exact Nat.not_lt.mpr short (isLong written member)

end Switch

/-! ## Options in words -/

/-- The options of the word, if it has any, ask for explanations: failures as
they are cannot be asked for with a value. -/
def Word.Explains : Word → Prop
  | .long switch attached => switch = .rawFailures → attached.isSome = true
  | .short switch _ => switch ≠ .rawFailures
  | _ => True

/-- None of the options asks for failures as they are. -/
structure Cluster.Explains (cluster : Cluster) : Prop where
  switches : .rawFailures ∉ cluster.switches
  last : cluster.last ≠ .rawFailures

namespace Word

theorem ofName_explains {name : List Char} {attached : Option (List Char)}
    {option : Word}
    (other : name = rawFailuresWord.toList → attached.isSome = true)
    (read : ofName name attached = some option) : option.Explains := by
  obtain ⟨switch, named, rfl⟩ := Option.map_eq_some_iff.mp read
  split
  · rintro rfl
    exact other (Switch.ofName?_rawFailures named)
  · next oneDash =>
      rintro rfl
      rw [Switch.ofName?_rawFailures named] at oneDash
      exact oneDash (by decide)

theorem ofAssignment_explains {word : List Char} {option : Word}
    (read : ofAssignment word = some option) : option.Explains := by
  rw [ofAssignment] at read
  split at read
  · cases read
  · exact ofName_explains (fun _ => rfl) read

theorem ofCluster_explains {word : List Char} {option : Word}
    (read : ofCluster word = some option) : option.Explains := by
  rw [ofCluster] at read
  split at read
  · cases read
  · obtain ⟨switch, named, rfl⟩ := Option.map_eq_some_iff.mp read
    apply Switch.isLong_rawFailures.ne_of_short _ named
    exact List.length_take_le 2 word

theorem classify_cases {word : List Char} {motive : Word → Prop}
    (separator : word = ['-', '-'] → motive .separator)
    (argument : motive .argument)
    (unknown : motive .unknown)
    (named : ∀ option, ofName word none = some option → motive option)
    (assigned : ∀ option, ofAssignment word = some option → motive option)
    (clustered : ∀ option, ofCluster word = some option → motive option) :
    motive (classify word) := by
  unfold classify
  split
  · next dashes => exact separator (eq_of_beq dashes)
  · split
    · exact argument
    · split
      · next option read =>
          cases byName : ofName word none with
          | some _ =>
              rw [byName] at read
              cases read
              exact named option byName
          | none =>
              rw [byName] at read
              cases byAssignment : ofAssignment word with
              | some _ =>
                  rw [byAssignment] at read
                  cases read
                  exact assigned option byAssignment
              | none =>
                  rw [byAssignment] at read
                  exact clustered option read
      · split
        · exact argument
        · exact unknown

theorem classify_explains {word : List Char}
    (other : word ≠ rawFailuresWord.toList) : (classify word).Explains := by
  apply classify_cases (fun _ => trivial) trivial trivial
  · exact fun _ => ofName_explains fun same => absurd same other
  · exact fun _ => ofAssignment_explains
  · exact fun _ => ofCluster_explains

end Word

namespace Cluster

/-- The option is not among those of the cluster. -/
structure Avoids (cluster : Cluster) (switch : Switch) : Prop where
  switches : switch ∉ cluster.switches
  last : cluster.last ≠ switch

theorem ofShort_avoids {long switch : Switch} (isLong : long.IsLong)
    (text : List Char) (other : switch ≠ long) :
    Yields (·.Avoids long) (fun _ => True) (ofShort switch text) := by
  induction text generalizing switch with
  | nil => exact ⟨List.not_mem_nil, other⟩
  | cons c rest induction =>
      rw [ofShort]
      split
      · exact ⟨List.not_mem_nil, other⟩
      · split
        · next next named =>
            have further : next ≠ long := by
              apply isLong.ne_of_short _ named
              exact Nat.le_refl 2
            apply Yields.bind (induction further)
            intro cluster avoids
            refine ⟨?_, avoids.last⟩
            exact List.not_mem_cons_of_ne_of_not_mem other.symm avoids.switches
        · trivial

theorem ofShort_explains {switch : Switch} (text : List Char)
    (other : switch ≠ .rawFailures) :
    Yields Explains (fun _ => True) (ofShort switch text) := by
  apply (ofShort_avoids Switch.isLong_rawFailures text other).mono
  · exact fun _ avoids => ⟨avoids.switches, avoids.last⟩
  · exact fun _ => id

theorem single_explains {switch : Switch} {attached : Option (List Char)}
    (other : switch = .rawFailures → attached.isSome = true) :
    Yields Explains (fun _ => True) (single switch attached) := by
  unfold single
  split
  · split
    · next takes =>
        refine ⟨List.not_mem_nil, ?_⟩
        rintro rfl
        cases takes
    · trivial
  · refine ⟨List.not_mem_nil, ?_⟩
    intro raw
    cases other raw

theorem ofWord?_explains {word : Word} {result : Except Dismissal Cluster}
    (explains : word.Explains) (read : ofWord? word = some result) :
    Yields Explains (fun _ => True) result := by
  rw [ofWord?.eq_def] at read
  split at read
  · cases read
    exact single_explains explains
  · cases read
    exact ofShort_explains _ explains
  · cases read
    exact single_explains fun raw => absurd raw explains
  · cases read

end Cluster

/-! ## Effects of options -/

/-- Failures are explained. -/
def Arguments.Explains (arguments : Arguments) : Prop :=
  arguments.explainsFailures = true

namespace Arguments

variable {arguments : Arguments}

theorem Explains.apply (explains : arguments.Explains) {switch : Switch}
    (other : switch ≠ .rawFailures) (value : List Char) :
    Yields Explains (fun _ => True) (arguments.apply switch value) := by
  cases switch with
  | help => trivial
  | rawFailures => exact absurd rfl other
  | maxIterations =>
      apply Yields.bind (Yields.any _)
      exact fun _ _ => explains
  | _ => exact explains

theorem Explains.applyAll (explains : arguments.Explains)
    {switches : List Switch} (others : .rawFailures ∉ switches) :
    Yields Explains (fun _ => True) (arguments.applyAll switches) := by
  apply Yields.foldlM explains
  intro switch member arguments explains
  apply Explains.apply explains
  rintro rfl
  exact others member

end Arguments

namespace Reading

/-- What was read so far leaves failures explained. -/
def Explains (reading : Reading) : Prop :=
  reading.arguments.Explains

variable {reading : Reading}

theorem Explains.take (explains : reading.Explains) (word : String) :
    (reading.take word).Explains := by
  unfold Reading.take
  split
  · exact explains
  · exact explains

theorem Explains.takeSeparated (explains : reading.Explains)
    (afterInput : Bool) (words : List String) :
    (reading.takeSeparated afterInput words).Explains := by
  have taken (words : List String) (reading : Reading)
      (explains : reading.Explains) :
      (words.foldl Reading.take reading).Explains := by
    induction words generalizing reading with
    | nil => exact explains
    | cons word words induction => exact induction _ (explains.take word)
  apply taken
  split
  · exact explains
  · exact explains.take "--"

theorem Explains.applyCluster (explains : reading.Explains) {cluster : Cluster}
    (others : cluster.Explains) (next : Option String) :
    Yields (fun answer => answer.1.Explains) (fun _ => True)
      (reading.applyCluster cluster next) := by
  have applied (value : List Char) (taken : Bool) :
      Yields (fun answer => answer.1.Explains) (fun _ => True) (do
        let arguments ← reading.arguments.applyAll cluster.switches
        let arguments ← arguments.apply cluster.last value
        return ({ reading with arguments := arguments }, taken)) := by
    apply Yields.bind (Arguments.Explains.applyAll explains others.switches)
    intro arguments explains
    apply Yields.bind (explains.apply others.last value)
    exact fun _ explains => explains
  unfold Reading.applyCluster
  split
  · exact applied _ false
  · split
    · split
      · split
        · exact applied _ true
        · trivial
      · trivial
    · exact applied [] false

theorem Explains.behindOption (explains : reading.Explains) {word : String}
    (other : word ≠ rawFailuresWord) {cluster : Cluster}
    (option : Cluster.ofWord? (Word.classify word.toList) = some (.ok cluster))
    {next : Option String} {reading' : Reading} {taken : Bool}
    (applied : reading.applyCluster cluster next = .ok (reading', taken)) :
    reading'.Explains := by
  have plain : (Word.classify word.toList).Explains :=
    Word.classify_explains fun same => other (String.toList_inj.mp same)
  have others : cluster.Explains := Cluster.ofWord?_explains plain option
  have yields := explains.applyCluster others next
  rw [applied] at yields
  exact yields

theorem Explains.readWords (explains : reading.Explains) (afterInput : Bool)
    {words : List String} (absent : rawFailuresWord ∉ words) :
    Yields Explains (fun _ => True) (reading.readWords afterInput words) := by
  fun_induction Reading.readWords reading afterInput words with
  | case1 => exact explains
  | case2 reading afterInput word rest => exact explains.takeSeparated _ rest
  | case3 reading afterInput word rest argument induction =>
      exact induction (explains.take word) (List.not_mem_of_not_mem_cons absent)
  | case4 reading afterInput word rest unknown induction =>
      exact induction explains (List.not_mem_of_not_mem_cons absent)
  | case5 => exact explains
  | case6 => trivial
  | case7 => trivial
  | case8 reading afterInput word rest cluster reading' applied _ _ _ option
      induction =>
      rw [List.mem_cons, not_or] at absent
      exact induction
        (explains.behindOption (Ne.symm absent.1) option applied) absent.2
  | case9 reading afterInput word rest cluster reading' applied _ _ _ option
      induction =>
      rw [List.mem_cons, not_or] at absent
      apply induction
        (explains.behindOption (Ne.symm absent.1) option applied)
      exact fun member => absent.2 (List.mem_of_mem_tail member)

end Reading

end TokenMacros
