import Mathlib.Data.List.Forall2
import TokenMacros.Proofs.DefinitionLines
import TokenMacros.Proofs.SessionStops
import TokenMacros.Proofs.SharedRegistries

/-!
# Loaded directories

Which rules a directory of definition files adds to a registry.  The files are
visited in the order of their paths and their lines from top to bottom; every
line that defines a rule adds it, and no other line has an effect.  A file that
holds no text ends the visit: the rules of the files in front of it stay, and it
adds none itself.
-/

namespace TokenMacros

open Text (splitOn trim)

/-! ## Lines -/

/-- The line, without the blanks at its ends, spells a definition whose pattern
opens with a token; the rule is the one of its texts, and knows its place. -/
def DefinesRule (file : String) (number : Nat) (line : List Char) (rule : Rule) :
    Prop :=
  ∃ pattern replacement, SpellsDefinition (trim line) pattern replacement ∧
    Rule.define
      { pattern := String.ofList (trim pattern)
        replacement := String.ofList (trim replacement)
        file := some file
        line := some (number : Int) } = .ok rule

/-- The rules that the lines define, in order, where the first line has the given
number. -/
inductive LinesDefine (file : String) :
    (number : Nat) → (lines : List (List Char)) → List Rule → Prop where
  | nil {number : Nat} : LinesDefine file number [] []
  | defined {number : Nat} {line : List Char} {lines : List (List Char)}
      {rule : Rule} {rules : List Rule}
      (defines : DefinesRule file number line rule)
      (rest : LinesDefine file (number + 1) lines rules) :
      LinesDefine file number (line :: lines) (rule :: rules)
  | passed {number : Nat} {line : List Char} {lines : List (List Char)}
      {rules : List Rule}
      (malformed : ∀ rule, ¬ DefinesRule file number line rule)
      (rest : LinesDefine file (number + 1) lines rules) :
      LinesDefine file number (line :: lines) rules

/-- The rules that a text defines line by line. -/
def TextDefines (file text : String) (rules : List Rule) : Prop :=
  ∃ lines, text.toList = ['\n'].intercalate lines ∧
    (∀ line ∈ lines, '\n' ∉ line) ∧ LinesDefine file 1 lines rules

theorem parseLine?_eq_some_iff_definesRule {file : String} {number : Nat}
    {line : List Char} {rule : Rule} :
    Definition.parseLine? (String.ofList line) (some file) (some (number : Int)) =
      some rule ↔ DefinesRule file number line rule := by
  rw [parseLine?_eq_some_iff, String.toList_ofList]
  rfl

theorem linesDefine_filterMap {file : String}
    {read : List Char × Nat → Option Rule}
    (reads : ∀ line index rule, read (line, index) = some rule ↔
      DefinesRule file (index + 1) line rule)
    (lines : List (List Char)) (index : Nat) :
    LinesDefine file (index + 1) lines
      ((lines.zipIdx index).filterMap read) := by
  induction lines generalizing index with
  | nil => exact .nil
  | cons line lines induction =>
      rw [List.zipIdx_cons]
      cases given : read (line, index) with
      | none =>
          rw [List.filterMap_cons_none given]
          refine .passed ?_ (induction (index + 1))
          intro rule defines
          rw [(reads line index rule).mpr defines] at given
          cases given
      | some rule =>
          rw [List.filterMap_cons_some given]
          exact .defined ((reads line index rule).mp given)
            (induction (index + 1))

theorem textDefines_parseText (file text : String) :
    TextDefines file text (Definition.parseText text (some file)) := by
  obtain ⟨joined, plain⟩ := Text.splitOn_pieces '\n' text.toList
  refine ⟨_, joined, plain, linesDefine_filterMap ?_ _ 0⟩
  exact fun _ _ _ => parseLine?_eq_some_iff_definesRule

theorem DefinesRule.elements_ne_nil {file : String} {number : Nat}
    {line : List Char} {rule : Rule} (defines : DefinesRule file number line rule) :
    rule.elements ≠ [] := by
  obtain ⟨_, _, _, defined⟩ := defines
  obtain ⟨opens, rfl⟩ := Rule.define_eq_ok_iff.mp defined
  exact opens.1

theorem LinesDefine.elements_ne_nil {file : String} {number : Nat}
    {lines : List (List Char)} {rules : List Rule}
    (defines : LinesDefine file number lines rules) :
    ∀ rule ∈ rules, rule.elements ≠ [] := by
  induction defines with
  | nil => exact List.forall_mem_nil _
  | defined defines _ induction =>
      exact List.forall_mem_cons.mpr ⟨defines.elements_ne_nil, induction⟩
  | passed _ _ induction => exact induction

/-! ## Added rules -/

namespace RuleBook

/-- The rules were added in order behind what the registry held, and are new to
the pool; whatever the pool held is as it was. -/
structure Adds (before : RuleBook) (rules : List Rule) (after : RuleBook) :
    Prop where
  entries : ∃ ids, after.registry.entries = before.registry.entries ++ ids ∧
    ids.map after.pool.find? = rules.map some ∧
    ∀ id ∈ ids, before.pool.find? id = none
  kept : ∀ id held, before.pool.find? id = some held →
    after.pool.find? id = some held

namespace Adds

variable {first between last : RuleBook} {rules further : List Rule}

theorem refl (book : RuleBook) : book.Adds [] book :=
  ⟨⟨[], by simp⟩, fun _ _ => id⟩

theorem trans (adds : first.Adds rules between)
    (adds' : between.Adds further last) : first.Adds (rules ++ further) last := by
  obtain ⟨ids, entries, found, fresh⟩ := adds.entries
  obtain ⟨ids', entries', found', fresh'⟩ := adds'.entries
  have still : ids.map last.pool.find? = ids.map between.pool.find? := by
    rw [List.map_inj_left]
    intro id member
    have held : between.pool.find? id ∈ rules.map some := by
      rw [← found]
      exact List.mem_map_of_mem member
    obtain ⟨rule, _, held⟩ := List.mem_map.mp held
    rw [← held]
    exact adds'.kept id rule held.symm
  refine ⟨⟨ids ++ ids', ?_, ?_, ?_⟩, ?_⟩
  · rw [entries', entries, List.append_assoc]
  · rw [List.map_append, List.map_append, still, found, found']
  · intro id member
    rcases List.mem_append.mp member with member | member
    · exact fresh id member
    · by_contra held
      obtain ⟨rule, held⟩ := Option.ne_none_iff_exists'.mp held
      have absent := fresh' id member
      rw [adds.kept id rule held] at absent
      cases absent
  · exact fun id held found => adds'.kept id held (adds.kept id held found)

theorem count (adds : first.Adds rules last) :
    last.count = first.count + rules.length := by
  obtain ⟨ids, entries, found, _⟩ := adds.entries
  have length := congrArg List.length found
  rw [List.length_map, List.length_map] at length
  rw [RuleBook.count, RuleBook.count, Registry.count, Registry.count, entries,
    List.length_append, length]

end Adds

theorem addAll_cons (book : RuleBook) {rule : Rule} (rules : List Rule)
    (pattern : rule.elements ≠ []) :
    ∃ between, book.addAll (rule :: rules) = between.addAll rules ∧
      book.Adds [rule] between := by
  have found : (book.pool.insert rule).2.find? (book.pool.insert rule).1 =
      some rule := by
    simp [RulePool.insert, RulePool.find?]
  have fresh : book.pool.find? (book.pool.insert rule).1 = none := by
    simp [RulePool.insert, RulePool.find?]
  have added : book.registry.add (book.pool.insert rule).2
      (book.pool.insert rule).1 =
        .ok ⟨book.registry.entries ++ [(book.pool.insert rule).1], none⟩ := by
    rw [Registry.add, found]
    exact if_neg (by simpa using pattern)
  refine ⟨⟨(book.pool.insert rule).2,
    ⟨book.registry.entries ++ [(book.pool.insert rule).1], none⟩⟩, ?_,
    ⟨⟨[(book.pool.insert rule).1], rfl, ?_, ?_⟩, ?_⟩⟩
  · simp only [addAll, RulePool.insert] at added ⊢
    rw [added]
  · rw [List.map_singleton, List.map_singleton, found]
  · exact List.forall_mem_singleton.mpr fresh
  · exact fun id held given => RulePool.find?_insert_of_find? given rule

theorem addAll_adds {rules : List Rule} (book : RuleBook)
    (patterns : ∀ rule ∈ rules, rule.elements ≠ []) :
    ∃ after, book.addAll rules = (none, after) ∧ book.Adds rules after := by
  induction rules generalizing book with
  | nil => exact ⟨book, rfl, .refl book⟩
  | cons rule rules induction =>
      rw [List.forall_mem_cons] at patterns
      obtain ⟨between, same, adds⟩ := book.addAll_cons rules patterns.1
      obtain ⟨after, added, adds'⟩ := induction between patterns.2
      exact ⟨after, same.trans added, adds.trans adds'⟩

theorem loadText_adds (book : RuleBook) (file text : String) :
    ∃ rules after, book.loadText text (some file) = (.ok rules.length, after) ∧
      TextDefines file text rules ∧ book.Adds rules after := by
  have defines := textDefines_parseText file text
  have patterns : ∀ rule ∈ Definition.parseText text (some file),
      rule.elements ≠ [] := by
    obtain ⟨_, _, _, defines⟩ := defines
    exact defines.elements_ne_nil
  obtain ⟨after, added, adds⟩ := book.addAll_adds patterns
  exact ⟨_, after, by rw [loadText, added], defines, adds⟩

/-! ## Files -/

/-- The path leads to a file with these rules. -/
def FileDefines (tree : FileTree) (path : Path) (rules : List Rule) : Prop :=
  ∃ bytes text, tree.read path = .ok bytes ∧ Text.decode? bytes = some text ∧
    TextDefines path.toString text rules

theorem not_holdsNoText_of_forall₂ {tree : FileTree} {paths : List Path}
    {lists : List (List Rule)}
    (define : List.Forall₂ (FileDefines tree)
      (paths.filter fun path => tree.kind? path = .ok (some .file)) lists) :
    ∀ path ∈ paths, ¬ tree.HoldsNoText path := by
  have texts (path : Path) (rules : List Rule)
      (defines : FileDefines tree path rules) :
      ¬ tree.HoldsNoText path ∧ FileDefines tree path rules := by
    refine ⟨?_, defines⟩
    obtain ⟨bytes, text, held, decoded, _⟩ := defines
    rintro ⟨bytes', held', absent⟩
    cases held.symm.trans held'
    rw [decoded] at absent
    cases absent
  have files := ((List.forall₂_and_left _ _).mp (define.imp texts)).1
  rintro path member ⟨bytes, held, absent⟩
  have isFile := FileTree.kind?_eq_file_iff.mpr ⟨bytes, held⟩
  exact files path (List.mem_filter.mpr ⟨member, by simpa using isFile⟩)
    ⟨bytes, held, absent⟩

/-- What ends a visit at a path. -/
inductive StopsAt (tree : FileTree) (path : Path) : Stop → Prop where
  /-- The path leads to a file that holds no text. -/
  | noText (noText : tree.HoldsNoText path) :
      StopsAt tree path (.undecodable path)
  /-- The system does not tell what the path leads to. -/
  | refused {failure : SystemFailure} (refused : tree.kind? path = .error failure) :
      StopsAt tree path (FileSystem.stopOf failure)

/-- The answer to a visit that added `count` rules and left the given paths. -/
inductive Concludes (tree : FileTree) (count : Nat) :
    List Path → Except Stop Nat → Prop where
  | all : Concludes tree count [] (.ok count)
  | stopped {path : Path} {further : List Path} {stop : Stop}
      (stops : StopsAt tree path stop) :
      Concludes tree count (path :: further) (.error stop)

theorem Concludes.add {tree : FileTree} {count : Nat} {left : List Path}
    {answer : Except Stop Nat} (concludes : Concludes tree count left answer)
    (loaded : Nat) :
    Concludes tree (loaded + count) left (answer.map (loaded + ·)) := by
  cases concludes with
  | all => exact .all
  | stopped stops => exact .stopped stops

variable {bench : Workbench} {path : Path}

theorem run_isFile (path : Path) (bench : Workbench) :
    Id.run (StateT.run (FileSystem.isFile path).run bench) =
      (((bench.tree.kind? path).mapError FileSystem.stopOf).map
        (· == some .file), bench) := by
  have looked : Id.run (StateT.run
      (FileSystem.attempt (FileSystem.kind? path) :
        Run (StateM Workbench) _).run bench) =
      ((bench.tree.kind? path).mapError FileSystem.stopOf, bench) :=
    rfl
  rw [FileSystem.isFile, ExceptT.run_bind, StateT.run_bind, Id.run_bind, looked]
  cases bench.tree.kind? path with
  | ok kind? => rfl
  | error failure => rfl

theorem run_loadFile (book : RuleBook) {bytes : ByteArray}
    (held : bench.tree.read path = .ok bytes) :
    Id.run (StateT.run (book.loadFile path) bench) =
      ((Text.decode? bytes).elim (.error (.undecodable path), book) fun text =>
        book.loadText text (some path.toString), bench) := by
  have isThere : Returns (FileSystem.isFile path) bench true bench :=
    Returns.isFile_iff.mpr
      ⟨_, FileTree.kind?_eq_file_iff.mpr ⟨bytes, held⟩, rfl, rfl⟩
  have told : Id.run (StateT.run (definitionText path : Run (StateM Workbench) _).run
      bench) =
      ((Text.decode? bytes).elim (.error (.undecodable path)) .ok, bench) := by
    rw [definitionText, Returns.run_bind isThere]
    exact Returns.run_readText held
  rw [loadFile, StateT.run_bind, Id.run_bind, told]
  cases Text.decode? bytes with
  | some text => rfl
  | none => rfl

section

variable {book between after : RuleBook} {paths : List Path}
  (isFile : bench.tree.kind? path = .ok (some .file))

include isFile

theorem run_loadFiles_stopped {stop : Stop}
    (loads : Id.run (StateT.run (book.loadFile path) bench) =
      ((.error stop, between), bench)) :
    Id.run (StateT.run (book.loadFiles (path :: paths)) bench) =
      ((.error stop, between), bench) := by
  rw [loadFiles, StateT.run_bind, Id.run_bind, run_isFile, isFile]
  change Id.run (StateT.run (book.loadFile path >>= _) bench) = _
  rw [StateT.run_bind, Id.run_bind, loads]
  rfl

theorem run_loadFiles_loaded {loaded : Nat} {answer : Except Stop Nat}
    (loads : Id.run (StateT.run (book.loadFile path) bench) =
      ((.ok loaded, between), bench))
    (further : Id.run (StateT.run (between.loadFiles paths) bench) =
      ((answer, after), bench)) :
    Id.run (StateT.run (book.loadFiles (path :: paths)) bench) =
      ((answer.map (loaded + ·), after), bench) := by
  rw [loadFiles, StateT.run_bind, Id.run_bind, run_isFile, isFile]
  change Id.run (StateT.run (book.loadFile path >>= _) bench) = _
  rw [StateT.run_bind, Id.run_bind, loads]
  change Id.run (StateT.run (between.loadFiles paths >>= _) bench) = _
  rw [StateT.run_bind, Id.run_bind, further]
  rfl

end

theorem run_loadFiles_passed {book : RuleBook} {paths : List Path}
    {kind? : Option EntryKind} (told : bench.tree.kind? path = .ok kind?)
    (other : kind? ≠ some .file) :
    Id.run (StateT.run (book.loadFiles (path :: paths)) bench) =
      Id.run (StateT.run (book.loadFiles paths) bench) := by
  have isOther : (kind? == some .file) = false := beq_eq_false_iff_ne.mpr other
  rw [loadFiles, StateT.run_bind, Id.run_bind, run_isFile, told, Except.mapError,
    Except.map, isOther]

/-- Paths are visited in order.  Those that lead to files add their rules, up to
the end or to the path that stops the visit. -/
theorem run_loadFiles (book : RuleBook) (paths : List Path) (bench : Workbench) :
    ∃ visited left lists after answer, paths = visited ++ left ∧
      Id.run (StateT.run (book.loadFiles paths) bench) =
        ((answer, after), bench) ∧
      List.Forall₂ (FileDefines bench.tree)
        (visited.filter fun path => bench.tree.kind? path = .ok (some .file))
        lists ∧
      book.Adds lists.flatten after ∧
      Concludes bench.tree lists.flatten.length left answer := by
  induction paths generalizing book with
  | nil => exact ⟨[], [], [], book, _, rfl, rfl, .nil, .refl book, .all⟩
  | cons path paths induction =>
      cases told : bench.tree.kind? path with
      | error failure =>
          refine ⟨[], path :: paths, [], book, _, rfl, ?_, .nil, .refl book,
            .stopped (.refused told)⟩
          rw [loadFiles, StateT.run_bind, Id.run_bind, run_isFile, told]
          rfl
      | ok kind? =>
          by_cases isFile : kind? = some .file
          · rw [isFile] at told
            obtain ⟨bytes, held⟩ := FileTree.kind?_eq_file_iff.mp told
            have loads := book.run_loadFile held
            cases decoded : Text.decode? bytes with
            | none =>
                rw [decoded] at loads
                exact ⟨[], path :: paths, [], book, _, rfl,
                  run_loadFiles_stopped told loads, .nil, .refl book,
                  .stopped (.noText ⟨bytes, held, decoded⟩)⟩
            | some text =>
                obtain ⟨rules, between, loaded, defines, adds⟩ :=
                  book.loadText_adds path.toString text
                rw [decoded, Option.elim_some, loaded] at loads
                obtain ⟨visited, left, lists, after, answer, rfl, ran, define,
                  adds', concludes⟩ := induction between
                refine ⟨path :: visited, left, rules :: lists, after, _, rfl,
                  run_loadFiles_loaded told loads ran, ?_, ?_, ?_⟩
                · rw [List.filter_cons_of_pos (by simpa using told)]
                  exact .cons ⟨bytes, text, held, decoded, defines⟩ define
                · rw [List.flatten_cons]
                  exact adds.trans adds'
                · rw [List.flatten_cons, List.length_append]
                  exact concludes.add rules.length
          · obtain ⟨visited, left, lists, after, answer, rfl, ran, define, adds,
              concludes⟩ := induction book
            refine ⟨path :: visited, left, lists, after, answer, rfl,
              (run_loadFiles_passed told isFile).trans ran, ?_, adds, concludes⟩
            rw [List.filter_cons_of_neg (by simpa [told] using isFile)]
            exact define

/-! ## Directories -/

/-- The paths, in order, of what is named like a definition file in a directory.
No definition file is left out. -/
structure DefinitionPaths (tree : FileTree) (directory : Path)
    (paths : List Path) : Prop where
  named : ∃ names, tree.names directory = .ok names ∧
    paths.Perm ((names.filter isDefinitionName).map fun name =>
      directory.join ⟨"", [name]⟩)
  complete : ∀ name, isDefinitionName name = true →
    tree.kind? (directory.join ⟨"", [name]⟩) = .ok (some .file) →
      directory.join ⟨"", [name]⟩ ∈ paths
  sorted : paths.Pairwise fun left right => left.le right = true

theorem mem_names_of_isFile {tree : FileTree} {directory : Path} {name : String}
    {names : List String} (listed : tree.names directory = .ok names)
    (isDefinition : isDefinitionName name = true)
    (isFile : tree.kind? (directory.join ⟨"", [name]⟩) = .ok (some .file)) :
    name ∈ names := by
  obtain ⟨target, entry, leads', found, _⟩ := FileTree.kind?_eq_some_iff.mp isFile
  cases leads : tree.locate directory with
  | error failure =>
      rw [FileTree.names, leads] at listed
      cases listed
  | ok place =>
      have plain : ".." ∉ [name] := by
        rw [List.mem_singleton]
        rintro rfl
        exact absurd isDefinition (by decide)
      obtain rfl := FileTree.eq_append_of_locate_join leads plain leads'
      rw [FileTree.names, leads] at listed
      obtain rfl := Except.ok.inj listed
      apply List.mem_filterMap.mpr
      refine ⟨[name], FileTree.mem_below_iff.mpr ⟨List.cons_ne_nil _ _, ?_⟩, rfl⟩
      rw [found]
      rfl

theorem exists_definitionPaths {directory : Path}
    (isThere : bench.tree.kind? directory = .ok (some .directory)) :
    ∃ paths, DefinitionPaths bench.tree directory paths ∧
      Returns (definitionFiles directory) bench paths bench := by
  obtain ⟨place, _, leads, _⟩ := FileTree.kind?_eq_some_iff.mp isThere
  obtain ⟨names, listed⟩ : ∃ names, bench.tree.names directory = .ok names := by
    rw [FileTree.names, leads]
    exact ⟨_, rfl⟩
  refine ⟨_, ⟨⟨names, listed, List.mergeSort_perm _ _⟩, ?_,
    FileSystem.pairwise_sorted _⟩, ?_⟩
  · intro name isDefinition isFile
    have member := mem_names_of_isFile listed isDefinition isFile
    apply FileSystem.mem_sorted.mpr
    exact List.mem_map_of_mem (List.mem_filter.mpr ⟨member, isDefinition⟩)
  · have asked : Returns (FileSystem.isDirectory directory) bench true bench :=
      Returns.isDirectory_iff.mpr ⟨_, isThere, rfl, rfl⟩
    have told : Returns (FileSystem.attempt (FileSystem.names directory)) bench
        names bench :=
      (Returns.attempt_look_iff rfl).mpr ⟨listed, rfl⟩
    apply (Returns.then_iff asked).mpr
    apply (Returns.then_iff told).mpr
    exact Returns.pure_iff.mpr ⟨rfl, rfl⟩

/-- The definition files of a directory are loaded in order, up to the end or to
the first that holds no text or cannot be looked at.  The rules that its lines
define are added for every file in front of it, and for no other; the registry
grows by their number, and this is the answer if no file is left. -/
theorem loadDirectory_adds (book : RuleBook) {directory : Path}
    (isThere : bench.tree.kind? directory = .ok (some .directory)) :
    ∃ visited left lists after answer,
      DefinitionPaths bench.tree directory (visited ++ left) ∧
      Id.run (StateT.run (book.loadDirectory directory) bench) =
        ((answer, after), bench) ∧
      List.Forall₂ (FileDefines bench.tree)
        (visited.filter fun path => bench.tree.kind? path = .ok (some .file))
        lists ∧
      (∀ path ∈ visited, ¬ bench.tree.HoldsNoText path) ∧
      book.Adds lists.flatten after ∧
      after.count = book.count + lists.flatten.length ∧
      Concludes bench.tree lists.flatten.length left answer := by
  obtain ⟨paths, definitions, returned⟩ := exists_definitionPaths isThere
  obtain ⟨visited, left, lists, after, answer, rfl, ran, define, adds,
    concludes⟩ := book.run_loadFiles paths bench
  refine ⟨visited, left, lists, after, answer, definitions, ?_, define,
    not_holdsNoText_of_forall₂ define, adds, adds.count, concludes⟩
  rw [loadDirectory, StateT.run_bind, Id.run_bind, returned]
  exact ran

/-- The path of an entry of the directory `rules`. -/
def inRules (name : String) : Path := ⟨"", ["rules", name]⟩

/-- Two rules, and a malformed line between them. -/
def twoRules : String :=
  "$(macro) \x7ba\x7d >> \x7b1\x7d\n$(macro) \x7bb >> \x7b2\x7d\n" ++
    "$(macro) \x7bc\x7d >> \x7b3\x7d"

/-- A directory with three definition files.  The second one holds no text. -/
def rulesDesk : Workbench where
  tree := { entries :=
    [(["rules"], .directory),
      (["rules", "c.syn"], .file twoRules.toUTF8),
      (["rules", "b.syn"], .file ⟨#[0xff]⟩),
      (["rules", "a.syn"], .file twoRules.toUTF8)] }

/-- The rules of the first file are added, and no others. -/
theorem loadDirectory_adds_first :
    let book := ofRules [letRule]
    ∃ rules after, FileDefines rulesDesk.tree (inRules "a.syn") rules ∧
      book.Adds rules after ∧
      Id.run (StateT.run (book.loadDirectory ⟨"", ["rules"]⟩) rulesDesk) =
        ((.error (.undecodable (inRules "b.syn")), after), rulesDesk) := by
  intro book
  have isThere : rulesDesk.tree.kind? ⟨"", ["rules"]⟩ =
      .ok (some .directory) := by
    decide +kernel
  obtain ⟨visited, left, lists, after, answer, definitions, ran, define, texts,
    adds, _, concludes⟩ := book.loadDirectory_adds isThere
  let files := [inRules "a.syn", inRules "b.syn", inRules "c.syn"]
  have told : ∀ path ∈ files, rulesDesk.tree.kind? path = .ok (some .file) := by
    decide +kernel
  have noText : rulesDesk.tree.HoldsNoText (inRules "b.syn") :=
    ⟨⟨#[0xff]⟩, by decide +kernel, by decide +kernel⟩
  have same : visited ++ left = files := by
    obtain ⟨names, listed, perm⟩ := definitions.named
    have isListed : rulesDesk.tree.names ⟨"", ["rules"]⟩ =
        .ok ["c.syn", "b.syn", "a.syn"] := by
      decide +kernel
    cases isListed.symm.trans listed
    have antisymm : ∀ left ∈ files, ∀ right ∈ files, left.le right = true →
        right.le left = true → left = right := by
      decide +kernel
    have perm : (visited ++ left).Perm files := perm.trans (by decide +kernel)
    apply perm.eq_of_pairwise _ definitions.sorted (by decide +kernel)
    exact fun left right isLeft isRight =>
      antisymm left (perm.mem_iff.mp isLeft) right isRight
  have stopped {path : Path} {stop : Stop} (member : path ∈ files)
      (stops : StopsAt rulesDesk.tree path stop) :
      rulesDesk.tree.HoldsNoText path ∧ stop = .undecodable path := by
    cases stops with
    | noText noText => exact ⟨noText, rfl⟩
    | refused refused =>
        rw [told path member] at refused
        cases refused
  -- the visit stops at the second file, neither in front of it nor behind it
  rcases List.append_eq_cons_iff.mp same with
    ⟨rfl, rfl⟩ | ⟨visited, rfl, behind⟩
  · cases concludes with
    | stopped stops =>
        obtain ⟨⟨bytes, held, absent⟩, _⟩ := stopped List.mem_cons_self stops
        have holds : rulesDesk.tree.read (inRules "a.syn") =
            .ok twoRules.toUTF8 := by
          decide +kernel
        cases holds.symm.trans held
        rw [Text.decode?_toUTF8] at absent
        cases absent
  · rcases List.append_eq_cons_iff.mp behind.symm with
      ⟨rfl, rfl⟩ | ⟨visited, rfl, _⟩
    · cases concludes with
      | stopped stops =>
          obtain ⟨_, rfl⟩ :=
            stopped (List.mem_cons_of_mem _ List.mem_cons_self) stops
          rw [List.filter_cons_of_pos (by decide +kernel)] at define
          cases define with
          | cons defines rest =>
              cases rest
              rw [List.flatten_singleton] at adds
              exact ⟨_, after, defines, adds, ran⟩
    · have inside := List.mem_cons_of_mem (inRules "a.syn")
        (List.mem_cons_self (a := inRules "b.syn") (l := visited))
      exact absurd noText (texts _ inside)

end RuleBook

end TokenMacros
