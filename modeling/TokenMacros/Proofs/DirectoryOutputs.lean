import Mathlib.Data.Set.List
import TokenMacros.Proofs.HostRuns
import TokenMacros.Proofs.OutputNames

/-!
# Outputs of a directory

Processing a directory expands its sources one after the other.  Each of them
is still what it was when its turn comes, and its output is what it was when the
run ends, unless the output of another source was written over it.
-/

namespace TokenMacros

variable {session : Session} {input output : Path} {directory : Location}
  {below other : List String} {bytes : ByteArray}

/-! ## Sources and outputs -/

/-- The name of what components lead to. -/
def lastName (below : List String) : String :=
  below.getLast?.getD ""

/-- The components of a source's output below the output directory. -/
def outputParts (below : List String) : List String :=
  below.dropLast ++ [outputName (lastName below)]

/-- The components of the source that has the name of another one, followed by
`.php`, for its name. -/
def twinParts (below : List String) : List String :=
  below.dropLast ++ [lastName below ++ ".php"]

namespace FileTree

/-- The place of components below a path. -/
def placeBelow (tree : FileTree) (path : Path) (parts : List String) :
    Except SystemFailure Location :=
  (tree.locate path).map (· ++ parts)

theorem placeBelow_of_locate {tree : FileTree} {path : Path}
    {parts : List String} (leads : tree.locate path = .ok directory) :
    tree.placeBelow path parts = .ok (directory ++ parts) := by
  rw [placeBelow, leads]
  rfl

/-- Below a directory there is a source that holds the bytes. -/
def HoldsSource (tree : FileTree) (directory : Path) (below : List String)
    (bytes : ByteArray) : Prop :=
  isSourceName (lastName below) = true ∧
    ∃ place, tree.placeBelow directory below = .ok place ∧
      tree.entry? place = some (.file bytes)

end FileTree

theorem plain_outputParts (isSource : isSourceName (lastName below) = true)
    (plain : ".." ∉ below) : ".." ∉ outputParts below := by
  rw [outputParts, List.mem_append, not_or, List.mem_singleton]
  exact ⟨fun member => plain (List.dropLast_subset below member),
    (outputName_ne_dots isSource).symm⟩

theorem eq_dropLast_append_name (some : below ≠ []) :
    below = below.dropLast ++ [lastName below] := by
  rw [lastName, List.getLast?_eq_some_getLast some, Option.getD_some,
    List.dropLast_append_getLast]

/-- Two sources with one output are the same, or one is the twin of the other.
-/
theorem eq_or_eq_twinParts_of_outputParts (some : below ≠ []) (some' : other ≠ [])
    (isSource : isSourceName (lastName below) = true)
    (isSource' : isSourceName (lastName other) = true)
    (same : outputParts other = outputParts below) :
    other = below ∨ other = twinParts below ∨ below = twinParts other := by
  obtain ⟨above, name⟩ := List.append_inj' same rfl
  rw [List.cons.injEq] at name
  rw [twinParts, twinParts, above]
  rcases eq_or_eq_php_of_outputName isSource' isSource name.1 with
    same | same | same
  · left
    rw [eq_dropLast_append_name some, eq_dropLast_append_name some', above, same]
  · right; left
    rw [← same, ← above]
    exact eq_dropLast_append_name some'
  · right; right
    rw [← same]
    exact eq_dropLast_append_name some

theorem not_twinParts_le (base : Path) (some : below ≠ []) :
    ¬ (base.join ⟨"", twinParts below⟩).le (base.join ⟨"", below⟩) = true := by
  have front : base.root :: (base.parts ++ below) =
      (base.root :: (base.parts ++ below.dropLast)) ++
        [lastName below] := by
    simp [← eq_dropLast_append_name some]
  have front' : base.root :: (base.parts ++ twinParts below) =
      (base.root :: (base.parts ++ below.dropLast)) ++
        [lastName below ++ ".php"] := by
    simp [twinParts]
  change ¬ Path.partsLe (base.root :: (base.parts ++ twinParts below))
    (base.root :: (base.parts ++ below)) = true
  rw [front, front', Path.partsLe_append, Path.partsLe_cons_iff, not_or]
  refine ⟨not_append_lt _ _, fun same => ?_⟩
  simp at same

theorem outputParts_ne_of_later (base : Path) (some : below ≠ [])
    (some' : other ≠ [])
    (isSource : isSourceName (lastName below) = true)
    (isSource' : isSourceName (lastName other) = true)
    (later : (base.join ⟨"", below⟩).le (base.join ⟨"", other⟩) = true)
    (apart : other ≠ below) (alone : other ≠ twinParts below) :
    outputParts other ≠ outputParts below := by
  intro same
  rcases eq_or_eq_twinParts_of_outputParts some some' isSource isSource' same
    with rfl | rfl | rfl
  · exact apart rfl
  · exact alone rfl
  · exact not_twinParts_le base some' later

/-! ## One source -/

namespace Session

/-- A file is expanded into the place an output path leads to; the files at
other places stay as they are. -/
structure Expands (session : Session) (source : Location) (output : Path)
    (target : Location) (before after : FileTree) : Prop where
  keeps : FileTree.Keeps before after
  writes : ∃ bytes text outcome, before.entry? source = some (.file bytes) ∧
    Text.decode? bytes = some text ∧ session.expand text = .ok outcome ∧
      after.read output = .ok outcome.text.toUTF8
  leads : after.locate output = .ok target
  others : ∀ place bytes, place ≠ target →
    (after.entry? place = some (.file bytes) ↔
      before.entry? place = some (.file bytes))

variable {before after : Workbench}

theorem expands_of_expandInto {source : Location} {report : FileOutcome}
    (leads : before.tree.locate input = .ok source)
    (returned : Returns (session.expandInto input output) before report after) :
    ∃ target, session.Expands source output target before.tree after.tree := by
  -- Only two steps touch the tree: the directory is ensured, the file written.
  rw [expandInto, Returns.bind_iff] at returned
  obtain ⟨text, _, looked, returned⟩ := returned
  obtain ⟨bytes, read, decoded, rfl⟩ := Returns.readText_iff.mp looked
  rw [Returns.bind_iff] at returned
  obtain ⟨outcome, _, result, returned⟩ := returned
  obtain ⟨expanded, rfl⟩ := Returns.mk_pure_iff.mp result
  replace returned := Returns.of_message_first returned
  obtain ⟨warned, sameTree, returned⟩ := returned
  rw [Returns.bind_iff] at returned
  obtain ⟨_, ready, ensured, returned⟩ := returned
  rw [Returns.bind_iff] at returned
  obtain ⟨_, _, wrote, returned⟩ := returned
  obtain ⟨_, writes, rfl⟩ := Returns.writeText_iff.mp wrote
  rw [Returns.bind_iff] at returned
  obtain ⟨_, shown, told, returned⟩ := returned
  obtain ⟨-, rfl⟩ := Returns.pure_iff.mp returned
  have shownTree := Returns.progress_tree told
  obtain ⟨grows, -⟩ := Returns.grows_of_ensureDirectory ensured
  rw [sameTree] at grows
  obtain ⟨target, place, keeps, holds, others⟩ := FileTree.Keeps.of_write writes
  obtain ⟨source', leads', found⟩ := FileTree.read_eq_ok_iff.mp read
  obtain rfl : source' = source := Except.ok.inj (leads'.symm.trans leads)
  refine ⟨target, ?_⟩
  rw [shownTree]
  exact {
    keeps := grows.toKeeps.trans keeps
    writes := ⟨bytes, text, outcome, found, decoded, expanded, holds⟩
    leads := keeps.locate place
    others := fun other bytes apart => by
      rw [others other apart, grows.file_iff] }

/-! ## All sources -/

/-- Components below a directory that may lead somewhere. -/
structure Listed (tree : FileTree) (directory : Location)
    (below : List String) : Prop where
  some : below ≠ []
  admits : tree.Admits (directory ++ below)

namespace Listed

variable {tree tree' : FileTree}

theorem plain (listed : Listed tree directory below) : ".." ∉ below :=
  fun member =>
    (listed.admits.named ".." (List.mem_append_right directory member)).1 rfl

theorem keeps (listed : Listed tree directory below)
    (keeps : FileTree.Keeps tree tree') : Listed tree' directory below :=
  ⟨listed.some, keeps.admits listed.admits⟩

end Listed

/-- What has the name of a source and is no directory. -/
def Candidate (tree : FileTree) (directory : Location) (below : List String) :
    Prop :=
  isSourceName (lastName below) = true ∧
    tree.entry? (directory ++ below) ≠ some .directory

theorem Candidate.of_keeps {tree tree' : FileTree}
    (keeps : FileTree.Keeps tree tree')
    (candidate : Candidate tree' directory below) :
    Candidate tree directory below :=
  ⟨candidate.1, fun found => candidate.2 (keeps.directory _ found)⟩

/-- The first of several paths is expanded, or it does not lead to a source. -/
theorem expands_or_skips {target : Location} {rest : List Path}
    {reports : List FileOutcome}
    (inputAt : before.tree.locate input = .ok directory)
    (outputAt : before.tree.locate output = .ok target)
    (listed : Listed before.tree directory below)
    (returned : Returns
      (session.expandEach input output (input.join ⟨"", below⟩ :: rest))
      before reports after) :
    (∃ between reports', Candidate before.tree directory below ∧
      session.Expands (directory ++ below)
        (output.join ⟨"", outputParts below⟩) (target ++ outputParts below)
        before.tree between.tree ∧
      Returns (session.expandEach input output rest) between reports' after) ∨
    ((isSourceName (lastName below) = true →
      ∀ bytes, before.tree.entry? (directory ++ below) ≠ some (.file bytes)) ∧
      Returns (session.expandEach input output rest) before reports after) := by
  have name : (input.join ⟨"", below⟩).name = lastName below := by
    simp [Path.join, Path.name, lastName,
      List.getLast?_eq_some_getLast listed.some]
  have relative : (input.join ⟨"", below⟩).parts.drop input.parts.length = below := by
    simp [Path.join]
  rw [expandEach, Returns.bind_iff, name, relative] at returned
  obtain ⟨isFile, _, asked, returned⟩ := returned
  obtain ⟨kind?, told, rfl, rfl⟩ := Returns.isFile_iff.mp asked
  have kindIs := listed.admits.kind?_join inputAt told
  split_ifs at returned with isSource
  · simp only [Bool.and_eq_true, beq_iff_eq] at isSource
    rw [isSource.1] at told
    obtain ⟨source, _, leads, found, isFile⟩ :=
      FileTree.kind?_eq_some_iff.mp told
    obtain rfl :=
      FileTree.eq_append_of_locate_join inputAt listed.plain leads
    rw [Returns.bind_iff] at returned
    obtain ⟨report, between, expanded, returned⟩ := returned
    rw [Returns.bind_iff] at returned
    obtain ⟨reports', _, returned, given⟩ := returned
    obtain ⟨-, rfl⟩ := Returns.pure_iff.mp given
    obtain ⟨place, expands⟩ := expands_of_expandInto leads expanded
    obtain rfl := FileTree.eq_append_of_locate_join
      (expands.keeps.locate outputAt)
      (plain_outputParts isSource.2 listed.plain) expands.leads
    obtain ⟨bytes, _, _, held, -⟩ := expands.writes
    exact .inl ⟨between, reports', ⟨isSource.2, by simp [held]⟩, expands, returned⟩
  · refine .inr ⟨fun isNamed bytes found => isSource ?_, returned⟩
    rw [kindIs, found, isNamed]
    rfl

section

variable {belows : List (List String)} {reports : List FileOutcome}
  {target : Location}

/-- Directories stay while sources are expanded, and so does a file that no
output is written over. -/
theorem keeps_of_expandEach
    (inputAt : before.tree.locate input = .ok directory)
    (outputAt : before.tree.locate output = .ok target)
    (listed : ∀ below ∈ belows, Listed before.tree directory below)
    (returned : Returns
      (session.expandEach input output (belows.map (input.join ⟨"", ·⟩)))
      before reports after) :
    FileTree.Keeps before.tree after.tree ∧
      ∀ place bytes, before.tree.entry? place = some (.file bytes) →
        (∀ other ∈ belows, Candidate before.tree directory other →
          target ++ outputParts other ≠ place) →
        after.tree.entry? place = some (.file bytes) := by
  -- By induction on the paths; a later candidate is one now, as directories stay.
  induction belows generalizing before reports with
  | nil =>
    obtain ⟨-, rfl⟩ := Returns.pure_iff.mp returned
    exact ⟨.refl _, fun _ _ found _ => found⟩
  | cons first rest induction =>
    rw [List.forall_mem_cons] at listed
    rcases expands_or_skips inputAt outputAt listed.1 returned with
      ⟨between, reports', candidate, expands, returned⟩ | ⟨-, returned⟩
    · obtain ⟨keeps, files⟩ := induction (expands.keeps.locate inputAt)
        (expands.keeps.locate outputAt)
        (fun below member => (listed.2 below member).keeps expands.keeps) returned
      refine ⟨expands.keeps.trans keeps, fun place bytes found spared => ?_⟩
      rw [List.forall_mem_cons] at spared
      refine files place bytes ?_ fun other member among =>
        spared.2 other member (among.of_keeps expands.keeps)
      rw [expands.others place bytes (Ne.symm (spared.1 candidate))]
      exact found
    · obtain ⟨keeps, files⟩ := induction inputAt outputAt listed.2 returned
      refine ⟨keeps, fun place bytes found spared => files place bytes found ?_⟩
      exact (List.forall_mem_cons.mp spared).2

theorem read_of_expandEach
    (inputAt : before.tree.locate input = .ok directory)
    (outputAt : before.tree.locate output = .ok target)
    (listed : ∀ below ∈ belows, Listed before.tree directory below)
    (returned : Returns
      (session.expandEach input output (belows.map (input.join ⟨"", ·⟩)))
      before reports after)
    (leads : before.tree.locate (output.join ⟨"", outputParts below⟩) =
      .ok (target ++ outputParts below))
    (written : before.tree.read (output.join ⟨"", outputParts below⟩) = .ok bytes)
    (apart : ∀ other ∈ belows, Candidate before.tree directory other →
      outputParts other ≠ outputParts below) :
    after.tree.read (output.join ⟨"", outputParts below⟩) = .ok bytes := by
  obtain ⟨keeps, files⟩ := keeps_of_expandEach inputAt outputAt listed returned
  obtain ⟨place, leads', holds⟩ := FileTree.read_eq_ok_iff.mp written
  obtain rfl := Except.ok.inj (leads'.symm.trans leads)
  refine FileTree.read_eq_ok_iff.mpr ⟨_, keeps.locate leads, files _ _ holds ?_⟩
  exact fun other member among same =>
    apart other member among (List.append_cancel_left same)

/-- The output of a source holds its expansion when all sources are expanded, if
no output is written over the source, and there is no twin of it. -/
theorem output_of_expandEach
    (inputAt : before.tree.locate input = .ok directory)
    (outputAt : before.tree.locate output = .ok target)
    (listed : ∀ below ∈ belows, Listed before.tree directory below)
    (ordered : (belows.map (input.join ⟨"", ·⟩)).Pairwise (Path.le · · = true))
    (returned : Returns
      (session.expandEach input output (belows.map (input.join ⟨"", ·⟩)))
      before reports after)
    (member : below ∈ belows)
    (isSource : isSourceName (lastName below) = true)
    (found : before.tree.entry? (directory ++ below) = some (.file bytes))
    (spared : ∀ other ∈ belows, Candidate before.tree directory other →
      target ++ outputParts other ≠ directory ++ below)
    (alone : ∀ other ∈ belows, Candidate before.tree directory other →
      other ≠ twinParts below) :
    ∃ text outcome, Text.decode? bytes = some text ∧
      session.expand text = .ok outcome ∧
      after.tree.read (output.join ⟨"", outputParts below⟩) =
        .ok outcome.text.toUTF8 := by
  induction belows generalizing before reports with
  | nil => simp at member
  | cons first rest induction =>
    rw [List.forall_mem_cons] at listed spared alone
    rw [List.map_cons, List.pairwise_cons] at ordered
    rcases expands_or_skips inputAt outputAt listed.1 returned with
      ⟨between, reports', candidate, expands, further⟩ | ⟨skipped, further⟩
    · have inputAt' := expands.keeps.locate inputAt
      have outputAt' := expands.keeps.locate outputAt
      have listed' : ∀ below ∈ rest, Listed between.tree directory below :=
        fun below member => (listed.2 below member).keeps expands.keeps
      -- The same path may be visited more than once; its last visit counts.
      by_cases later : below ∈ rest
      · refine induction inputAt' outputAt' listed' ordered.2 further later ?_ ?_ ?_
        · rw [expands.others _ bytes (Ne.symm (spared.1 candidate))]
          exact found
        · exact fun other member among =>
            spared.2 other member (among.of_keeps expands.keeps)
        · exact fun other member among =>
            alone.2 other member (among.of_keeps expands.keeps)
      · obtain rfl : below = first := (List.mem_cons.mp member).resolve_right later
        obtain ⟨held, text, outcome, found', decoded, expanded, written⟩ :=
          expands.writes
        obtain rfl : held = bytes := by simpa [found'] using found
        refine ⟨text, outcome, decoded, expanded, read_of_expandEach inputAt'
          outputAt' listed' further expands.leads written ?_⟩
        intro other inRest among
        refine outputParts_ne_of_later input listed.1.some
          (listed' other inRest).some isSource among.1
          (ordered.1 _ (List.mem_map_of_mem inRest)) ?_
          (alone.2 other inRest (among.of_keeps expands.keeps))
        rintro rfl
        exact later inRest
    · have later : below ∈ rest := by
        refine (List.mem_cons.mp member).resolve_left ?_
        rintro rfl
        exact skipped isSource bytes found
      exact induction inputAt outputAt listed.2 ordered.2 further later found
        spared.2 alone.2

end

/-! ## Directories -/

theorem processDirectory_iff {reports : List FileOutcome} :
    Returns (session.processDirectory input output) before reports after ↔
      before.tree.kind? input = .ok (some .directory) ∧
        ∃ ready paths, Returns (FileSystem.ensureDirectory output) before () ready ∧
          ready.tree.descendants input = .ok paths ∧
          Returns (session.expandEach input output (FileSystem.sorted paths))
            ready reports after := by
  rw [processDirectory, Returns.bind_iff]
  constructor
  · rintro ⟨isThere, _, asked, returned⟩
    obtain ⟨kind?, told, rfl, rfl⟩ := Returns.isDirectory_iff.mp asked
    by_cases isThere : kind? = some .directory
    · subst isThere
      obtain ⟨_, ready, ensured, further⟩ := Returns.bind_iff.mp returned
      obtain ⟨paths, _, listed, expanded⟩ := Returns.bind_iff.mp further
      obtain ⟨listed, rfl⟩ := Returns.descendants_iff.mp listed
      exact ⟨told, _, paths, ensured, listed, expanded⟩
    · rw [beq_eq_false_iff_ne.mpr isThere] at returned
      obtain ⟨_, _, thrown, -⟩ := Returns.bind_iff.mp returned
      exact absurd thrown Returns.not_throw
  · rintro ⟨told, ready, paths, ensured, listed, returned⟩
    refine ⟨true, before, Returns.isDirectory_iff.mpr ⟨_, told, rfl, rfl⟩, ?_⟩
    exact Returns.bind_iff.mpr ⟨(), ready, ensured, Returns.bind_iff.mpr
      ⟨paths, ready, Returns.descendants_iff.mpr ⟨listed, rfl⟩, returned⟩⟩

theorem exists_map_eq_sorted {tree : FileTree} {paths : List Path}
    (inputAt : tree.locate input = .ok directory)
    (listing : tree.descendants input = .ok paths) :
    ∃ belows : List (List String),
      belows.map (input.join ⟨"", ·⟩) = FileSystem.sorted paths ∧
        ∀ below, below ∈ belows ↔
          below ≠ [] ∧ (tree.entry? (directory ++ below)).isSome := by
  have inListing (path : Path) : path ∈ paths ↔ _ :=
    FileTree.mem_of_descendants inputAt listing
  obtain ⟨belows, same⟩ : FileSystem.sorted paths ∈
      Set.range (List.map (input.join ⟨"", ·⟩)) := by
    rw [Set.range_list_map]
    intro path member
    obtain ⟨below, -, joined⟩ := (inListing path).mp (FileSystem.mem_sorted.mp member)
    exact ⟨below, joined⟩
  have injective : Function.Injective (input.join ⟨"", ·⟩) := by
    intro below other joined
    simpa [Path.join] using joined
  refine ⟨belows, same, fun below => ?_⟩
  rw [← List.mem_map_of_injective injective, same, FileSystem.mem_sorted, inListing]
  constructor
  · rintro ⟨other, listed, joined⟩
    rwa [← injective joined]
  · exact fun listed => ⟨below, listed, rfl⟩

/-- A candidate that is there after directories were created is a source that
was there before. -/
theorem holdsSource_of_candidate {before ready : FileTree}
    (grows : FileTree.Grows before ready)
    (inputAt : before.locate input = .ok directory)
    (present : (ready.entry? (directory ++ below)).isSome)
    (candidate : Candidate ready directory below) :
    ∃ held, before.HoldsSource input below held := by
  obtain ⟨held | _, found⟩ := Option.isSome_iff_exists.mp present
  · exact ⟨held, candidate.1, directory ++ below,
      FileTree.placeBelow_of_locate inputAt, (grows.file_iff _ _).mp found⟩
  · exact absurd found candidate.2

/-- Outputs in a directory that is apart from the sources are not written over
a source. -/
theorem placeBelow_ne_of_apart {before after : FileTree} {target : Location}
    (inputAt : before.locate input = .ok directory)
    (outputAt : after.locate output = .ok target)
    (notWithin : ¬ directory <+: target) (notAround : ¬ target <+: directory)
    (other below : List String) :
    after.placeBelow output other ≠ before.placeBelow input below := by
  rw [FileTree.placeBelow_of_locate inputAt,
    FileTree.placeBelow_of_locate outputAt]
  intro same
  have prefix_target : target <+: directory ++ below :=
    ⟨other, Except.ok.inj same⟩
  exact (List.prefix_or_prefix_of_prefix prefix_target
    (List.prefix_append directory below)).elim notAround notWithin

/-- When a directory has been processed, the output of a source holds the
expansion of the source, provided that no output is written over the source
itself, and that no other source has the same name followed by `.php`. -/
theorem processDirectory_outputs {reports : List FileOutcome}
    (sound : before.tree.WellFormed)
    (returned : Returns (session.processDirectory input output) before reports
      after)
    (source : before.tree.HoldsSource input below bytes)
    (spared : ∀ other held, before.tree.HoldsSource input other held →
      after.tree.placeBelow output (outputParts other) ≠
        before.tree.placeBelow input below)
    (alone : ∀ held, ¬ before.tree.HoldsSource input (twinParts below) held) :
    ∃ text outcome, Text.decode? bytes = some text ∧
      session.expand text = .ok outcome ∧
      after.tree.read (output.join ⟨"", outputParts below⟩) =
        .ok outcome.text.toUTF8 := by
  obtain ⟨isThere, ready, paths, ensured, listing, expanded⟩ :=
    processDirectory_iff.mp returned
  obtain ⟨directory, -, inputAt, -⟩ := FileTree.kind?_eq_some_iff.mp isThere
  obtain ⟨grows, isThere'⟩ := Returns.grows_of_ensureDirectory ensured
  obtain ⟨target, -, outputAt, -⟩ := FileTree.kind?_eq_some_iff.mp isThere'
  have inputAt' := grows.toKeeps.locate inputAt
  obtain ⟨belows, same, inBelows⟩ := exists_map_eq_sorted inputAt' listing
  have ordered := FileSystem.pairwise_sorted paths
  rw [← same] at expanded ordered
  have listed : ∀ other ∈ belows, Listed ready.tree directory other := by
    intro other member
    obtain ⟨some, present⟩ := (inBelows other).mp member
    exact ⟨some, (grows.wellFormed sound).admits _ present⟩
  have candidate : ∀ other ∈ belows, Candidate ready.tree directory other →
      ∃ held, before.tree.HoldsSource input other held :=
    fun other member =>
      holdsSource_of_candidate grows inputAt ((inBelows other).mp member).2
  obtain ⟨keeps, -⟩ := keeps_of_expandEach inputAt' outputAt listed expanded
  obtain ⟨isSource, place, placed, found⟩ := source
  rw [FileTree.placeBelow_of_locate inputAt] at placed
  obtain rfl := Except.ok.inj placed
  have found' := (grows.file_iff _ _).mpr found
  have member : below ∈ belows := by
    refine (inBelows below).mpr ⟨?_, by simp [found']⟩
    rintro rfl
    simp [lastName, isSourceName, sourceEndings] at isSource
  refine output_of_expandEach inputAt' outputAt listed ordered expanded member
    isSource found' ?_ ?_
  · intro other inListing among overwritten
    obtain ⟨held, source⟩ := candidate other inListing among
    apply spared other held source
    rw [FileTree.placeBelow_of_locate inputAt,
      FileTree.placeBelow_of_locate (keeps.locate outputAt), overwritten]
  · rintro other inListing among rfl
    obtain ⟨held, source⟩ := candidate _ inListing among
    exact alone held source

/-! ## Two sources with one output -/

/-- A session without rules. -/
def bare : Session := ⟨{}, {}, {}⟩

/-- A directory of three sources, two of which have one output. -/
def twins : Workbench where
  tree := { entries :=
    [(["in"], .directory), (["in", "a.syn"], .file "x".toUTF8),
      (["in", "a.syn.php"], .file "y".toUTF8), (["in", "deep"], .directory),
      (["in", "deep", "b.syn"], .file "z".toUTF8)] }

def twinsReady : Workbench :=
  { twins with tree := twins.tree.put ["out"] .directory }

def twinsPaths : List Path :=
  [⟨"", ["in", "a.syn"]⟩, ⟨"", ["in", "a.syn.php"]⟩, ⟨"", ["in", "deep"]⟩,
    ⟨"", ["in", "deep", "b.syn"]⟩]

def expandTwins : Run (StateM Workbench) (List FileOutcome) :=
  bare.expandEach ⟨"", ["in"]⟩ ⟨"", ["out"]⟩ twinsPaths

def twinsExpanded : Workbench :=
  (StateT.run expandTwins.run twinsReady).run.2

theorem returns_twinsExpanded :
    ∃ reports, Returns (bare.processDirectory ⟨"", ["in"]⟩ ⟨"", ["out"]⟩) twins
      reports twinsExpanded := by
  have ended : (StateT.run expandTwins.run twinsReady).run.1.isOk = true := by
    decide +kernel
  obtain ⟨reports, expanded⟩ := Returns.exists_of_isOk ended
  have inOrder : FileSystem.sorted twinsPaths = twinsPaths :=
    List.mergeSort_of_pairwise (by decide +kernel)
  refine ⟨reports, processDirectory_iff.mpr
    ⟨by decide +kernel, twinsReady, twinsPaths, rfl, by decide +kernel, ?_⟩⟩
  rw [inOrder]
  exact expanded

/-- Where no other source has the output, the expansion is in it. -/
theorem processDirectory_outputs_deep :
    (∃ reports, Returns (bare.processDirectory ⟨"", ["in"]⟩ ⟨"", ["out"]⟩) twins
      reports twinsExpanded) ∧
    ∃ text outcome, Text.decode? "z".toUTF8 = some text ∧
      bare.expand text = .ok outcome ∧
      twinsExpanded.tree.read ⟨"", ["out", "deep", "b.php"]⟩ =
        .ok outcome.text.toUTF8 := by
  obtain ⟨reports, returned⟩ := returns_twinsExpanded
  have sound : twins.tree.WellFormed := by decide +kernel
  have inputAt : twins.tree.locate ⟨"", ["in"]⟩ = .ok ["in"] := by decide +kernel
  have outputAt : twinsExpanded.tree.locate ⟨"", ["out"]⟩ = .ok ["out"] := by
    decide +kernel
  have source : twins.tree.HoldsSource ⟨"", ["in"]⟩ ["deep", "b.syn"] "z".toUTF8 :=
    ⟨by decide, ["in", "deep", "b.syn"], by decide +kernel, rfl⟩
  refine ⟨⟨reports, returned⟩,
    processDirectory_outputs sound returned source ?_ ?_⟩
  · exact fun other _ _ =>
      placeBelow_ne_of_apart inputAt outputAt (by decide) (by decide) _ _
  · rintro held ⟨-, place, placed, found⟩
    rw [FileTree.placeBelow_of_locate inputAt] at placed
    obtain rfl := Except.ok.inj placed
    cases found

/-- Of two sources with one output, the one that is visited first is lost. -/
theorem processDirectory_outputs_lost :
    ¬ ∀ (session : Session) (input output : Path) (before after : Workbench)
        (reports : List FileOutcome) (directory target : Location)
        (below : List String) (bytes : ByteArray),
      before.tree.WellFormed →
      before.tree.locate input = .ok directory →
      after.tree.locate output = .ok target →
      ¬ directory <+: target → ¬ target <+: directory →
      Returns (session.processDirectory input output) before reports after →
      before.tree.HoldsSource input below bytes →
      ∃ text outcome, Text.decode? bytes = some text ∧
        session.expand text = .ok outcome ∧
        after.tree.read (output.join ⟨"", outputParts below⟩) =
          .ok outcome.text.toUTF8 := by
  intro writesEach
  obtain ⟨reports, returned⟩ := returns_twinsExpanded
  obtain ⟨text, outcome, decoded, expanded, written⟩ :=
    writesEach bare ⟨"", ["in"]⟩ ⟨"", ["out"]⟩ twins twinsExpanded reports
      ["in"] ["out"] ["a.syn"] "x".toUTF8 (by decide +kernel) (by decide +kernel)
      (by decide +kernel) (by decide) (by decide) returned
      ⟨by decide, ["in", "a.syn"], by decide +kernel, rfl⟩
  have decoded' : Text.decode? "x".toUTF8 = some "x" := by decide +kernel
  obtain rfl : text = "x" := Option.some.inj (decoded.symm.trans decoded')
  have expanded' : (bare.expand "x").toOption.map (·.text) = some "x" := by
    decide +kernel
  rw [expanded] at expanded'
  have kept : outcome.text = "x" := by simpa [Except.toOption] using expanded'
  have overwritten : twinsExpanded.tree.read ⟨"", ["out", "a.php"]⟩ =
      .ok "y".toUTF8 := by
    decide +kernel
  have same : "y".toUTF8 = "x".toUTF8 := by
    rw [← kept]
    exact Except.ok.inj (overwritten.symm.trans written)
  exact absurd same (by decide +kernel)

end Session

end TokenMacros
