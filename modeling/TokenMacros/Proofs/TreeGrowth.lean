import Mathlib.Data.List.Infix
import Mathlib.Tactic.SplitIfs
import TokenMacros.Host.FileTree

/-!
# Growing trees

What the operations on a file tree leave as it was.  A place that something is
put at held no directory, so directories stay, and a path that leads somewhere
leads there ever after.  While only directories are created, files stay too.
-/

namespace TokenMacros.FileTree

variable {tree before between after : FileTree} {path : Path}
  {location place : Location} {parts : List String} {entry : Entry}
  {bytes : ByteArray}

/-! ## Entries -/

@[simp]
theorem entry?_nil (tree : FileTree) : tree.entry? [] = some .directory := rfl

theorem entry?_of_ne_nil (below : place ≠ []) :
    tree.entry? place = tree.entries.lookup place := by
  unfold entry?
  simp [below]

theorem entry?_isSome_of_mem (present : (place, entry) ∈ tree.entries) :
    (tree.entry? place).isSome := by
  by_cases top : place = []
  · simp [top]
  · rw [entry?_of_ne_nil top, List.lookup_isSome_iff]
    exact ⟨(place, entry), present, beq_self_eq_true place⟩

theorem mem_of_entry (below : place ≠ [])
    (found : tree.entry? place = some entry) :
    (place, entry) ∈ tree.entries := by
  rw [entry?_of_ne_nil below, List.lookup_eq_some_iff] at found
  obtain ⟨front, back, split, -⟩ := found
  simp [split]

theorem entry?_put_self (below : location ≠ []) :
    entry? (tree.put location entry) location = some entry := by
  simp [entry?_of_ne_nil below, put]

private theorem lookup_filter_of_ne (other : place ≠ location) :
    ∀ entries : List (Location × Entry),
      (entries.filter (·.1 != location)).lookup place = entries.lookup place
  | [] => rfl
  | (first, entry) :: entries => by
    have rest := lookup_filter_of_ne other entries
    by_cases same : first = location
    · simp [same, List.lookup_cons, beq_eq_false_iff_ne.mpr other, rest]
    · simp [same, List.lookup_cons, rest]

theorem entry?_put_of_ne (other : place ≠ location) :
    entry? (tree.put location entry) place = tree.entry? place := by
  by_cases top : place = []
  · simp [top]
  · simp [entry?_of_ne_nil top, put, List.lookup_cons,
      beq_eq_false_iff_ne.mpr other, lookup_filter_of_ne other]

/-! ## Following paths -/

theorem follow_cons_eq_ok_iff {part : String} :
    tree.follow path location (part :: parts) = .ok place ↔
      tree.entry? location = some .directory ∧
        if part = ".." then
          tree.follow path location.dropLast parts = .ok place
        else part.utf8ByteSize ≤ maxNameBytes ∧
          tree.follow path (location ++ [part]) parts = .ok place := by
  rw [follow]
  rcases tree.entry? location with _ | ⟨_⟩ | _
  · simp
  · simp
  · by_cases up : part = ".."
    · simp [up]
    · by_cases long : maxNameBytes < part.utf8ByteSize
      · simp [up, long, Nat.not_le_of_lt long]
      · simp [up, long, Nat.le_of_not_lt long]

theorem follow_append (first second : List String) (location : Location) :
    tree.follow path location (first ++ second) =
      (tree.follow path location first).bind
        (tree.follow path · second) := by
  induction first generalizing location with
  | nil => rfl
  | cons part first induction =>
    rw [List.cons_append, follow, follow]
    rcases tree.entry? location with _ | ⟨_⟩ | _
    · rfl
    · rfl
    · simp only
      split_ifs
      · exact induction _
      · rfl
      · exact induction _

theorem follow_eq_ok_of_path {other : Path}
    (leads : tree.follow path location parts = .ok place) :
    tree.follow other location parts = .ok place := by
  induction parts generalizing location with
  | nil => exact leads
  | cons part parts induction =>
    rw [follow_cons_eq_ok_iff] at leads ⊢
    refine ⟨leads.1, ?_⟩
    have leads := leads.2
    split_ifs at leads ⊢
    · exact induction leads
    · exact ⟨leads.1, induction leads.2⟩

theorem eq_append_of_follow (plain : ".." ∉ parts)
    (leads : tree.follow path location parts = .ok place) :
    place = location ++ parts := by
  induction parts generalizing location with
  | nil => simpa [follow, eq_comm] using leads
  | cons part parts induction =>
    simp only [List.mem_cons, not_or] at plain
    rw [follow_cons_eq_ok_iff, if_neg (Ne.symm plain.1)] at leads
    simpa using induction plain.2 leads.2.2

/-! ## Well-formed trees -/

/-- Something may be at the place: each component is a name, which double dots
and texts with a zero character are not, and what is above is a directory. -/
structure Admits (tree : FileTree) (place : Location) : Prop where
  named : ∀ part ∈ place, part ≠ ".." ∧ '\x00' ∉ part.toList
  rooted : ∀ above, above <+: place → above ≠ place →
    tree.entry? above = some .directory

/-- Whatever a tree holds is below directories, and relative paths start from a
directory. -/
structure WellFormed (tree : FileTree) : Prop where
  admits : ∀ place, (tree.entry? place).isSome → tree.Admits place
  working : tree.entry? tree.workplace = some .directory

namespace Admits

theorem nil : tree.Admits [] where
  named := by simp
  rooted above isPrefix other := absurd (List.prefix_nil.mp isPrefix) other

theorem of_prefix {above : Location} (admits : tree.Admits place)
    (isPrefix : above <+: place) : tree.Admits above where
  named part member := admits.named part (isPrefix.subset member)
  rooted further isFurther other := by
    refine admits.rooted further (isFurther.trans isPrefix) ?_
    rintro rfl
    exact other (isFurther.eq_of_length_le isPrefix.length_le)

theorem concat {part : String} (admits : tree.Admits place)
    (isDirectory : tree.entry? place = some .directory)
    (named : part ≠ ".." ∧ '\x00' ∉ part.toList) :
    tree.Admits (place ++ [part]) where
  named other member := by
    rcases List.mem_append.mp member with inside | last
    · exact admits.named other inside
    · simpa [List.mem_singleton.mp last] using named
  rooted above isPrefix other := by
    rcases List.prefix_concat_iff.mp isPrefix with same | inside
    · exact absurd same other
    · by_cases whole : above = place
      · rwa [whole]
      · exact admits.rooted above inside whole

/-- A path to an admitted place is walked from any place above. -/
theorem follow_append (admits : tree.Admits (location ++ parts)) :
    tree.follow path location parts = .ok (location ++ parts) ∨
      tree.follow path location parts = .error (.nameTooLong path) := by
  induction parts generalizing location with
  | nil => simp [follow]
  | cons part parts induction =>
    have isDirectory : tree.entry? location = some .directory :=
      admits.rooted location (List.prefix_append _ _) (by simp)
    have notUp : part ≠ ".." := (admits.named part (by simp)).1
    rw [follow, isDirectory]
    by_cases long : maxNameBytes < part.utf8ByteSize
    · simp [notUp, long]
    · have further : tree.Admits ((location ++ [part]) ++ parts) := by
        simpa using admits
      simpa [notUp, long] using induction further

end Admits

theorem Admits.of_follow (start : tree.Admits location)
    (nameable : ∀ part ∈ parts, '\x00' ∉ part.toList)
    (leads : tree.follow path location parts = .ok place) :
    tree.Admits place := by
  induction parts generalizing location with
  | nil =>
    obtain rfl : location = place := by simpa [follow] using leads
    exact start
  | cons part parts induction =>
    simp only [List.mem_cons, forall_eq_or_imp] at nameable
    obtain ⟨isDirectory, leads⟩ := follow_cons_eq_ok_iff.mp leads
    split_ifs at leads with up
    · exact induction (start.of_prefix (List.dropLast_prefix location))
        nameable.2 leads
    · exact induction (start.concat isDirectory ⟨up, nameable.1⟩)
        nameable.2 leads.2

private theorem map_kind_eq_directory_iff {found? : Option Entry} :
    found?.map Entry.kind = some .directory ↔ found? = some .directory := by
  rcases found? with _ | _ | _ <;> simp [Entry.kind]

theorem wellFormed_iff :
    tree.WellFormed ↔
      (∀ present ∈ tree.entries,
        (∀ part ∈ present.1, part ≠ ".." ∧ '\x00' ∉ part.toList) ∧
          ∀ above ∈ present.1.inits, above ≠ present.1 →
            (tree.entry? above).map Entry.kind = some .directory) ∧
        (tree.entry? tree.workplace).map Entry.kind = some .directory := by
  simp only [map_kind_eq_directory_iff, List.mem_inits]
  constructor
  · intro sound
    refine ⟨?_, sound.working⟩
    rintro ⟨place, entry⟩ present
    have admits := sound.admits place (entry?_isSome_of_mem present)
    exact ⟨admits.named, admits.rooted⟩
  · rintro ⟨entries, working⟩
    refine ⟨fun place found => ?_, working⟩
    by_cases top : place = []
    · rw [top]
      exact Admits.nil
    · obtain ⟨entry, found⟩ := Option.isSome_iff_exists.mp found
      obtain ⟨named, rooted⟩ := entries _ (mem_of_entry top found)
      exact ⟨named, rooted⟩

instance (tree : FileTree) : Decidable tree.WellFormed :=
  decidable_of_iff _ wellFormed_iff.symm

/-! ## Places of paths -/

/-- Where a path starts. -/
def origin (tree : FileTree) (path : Path) : Location :=
  if path.root == "" then tree.workplace else []

theorem locate_of_nameable (nameable : ∀ part ∈ path.parts, '\x00' ∉ part.toList) :
    tree.locate path =
      if maxPathBytes < path.toString.utf8ByteSize then
        .error (.nameTooLong path)
      else tree.follow path (tree.origin path) path.parts := by
  have none : path.parts.any (·.toList.contains '\x00') = false := by
    simpa using nameable
  rw [locate, none]
  rfl

theorem locate_eq_ok_iff :
    tree.locate path = .ok place ↔
      (∀ part ∈ path.parts, '\x00' ∉ part.toList) ∧
        path.toString.utf8ByteSize ≤ maxPathBytes ∧
          tree.follow path (tree.origin path) path.parts = .ok place := by
  by_cases nameable : ∀ part ∈ path.parts, '\x00' ∉ part.toList
  · rw [locate_of_nameable nameable]
    by_cases long : maxPathBytes < path.toString.utf8ByteSize
    · simp [long, Nat.not_le_of_lt long]
    · rw [if_neg long]
      exact ⟨fun leads => ⟨nameable, Nat.le_of_not_lt long, leads⟩,
        fun told => told.2.2⟩
  · have some : path.parts.any (·.toList.contains '\x00') = true := by
      simpa using nameable
    simp only [locate, some, if_true, nameable, false_and, reduceCtorEq]

theorem WellFormed.admits_of_locate (sound : tree.WellFormed)
    (leads : tree.locate path = .ok place) : tree.Admits place := by
  obtain ⟨nameable, -, leads⟩ := locate_eq_ok_iff.mp leads
  refine Admits.of_follow ?_ nameable leads
  unfold origin
  split_ifs
  · exact sound.admits _ (by simp [sound.working])
  · exact Admits.nil

theorem eq_append_of_locate_join {target : Location}
    (leads : tree.locate path = .ok place) (plain : ".." ∉ parts)
    (further : tree.locate (path.join ⟨"", parts⟩) = .ok target) :
    target = place ++ parts := by
  obtain ⟨-, -, leads⟩ := locate_eq_ok_iff.mp leads
  obtain ⟨-, -, further⟩ := locate_eq_ok_iff.mp further
  change tree.follow _ (tree.origin path) (path.parts ++ parts) = _ at further
  rw [FileTree.follow_append, follow_eq_ok_of_path leads] at further
  exact eq_append_of_follow plain further

theorem Admits.locate_join (admits : tree.Admits (place ++ parts))
    (leads : tree.locate path = .ok place) :
    tree.locate (path.join ⟨"", parts⟩) = .ok (place ++ parts) ∨
      ∃ long, tree.locate (path.join ⟨"", parts⟩) =
        .error (.nameTooLong long) := by
  obtain ⟨nameable, -, leads⟩ := locate_eq_ok_iff.mp leads
  have named : ∀ part ∈ path.parts ++ parts, '\x00' ∉ part.toList := by
    intro part member
    rcases List.mem_append.mp member with inside | inside
    · exact nameable part inside
    · exact (admits.named part (List.mem_append_right place inside)).2
  rw [locate_of_nameable named]
  split_ifs with long
  · exact .inr ⟨_, rfl⟩
  · change tree.follow _ (tree.origin path) (path.parts ++ parts) = _ ∨
      ∃ _, tree.follow _ (tree.origin path) (path.parts ++ parts) = _
    rw [FileTree.follow_append, follow_eq_ok_of_path leads]
    exact admits.follow_append.imp id fun long => ⟨_, long⟩

theorem Admits.kind?_join {kind? : Option EntryKind}
    (admits : tree.Admits (place ++ parts))
    (leads : tree.locate path = .ok place)
    (told : tree.kind? (path.join ⟨"", parts⟩) = .ok kind?) :
    kind? = (tree.entry? (place ++ parts)).map Entry.kind := by
  rcases admits.locate_join leads with further | ⟨long, further⟩
  · simpa [FileTree.kind?, further, eq_comm] using told
  · simp [FileTree.kind?, further] at told

/-! ## Operations -/

theorem kind?_eq_some_iff {kind : EntryKind} :
    tree.kind? path = .ok (some kind) ↔
      ∃ place entry, tree.locate path = .ok place ∧
        tree.entry? place = some entry ∧ entry.kind = kind := by
  rw [kind?]
  rcases tree.locate path with (_ | _ | _ | _ | _ | _ | _) | place <;> simp

theorem read_eq_ok_iff :
    tree.read path = .ok bytes ↔
      ∃ place, tree.locate path = .ok place ∧
        tree.entry? place = some (.file bytes) := by
  rw [read]
  rcases tree.locate path with failure | place
  · simp [bind, Except.bind]
  · rcases found : tree.entry? place with _ | ⟨_⟩ | _ <;>
      simp [bind, Except.bind, pure, Except.pure, throw, throwThe,
        MonadExceptOf.throw, found]

theorem kind?_eq_file_iff :
    tree.kind? path = .ok (some .file) ↔ ∃ bytes, tree.read path = .ok bytes := by
  constructor
  · intro isFile
    obtain ⟨place, entry, leads, found, kind⟩ := kind?_eq_some_iff.mp isFile
    cases entry with
    | directory => cases kind
    | file bytes => exact ⟨bytes, read_eq_ok_iff.mpr ⟨place, leads, found⟩⟩
  · rintro ⟨bytes, held⟩
    obtain ⟨place, leads, found⟩ := read_eq_ok_iff.mp held
    exact kind?_eq_some_iff.mpr ⟨place, _, leads, found, rfl⟩

theorem write_eq_ok_iff :
    tree.write path bytes = .ok after ↔
      ∃ place, tree.locate path = .ok place ∧
        tree.entry? place ≠ some .directory ∧
          tree.put place (.file bytes) = after := by
  rw [write]
  rcases tree.locate path with failure | place
  · simp [bind, Except.bind]
  · rcases found : tree.entry? place with _ | ⟨_⟩ | _ <;>
      simp [bind, Except.bind, pure, Except.pure, throw, throwThe,
        MonadExceptOf.throw, found]

theorem makeDirectory_eq_ok_iff :
    tree.makeDirectory path = .ok after ↔
      ∃ place, tree.locate path = .ok place ∧ tree.entry? place = none ∧
        tree.put place .directory = after := by
  rw [makeDirectory]
  rcases tree.locate path with failure | place
  · simp [bind, Except.bind]
  · rcases found : tree.entry? place with _ | ⟨_⟩ | _ <;>
      simp [bind, Except.bind, pure, Except.pure, throw, throwThe,
        MonadExceptOf.throw, found]

theorem mem_below_iff :
    parts ∈ tree.below location ↔
      parts ≠ [] ∧ (tree.entry? (location ++ parts)).isSome := by
  rw [below, List.mem_filterMap]
  constructor
  · rintro ⟨⟨place, entry⟩, present, given⟩
    simp only [Option.ite_none_right_eq_some, Bool.and_eq_true,
      List.isPrefixOf_iff_prefix, bne_iff_ne] at given
    obtain ⟨⟨⟨rest, rfl⟩, further⟩, given⟩ := given
    obtain rfl : rest = parts := by simpa using given
    exact ⟨by simpa using further, entry?_isSome_of_mem present⟩
  · rintro ⟨some, found⟩
    obtain ⟨entry, found⟩ := Option.isSome_iff_exists.mp found
    refine ⟨(location ++ parts, entry), mem_of_entry (by simp [some]) found, ?_⟩
    simp [some]

theorem mem_of_descendants {paths : List Path} {member : Path}
    (leads : tree.locate path = .ok location)
    (listed : tree.descendants path = .ok paths) :
    member ∈ paths ↔
      ∃ parts, (parts ≠ [] ∧ (tree.entry? (location ++ parts)).isSome) ∧
        path.join ⟨"", parts⟩ = member := by
  rw [descendants, leads] at listed
  obtain rfl := Except.ok.inj listed
  simp only [List.mem_map, mem_below_iff]

/-! ## What stays -/

/-- Directories stay, and relative paths start from the same one. -/
structure Keeps (before after : FileTree) : Prop where
  workplace : after.workplace = before.workplace
  directory : ∀ place, before.entry? place = some .directory →
    after.entry? place = some .directory
  wellFormed : before.WellFormed → after.WellFormed

/-- Only directories are added. -/
structure Grows (before after : FileTree) : Prop
    extends Keeps before after where
  file_iff : ∀ place bytes, after.entry? place = some (.file bytes) ↔
    before.entry? place = some (.file bytes)

namespace Keeps

theorem refl (tree : FileTree) : Keeps tree tree :=
  ⟨rfl, fun _ found => found, id⟩

theorem trans (first : Keeps before between) (second : Keeps between after) :
    Keeps before after where
  workplace := second.workplace.trans first.workplace
  directory place found := second.directory place (first.directory place found)
  wellFormed sound := second.wellFormed (first.wellFormed sound)

theorem admits (keeps : Keeps before after) (admits : before.Admits place) :
    after.Admits place where
  named := admits.named
  rooted above isPrefix other :=
    keeps.directory above (admits.rooted above isPrefix other)

theorem follow (keeps : Keeps before after)
    (leads : before.follow path location parts = .ok place) :
    after.follow path location parts = .ok place := by
  induction parts generalizing location with
  | nil => exact leads
  | cons part parts induction =>
    rw [follow_cons_eq_ok_iff] at leads ⊢
    refine ⟨keeps.directory _ leads.1, ?_⟩
    have leads := leads.2
    split_ifs at leads ⊢
    · exact induction leads
    · exact ⟨leads.1, induction leads.2⟩

theorem locate (keeps : Keeps before after)
    (leads : before.locate path = .ok place) :
    after.locate path = .ok place := by
  rw [locate_eq_ok_iff] at leads ⊢
  rw [origin, keeps.workplace, ← origin]
  exact ⟨leads.1, leads.2.1, keeps.follow leads.2.2⟩

theorem follow_nameTooLong (keeps : Keeps before after) {long : Path}
    (refused : before.follow path location parts = .error (.nameTooLong long)) :
    after.follow path location parts = .error (.nameTooLong long) := by
  induction parts generalizing location with
  | nil => cases refused
  | cons part parts induction =>
    rw [FileTree.follow] at refused
    rcases found : before.entry? location with _ | ⟨_⟩ | _
    · simp [found] at refused
    · simp [found] at refused
    · rw [found] at refused
      rw [FileTree.follow, keeps.directory location found]
      simp only at refused ⊢
      split_ifs at refused ⊢
      · exact induction refused
      · exact refused
      · exact induction refused

/-- What a path that leads somewhere later leads to can be told before. -/
theorem exists_kind? (keeps : Keeps before after)
    (leads : after.locate path = .ok place) :
    ∃ kind?, before.kind? path = .ok kind? := by
  obtain ⟨nameable, short, follows⟩ := locate_eq_ok_iff.mp leads
  rw [FileTree.kind?, locate_of_nameable nameable,
    if_neg (Nat.not_lt_of_le short)]
  rw [origin, keeps.workplace, ← origin] at follows
  rcases walked : before.follow path (before.origin path) path.parts with
    (_ | _ | _ | _ | long | _ | _) | place
  case error.nameTooLong =>
    have refused := keeps.follow_nameTooLong walked
    rw [follows] at refused
    cases refused
  all_goals exact ⟨_, rfl⟩

theorem put (leads : tree.locate path = .ok place)
    (noDirectory : tree.entry? place ≠ some .directory) :
    Keeps tree (tree.put place entry) := by
  have directory : ∀ other, tree.entry? other = some .directory →
      entry? (tree.put place entry) other = some .directory := by
    intro other found
    rw [entry?_put_of_ne, found]
    rintro rfl
    exact noDirectory found
  refine ⟨rfl, directory, fun sound => ⟨fun other present => ?_, ?_⟩⟩
  · have admitted : tree.Admits other := by
      by_cases same : other = place
      · rw [same]
        exact sound.admits_of_locate leads
      · rw [entry?_put_of_ne same] at present
        exact sound.admits other present
    exact ⟨admitted.named, fun above isPrefix further =>
      directory above (admitted.rooted above isPrefix further)⟩
  · exact directory _ sound.working

theorem of_write (wrote : before.write path bytes = .ok after) :
    ∃ place, before.locate path = .ok place ∧ Keeps before after ∧
      after.read path = .ok bytes ∧
        ∀ other, other ≠ place → after.entry? other = before.entry? other := by
  obtain ⟨place, leads, noDirectory, rfl⟩ := write_eq_ok_iff.mp wrote
  have keeps : Keeps before (before.put place (.file bytes)) :=
    put leads noDirectory
  have below : place ≠ [] := by
    rintro rfl
    exact noDirectory rfl
  exact ⟨place, leads, keeps,
    read_eq_ok_iff.mpr ⟨place, keeps.locate leads, entry?_put_self below⟩,
    fun _ => entry?_put_of_ne⟩

end Keeps

namespace Grows

theorem refl (tree : FileTree) : Grows tree tree :=
  ⟨Keeps.refl tree, fun _ _ => Iff.rfl⟩

theorem trans (first : Grows before between) (second : Grows between after) :
    Grows before after :=
  ⟨first.toKeeps.trans second.toKeeps, fun place bytes =>
    (second.file_iff place bytes).trans (first.file_iff place bytes)⟩

theorem of_makeDirectory (made : before.makeDirectory path = .ok after) :
    Grows before after ∧ after.kind? path = .ok (some .directory) := by
  obtain ⟨place, leads, vacant, rfl⟩ := makeDirectory_eq_ok_iff.mp made
  have keeps : Keeps before (before.put place .directory) :=
    Keeps.put leads (by simp [vacant])
  have below : place ≠ [] := by
    rintro rfl
    simp at vacant
  refine ⟨⟨keeps, fun other bytes => ?_⟩,
    kind?_eq_some_iff.mpr
      ⟨place, .directory, keeps.locate leads, entry?_put_self below, rfl⟩⟩
  by_cases same : other = place
  · rw [same, entry?_put_self below, vacant]
    simp
  · rw [entry?_put_of_ne same]

end Grows

end TokenMacros.FileTree
