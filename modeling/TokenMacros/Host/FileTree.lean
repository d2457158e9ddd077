import TokenMacros.Host.FileSystem

/-!
# File trees

A file system as a value: what is below one top directory, by location, and the
location that relative paths start from.  Paths are followed component by
component; every component but the last must lead to a directory, and double
dots lead to the one above.
-/

namespace TokenMacros

/-- A place in a tree: the components from the top down. -/
abbrev Location := List String

/-- What is at a place. -/
inductive Entry where
  | file (bytes : ByteArray)
  | directory

def Entry.kind : Entry → EntryKind
  | .file _ => .file
  | .directory => .directory

/-- The places of a tree that hold something, below its top. -/
structure FileTree where
  entries : List (Location × Entry) := []
  /-- Where relative paths start. -/
  workplace : Location := []

namespace FileTree

/-- What is at a place.  The top is a directory. -/
def entry? (tree : FileTree) (location : Location) : Option Entry :=
  if location.isEmpty then some .directory else tree.entries.lookup location

/-- Puts an entry at a place. -/
def put (tree : FileTree) (location : Location) (entry : Entry) : FileTree :=
  { tree with entries := (location, entry) :: tree.entries.filter (·.1 != location) }

/-- Puts an entry at a place, and directories above it where there is nothing.
-/
def plant (tree : FileTree) (location : Location) (entry : Entry) : FileTree :=
  let above := (List.range location.length).map location.take
  let tree := above.foldl
    (fun tree place => if (tree.entry? place).isSome then tree else tree.put place .directory) tree
  if (tree.entry? location).isSome && entry.kind = .directory then tree else tree.put location entry

def maxNameBytes : Nat := 255

def maxPathBytes : Nat := 4095

/-- Follows components from a place. -/
def follow (tree : FileTree) (path : Path) : Location → List String →
    Except SystemFailure Location
  | location, [] => .ok location
  | location, part :: parts =>
    match tree.entry? location with
    | none => .error (.notFound path)
    | some (.file _) => .error (.notDirectory path)
    | some .directory =>
      if part == ".." then
        tree.follow path location.dropLast parts
      else if maxNameBytes < part.utf8ByteSize then .error (.nameTooLong path)
      else tree.follow path (location ++ [part]) parts

/-- The place that a path leads to.  There may be nothing there, but there is a
directory above it. -/
def locate (tree : FileTree) (path : Path) : Except SystemFailure Location :=
  if path.parts.any (·.toList.contains '\x00') then .error (.unnameable path)
  else if maxPathBytes < path.toString.utf8ByteSize then .error (.nameTooLong path)
  else tree.follow path (if path.root == "" then tree.workplace else []) path.parts

/-- What a path leads to. -/
def kind? (tree : FileTree) (path : Path) :
    Except SystemFailure (Option EntryKind) :=
  match tree.locate path with
  | .ok location => .ok ((tree.entry? location).map Entry.kind)
  | .error (.nameTooLong path) => .error (.nameTooLong path)
  | .error _ => .ok none

def read (tree : FileTree) (path : Path) : Except SystemFailure ByteArray := do
  match tree.entry? (← tree.locate path) with
  | some (.file bytes) => return bytes
  | some .directory => throw (.isDirectory path)
  | none => throw (.notFound path)

def write (tree : FileTree) (path : Path) (bytes : ByteArray) :
    Except SystemFailure FileTree := do
  let location ← tree.locate path
  match tree.entry? location with
  | some .directory => throw (.isDirectory path)
  | _ => return tree.put location (.file bytes)

def makeDirectory (tree : FileTree) (path : Path) :
    Except SystemFailure FileTree := do
  let location ← tree.locate path
  match tree.entry? location with
  | some _ => throw (.exists path)
  | none => return tree.put location .directory

/-- The entries below a place, each with its components from there on. -/
def below (tree : FileTree) (location : Location) : List (List String) :=
  tree.entries.filterMap fun (place, _) =>
    if location.isPrefixOf place && place != location then some (place.drop location.length)
    else none

def names (tree : FileTree) (path : Path) :
    Except SystemFailure (List String) := do
  let location ← tree.locate path
  return (tree.below location).filterMap fun
    | [name] => some name
    | _ => none

/-- The paths of all that is in a directory and in those within. -/
def descendants (tree : FileTree) (path : Path) :
    Except SystemFailure (List Path) := do
  let location ← tree.locate path
  return (tree.below location).map fun parts => path.join ⟨"", parts⟩

/-- An operation that changes the tree, or leaves it when it is refused. -/
def update (change : FileTree → Except SystemFailure FileTree) :
    StateM FileTree (Except SystemFailure Unit) := fun tree =>
  match change tree with
  | .ok changed => (.ok (), changed)
  | .error failure => (.error failure, tree)

instance : FileSystem (StateM FileTree) where
  kind? path := return (← get).kind? path
  read path := return (← get).read path
  write path bytes := update (·.write path bytes)
  makeDirectory path := update (·.makeDirectory path)
  names path := return (← get).names path
  descendants path := return (← get).descendants path

end FileTree

end TokenMacros
