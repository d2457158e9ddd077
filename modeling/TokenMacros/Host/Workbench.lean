import TokenMacros.Host.Console
import TokenMacros.Host.FileTree
import TokenMacros.Host.Machine

/-!
# Workbenches

A host as a value: a file tree, what was printed so far, and a machine whose
clock stands still.  Whatever the program does to its host it does to a
workbench as a function of the workbench alone.
-/

namespace TokenMacros

structure Workbench where
  tree : FileTree := {}
  output : String := ""
  errors : String := ""
  isTerminal : Bool := false
  /-- What the machine says about itself. -/
  facts : List (String × String) := []

namespace Workbench

def print (bench : Workbench) (stream : Stream) (text : String) : Workbench :=
  match stream with
  | .output => { bench with output := bench.output ++ text }
  | .errors => { bench with errors := bench.errors ++ text }

/-- Performs an operation on the file tree. -/
def onTree {α : Type} (operation : StateM FileTree α) :
    StateM Workbench α := fun bench =>
  let (answer, tree) := operation.run bench.tree
  (answer, { bench with tree := tree })

instance : FileSystem (StateM Workbench) where
  kind? path := onTree (FileSystem.kind? path)
  read path := onTree (FileSystem.read path)
  write path bytes := onTree (FileSystem.write path bytes)
  makeDirectory path := onTree (FileSystem.makeDirectory path)
  names path := onTree (FileSystem.names path)
  descendants path := onTree (FileSystem.descendants path)

instance : Console (StateM Workbench) where
  print stream text := modify (·.print stream text)
  isTerminal _ := return (← get).isTerminal

instance : Machine (StateM Workbench) where
  now := return 0
  facts := return (← get).facts

end Workbench

end TokenMacros
