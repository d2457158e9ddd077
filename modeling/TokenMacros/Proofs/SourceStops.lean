import TokenMacros.Proofs.DirectoryOutputs
import TokenMacros.Proofs.RefusedSettings

/-!
# Stopped processing

What stops the processing of sources without an explanation: a source that holds
no text, and an output path that is no path.  Outputs are written on the way,
but they all hold text, so a source that holds none was there from the start.
-/

namespace TokenMacros

variable {initial tree : FileTree} {session : Session} {input output path : Path}

/-! ## Paths of outputs -/

theorem Path.Unnameable.of_parent (unnameable : path.parent.Unnameable) :
    path.Unnameable := by
  obtain ⟨part, member, zero⟩ := unnameable
  exact ⟨part, List.dropLast_subset path.parts member, zero⟩

namespace Session

/-- What stops the processing of sources without an explanation. -/
inductive SourceLapse (tree : FileTree) (input output : Path) : Stop → Prop where
  /-- The input is a file that holds no text. -/
  | input (noText : tree.HoldsNoText input) :
      SourceLapse tree input output (.undecodable input)
  /-- A source below the input directory is a file that holds no text. -/
  | source {path : Path} {below : List String} {place : Location}
      {bytes : ByteArray} (isBelow : path = input.join ⟨"", below⟩)
      (isSource : isSourceName path.name = true)
      (held : tree.entry? place = some (.file bytes))
      (undecodable : Text.decode? bytes = none) :
      SourceLapse tree input output (.undecodable path)
  | output (unnameable : output.Unnameable) :
      SourceLapse tree input output (FileSystem.stopOf (.unnameable output))

end Session

end TokenMacros
