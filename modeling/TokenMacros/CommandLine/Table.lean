/-!
# Tables of text

Rows of cells under each other.  Every cell is filled with spaces to the width
of its column, which is that of the widest cell, and columns are two spaces
apart.
-/

namespace TokenMacros.Table

def padded (width : Nat) (cell : String) : String :=
  cell ++ String.ofList (List.replicate (width - cell.length) ' ')

/-- The widths of the columns of a header and of rows that are as long as it. -/
def widths (header : List String) (rows : List (List String)) : List Nat :=
  rows.foldl (fun widths row => widths.zipWith max (row.map String.length))
    (header.map String.length)

def line (widths : List Nat) (row : List String) : String :=
  String.intercalate "  " (widths.zipWith padded row)

def lines (header : List String) (rows : List (List String)) : List String :=
  (header :: rows).map (line (widths header rows))

end TokenMacros.Table
