/-!
# Ranges of code points

A class of characters is a table of closed ranges of code points.
-/

namespace PipelineShell.Text

/-- Whether `n` lies in one of the closed ranges of `table`. -/
def inRanges (table : List (Nat × Nat)) (n : Nat) : Bool :=
  table.any fun range => decide (range.1 ≤ n) && decide (n ≤ range.2)

end PipelineShell.Text
