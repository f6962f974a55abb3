import PipelineShell.Quoting

/-!
# Segments

A line cut at the bars that stand outside quotes and are not escaped. The segments keep their
quotes and escapes; with the bars put back they are the line.
-/

namespace PipelineShell

/-- What the rest of a line gives to a reader in the middle of a segment. -/
structure Cut where
  /-- What the rest adds to the segment. -/
  segment : List Char
  /-- The segments after it. -/
  others : List (List Char)
  deriving DecidableEq, Repr

namespace Cut

/-- One more character in front of the segment. -/
def push (c : Char) (cut : Cut) : Cut := { cut with segment := c :: cut.segment }

/-- All the segments. -/
def segments (cut : Cut) : List (List Char) := cut.segment :: cut.others

/-- Cut `line` from the given quotes on. -/
def ofLine : Quoting → List Char → Cut
  | _, [] => ⟨[], []⟩
  | .single, c :: rest =>
    if c = '\'' then (ofLine .bare rest).push c else (ofLine .single rest).push c
  | .double, c :: rest =>
    if c = '"' then (ofLine .bare rest).push c
    else if c = '\\' then
      match rest with
      | [] => ⟨[c], []⟩
      | d :: after => ((ofLine .double after).push d).push c
    else (ofLine .double rest).push c
  | .bare, c :: rest =>
    if c = '\\' then
      match rest with
      | [] => ⟨[c], []⟩
      | d :: after => ((ofLine .bare after).push d).push c
    else if c = '\'' then (ofLine .single rest).push c
    else if c = '"' then (ofLine .double rest).push c
    else if c = '|' then ⟨[], (ofLine .bare rest).segments⟩
    else (ofLine .bare rest).push c

end Cut

/-- The segments of `line`, at least one. -/
def segmentsOf (line : List Char) : List (List Char) := (Cut.ofLine .bare line).segments

theorem segmentsOf_ne_nil (line : List Char) : segmentsOf line ≠ [] := by
  simp [segmentsOf, Cut.segments]

end PipelineShell
