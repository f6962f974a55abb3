/-!
# Quoting

Where a reader of a line stands: outside quotes, inside single quotes or inside double quotes.
Single quotes keep everything up to the next single quote. Inside double quotes a backslash
escapes a double quote and a backslash, and stands for itself before anything else. Outside quotes
a backslash escapes whatever follows it.
-/

namespace PipelineShell

/-- The quotes that a reader of a line is inside. -/
inductive Quoting
  | bare
  | single
  | double
  deriving DecidableEq, Repr

/-- The characters that a backslash escapes inside double quotes. -/
def Quoting.escapable (c : Char) : Bool := c = '"' || c = '\\'

end PipelineShell
