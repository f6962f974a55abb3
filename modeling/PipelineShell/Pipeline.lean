import PipelineShell.Redirection
import PipelineShell.Segment
import PipelineShell.Word

/-!
# Pipelines

A line of input as a list of stages. A line of blanks has no stage; every other line has one stage
for each segment between its bars.
-/

namespace PipelineShell

-- ---------------------------------------------------------------------------
-- Stages
-- ---------------------------------------------------------------------------

/-- One command of a pipeline, its redirections set apart. -/
structure Stage where
  /-- The command and its arguments. -/
  argv : List String
  redirections : List Redirection
  diagnostics : List Dangling
  deriving DecidableEq, Repr

namespace Stage

/-- The name of the command; empty for a stage without one. -/
def name (stage : Stage) : String := stage.argv.headD ""

/-- The arguments of the command. -/
def args (stage : Stage) : List String := stage.argv.tail

/-- The redirection that binds `stream`: the last one that names it. -/
def redirection? (stage : Stage) (stream : Stream) : Option Redirection :=
  (stage.redirections.filter fun r => r.operator.stream = stream).getLast?

/-- The stage that some words make. -/
def ofWords (words : List String) : Stage :=
  let e := Extraction.ofWords words
  ⟨e.argv, e.redirections, e.diagnostics⟩

/-- The stage that a segment of a line makes. -/
def ofSegment (segment : List Char) : Stage :=
  ofWords ((wordsOf segment).map String.ofList)

end Stage

-- ---------------------------------------------------------------------------
-- Pipelines
-- ---------------------------------------------------------------------------

/-- Stages in the order in which they run. -/
structure Pipeline where
  stages : List Stage
  deriving DecidableEq, Repr

namespace Pipeline

/-- The pipeline that a line makes. -/
def ofLine (line : String) : Pipeline :=
  if Text.isBlankText line.toList then ⟨[]⟩
  else ⟨(segmentsOf line.toList).map Stage.ofSegment⟩

end Pipeline

-- ---------------------------------------------------------------------------
-- Text
-- ---------------------------------------------------------------------------

/-- A redirection in square brackets, a blank before it. -/
def Redirection.render (r : Redirection) : String :=
  " [" ++ r.operator.stream.name ++ (if r.operator.appends then ">>" else "") ++ " " ++ r.target
    ++ "]"

/-- The words of the command, then the redirections. -/
def Stage.render (stage : Stage) : String :=
  "Stage(" ++ " ".intercalate stage.argv ++ String.join (stage.redirections.map Redirection.render)
    ++ ")"

/-- The stages with bars between them. -/
def Pipeline.render (pipeline : Pipeline) : String :=
  "Pipeline(" ++ " | ".intercalate (pipeline.stages.map Stage.render) ++ ")"

end PipelineShell
