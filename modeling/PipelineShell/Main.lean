import PipelineShell.Sample
import PipelineShell.Startup

/-!
# The command

The shell as a command over the sample world: arguments and input come from outside, files and
programs are those of the sample.
-/

namespace PipelineShell

/-- All that is left of a stream. -/
partial def readToEnd (stream : IO.FS.Stream) (soFar : ByteArray) : IO ByteArray := do
  let bytes ← stream.read 65536
  if bytes.isEmpty then return soFar
  readToEnd stream (soFar ++ bytes)

end PipelineShell

open PipelineShell

/-- Run the shell on the arguments. -/
def main (arguments : List String) : IO UInt32 := do
  let input ← readToEnd (← IO.getStdin) ByteArray.empty
  let place := (Sample.files.directory? [] Sample.directory).getD []
  let start := Session.start Sample.files Sample.directory place Sample.environment input.toList
  let (s, ending) := start.runShell Stock.installation Sample.nesting arguments
  (← IO.getStdout).write ⟨s.out.toArray⟩
  (← IO.getStderr).write ⟨s.err.toArray⟩
  match ending with
  | .status status => return (status % 256).toNat.toUInt32
  | .usage status => return status.toUInt32
  | _ => return 1
