import PipelineShell.Program.Stock
import PipelineShell.Session

/-!
# A small world

A session with two programs and one file that is no text, small enough for a whole run to be computed
in a proof. It shows that what is assumed about runs can be had.
-/

namespace PipelineShell.Small

/-- The bytes of the program `cat`. -/
def catImage : Bytes := [99]

/-- The bytes of the program `upper`. -/
def upperImage : Bytes := [117]

/-- Two of the stock programs, under images of one byte. -/
def installation : Installation := fun content =>
  if content = catImage then some Stock.cat
  else if content = upperImage then some Stock.upper
  else none

/-- Two letters, and a byte that stands in no text. -/
def input : Bytes := [104, 105, 255]

def files : FileTree :=
  ⟨[(["cat"], .file catImage 0o755), (["upper"], .file upperImage 0o755),
    (["in"], .file input 0o644)], []⟩

/-- A host that copies what programs write, and that keeps no records. -/
def host : Host := ⟨installation, false, false, 987, .silent⟩

/-- A host that copies what programs write, and whose records of the least level go to a file. -/
def recordingHost : Host := { host with log := .file ["in"] Level.debug.rank }

/-- A host that copies what programs write, and that shows records of the least level. -/
def showingHost : Host := { host with log := .terminal Level.debug.rank }

/-- A session in the root directory with nothing in its environment. -/
def session : Session := ⟨files, "/", [], ⟨[]⟩, [], [], ⟨0, 0⟩, [], ⟨0, 0, 0⟩, []⟩

/-- A session with an empty file and nothing else. -/
def lone : Session := { session with files := ⟨[(["in"], .file [] 0o644)], []⟩ }

/-- A host whose process moves with the shell. -/
def movingHost : Host := { host with movesProcess := true }

/-- A session in a directory that its path leads to through a link. -/
def linked : Session :=
  { session with
    files := ⟨[(["d"], .directory), (["l"], .link "d")], []⟩
    directory := "/l"
    processPlace := ["d"] }

/-- The same session with a directory and a file beside it. -/
def furnished : Session :=
  { linked with
    files := ⟨[(["d"], .directory), (["l"], .link "d"), (["e", "d"], .directory),
      (["f", "d"], .file input 0o644)], []⟩ }

/-- A session with a device on which there is never any space. -/
def full : Session :=
  { session with
    files := ⟨[(["full"], .file [] 0o666)], [(["full"], { Grant.full with fault := some .noSpace })]⟩ }

/-- A session with a file whose set-ID bit goes when it is written. -/
def setId : Session :=
  { session with
    files := ⟨[(["in"], .file input 0o4755)], [(["in"], { Grant.full with strips := true })]⟩ }

/-- The stage `echo a`. -/
def echo : Stage := ⟨["echo", "a"], [], []⟩

/-- The stage `/upper`. -/
def upper : Stage := ⟨["/upper"], [], []⟩

end PipelineShell.Small
