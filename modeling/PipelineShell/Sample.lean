import PipelineShell.FileTree.Edit
import PipelineShell.Program.Stock
import PipelineShell.Environment

/-!
# A sample world

A small file tree below one directory, with the stock programs installed, for a session to run in.
-/

namespace PipelineShell.Sample

/-- The directory that holds the sample. -/
def top : Place := ["ROOT"]

/-- Where the device is on which there is never any space. -/
def fullDevice : Place := ["full", "dev"]

/-- A tree with nothing but the top directory and the full device. -/
def bare : FileTree :=
  ⟨[(top, .directory), (fullDevice.tail, .directory), (fullDevice, .file [] 0o666)],
    [(fullDevice, { Grant.full with fault := some .noSpace })]⟩

/-- The mode of a program. -/
def programMode : Nat := 0o755

/-- The sample tree. -/
def files : FileTree :=
  let t := ["work/sub/deep", "home/projects", "empty", "bin2", "bin/adir"].foldl
    (fun t path => t.putDirectory top path) bare
  let t := [("work/in.txt", Text.encode "line one\nline two\n"),
      ("work/nonl.txt", Text.encode "no newline"), ("work/zero", []),
      ("work/bin.dat", [0x00, 0xff, 0x80, 0xc3, 0x28, 0xe2, 0x82])].foldl
    (fun t file => t.putFile top file.1 file.2 FileTree.newFileMode) t
  let t := [("bin/cat", "cat"), ("bin/upper", "upper"), ("bin/wc", "wc"), ("bin/emit", "emit"),
      ("bin2/emit", "emit"), ("bin2/noexec", "cat")].foldl
    (fun t file => t.putFile top file.1 (Stock.image file.2) programMode) t
  let t := t.putFile top "bin/noexec" (Stock.image "cat") FileTree.newFileMode
  t.putFile top "bin/broken" (Text.encode "not a program\x00\x01") programMode

/-- The environment that goes with the sample tree. -/
def environment : Environment := ⟨[("PATH", "/ROOT/bin"), ("HOME", "/ROOT/home")]⟩

/-- How far up the shell goes to the first directory that it makes when it runs one line. -/
def nesting : Nat := 987

/-- The directory to start in. -/
def directory : String := "/ROOT/work"

end PipelineShell.Sample
