import PipelineShell.FileTree.Lookup

/-!
# Operations on file trees

Reading a file, listing and making directories, opening a file for writing, and writing through a
handle. A failed operation says why; making directories keeps those made before the failure. A write
that fails leaves the file as it is, and `Handle.fault?` says why.
-/

namespace PipelineShell

namespace FileTree

-- ---------------------------------------------------------------------------
-- Reading
-- ---------------------------------------------------------------------------

/-- The bytes of the file that `path` names. -/
def read (t : FileTree) (start : Place) (path : String) : Except Failure Bytes :=
  if hasNul path then .error (.refused .embeddedNul)
  else
    match t.status start path with
    | .error e => .error (.system e)
    | .ok (place, entry) =>
      if (t.grant place).reads = false then .error (.system .permissionDenied)
      else
        match entry with
        | .file content _ => .ok content
        | _ => .error (.system .isDirectory)

/-- The names in the directory that `path` names. -/
def list (t : FileTree) (start : Place) (path : String) : Except Failure (List String) :=
  if hasNul path then .error (.refused .embeddedNul)
  else
    match t.status start path with
    | .error e => .error (.system e)
    | .ok (place, .directory) =>
      if (t.grant place).reads = false then .error (.system .permissionDenied)
      else .ok (t.namesIn place)
    | .ok _ => .error (.system .notDirectory)

-- ---------------------------------------------------------------------------
-- Directories
-- ---------------------------------------------------------------------------

/-- Make the directory `path`; the directory that is to hold it has to be there. -/
def makeDirectory (t : FileTree) (start : Place) (path : String) : Except Failure FileTree :=
  if hasNul path then .error (.refused .embeddedNul)
  else
    match t.locate .name start path with
    | .error e => .error (.system e)
    | .ok (.taken _) => .error (.system .alreadyExists)
    | .ok (.free place) =>
      if (t.grant place.tail).writes = false then .error (.system .permissionDenied)
      else .ok (t.insert place .directory)

/-- Make the directory `path` unless it is there. -/
def ensureDirectory (t : FileTree) (start : Place) (path : String) :
    FileTree × Except Failure Unit :=
  match t.makeDirectory start path with
  | .ok t => (t, .ok ())
  | .error (.refused r) => (t, .error (.refused r))
  | .error (.system e) =>
    if (t.directory? start path).isSome then (t, .ok ()) else (t, .error (.system e))

/-- Make a directory and those above it. The names come with the innermost one first. Where the
name of a directory above is taken by something else, the attempt goes on below it. -/
def ensureDirectories (t : FileTree) (start : Place) (slashes : Nat) :
    List String → FileTree × Except Failure Unit
  | [] => t.ensureDirectory start (Path.spell slashes [])
  | name :: above =>
    let path := Path.spell slashes (name :: above).reverse
    if above = [] ∨ t.pathExists start (Path.spell slashes above.reverse) = true then
      t.ensureDirectory start path
    else
      match ensureDirectories t start slashes above with
      | (t, .ok ()) => t.ensureDirectory start path
      | (t, .error (.system .alreadyExists)) => t.ensureDirectory start path
      | (t, .error failure) => (t, .error failure)

/-- How many directories `ensureDirectories` goes up before it makes the first one. -/
def nesting (t : FileTree) (start : Place) (slashes : Nat) : List String → Nat
  | [] => 0
  | _ :: above =>
    if above = [] ∨ t.pathExists start (Path.spell slashes above.reverse) = true then 0
    else nesting t start slashes above + 1

/-- Make the directories that are to hold `path`, unless it takes more than `limit` steps up to the first
one that is missing. -/
def ensureParents (t : FileTree) (limit : Nat) (start : Place) (path : Path) :
    FileTree × Except Failure Unit :=
  let names := path.names.reverse.tail
  if limit < t.nesting start path.slashes names then (t, .error (.refused .tooDeep))
  else t.ensureDirectories start path.slashes names

end FileTree

-- ---------------------------------------------------------------------------
-- Handles
-- ---------------------------------------------------------------------------

/-- An open file for writing. -/
structure Handle where
  place : Place
  /-- Every write goes to the end. -/
  appends : Bool
  /-- Where the next write goes otherwise. -/
  offset : Nat
  deriving DecidableEq, Repr

namespace FileTree

/-- The mode of a file that is made by opening it. -/
def newFileMode : Nat := 0o644

/-- The mode of the file at a place once it has been emptied or written. -/
def writtenMode (t : FileTree) (place : Place) (mode : Nat) : Nat :=
  if (t.grant place).strips then Entry.withoutSetIds mode else mode

/-- The mode of the file at a place after a write of some bytes: that of none leaves it as it is. -/
def modeAfter (t : FileTree) (place : Place) (bytes : Bytes) (mode : Nat) : Nat :=
  if bytes = [] then mode else t.writtenMode place mode

/-- Open `path` for writing: a missing file is made, and the file is emptied unless writes are to
go to its end. -/
def openFile (t : FileTree) (start : Place) (path : String) (appends : Bool) :
    Except Failure (FileTree × Handle) :=
  if hasNul path then .error (.refused .embeddedNul)
  else
    match t.locate .newFile start path with
    | .error e => .error (.system e)
    | .ok (.free place) =>
      if (t.grant place.tail).writes = false then .error (.system .permissionDenied)
      else .ok (t.insert place (.file [] newFileMode), ⟨place, appends, 0⟩)
    | .ok (.taken place) =>
      match t.find? place with
      | some (.file content mode) =>
        if (t.grant place).writes = false then .error (.system .permissionDenied)
        else
          let entry := if appends then .file content mode else .file [] (t.writtenMode place mode)
          .ok (t.insert place entry, ⟨place, appends, 0⟩)
      | _ => .error (.system .isDirectory)

/-- The bytes `old` with `new` written at `offset`; a gap is filled with zeros. -/
def overlay (old : Bytes) (offset : Nat) (new : Bytes) : Bytes :=
  if new = [] then old
  else old.take offset ++ List.replicate (offset - old.length) 0 ++ new
    ++ old.drop (offset + new.length)

/-- What arrives of some bytes that are written to the file at a place: all of them or nothing. -/
def arriving (t : FileTree) (place : Place) (bytes : Bytes) : Bytes :=
  if (t.grant place).fault = none then bytes else []

end FileTree

namespace Handle

/-- Write bytes through a handle. -/
def write (h : Handle) (t : FileTree) (bytes : Bytes) : FileTree × Handle :=
  match t.find? h.place with
  | some (.file content mode) =>
    let arrived := t.arriving h.place bytes
    let mode := t.modeAfter h.place bytes mode
    if h.appends then (t.insert h.place (.file (content ++ arrived) mode), h)
    else
      (t.insert h.place (.file (FileTree.overlay content h.offset arrived) mode),
        { h with offset := h.offset + arrived.length })
  | _ => (t, h)

/-- Why bytes that are written through a handle do not arrive, if they do not. -/
def fault? (h : Handle) (t : FileTree) (bytes : Bytes) : Option SystemError :=
  if bytes = [] then none else (t.grant h.place).fault

end Handle

-- ---------------------------------------------------------------------------
-- Lemmas
-- ---------------------------------------------------------------------------

namespace FileTree

variable {t t' : FileTree}

theorem writtenMode_congr (h : t'.grants = t.grants) (place : Place) (mode : Nat) :
    t'.writtenMode place mode = t.writtenMode place mode := by
  rw [writtenMode, writtenMode, grant_congr h]

theorem modeAfter_congr (h : t'.grants = t.grants) (place : Place) (bytes : Bytes) (mode : Nat) :
    t'.modeAfter place bytes mode = t.modeAfter place bytes mode := by
  rw [modeAfter, modeAfter, writtenMode_congr h]

theorem arriving_congr (h : t'.grants = t.grants) (place : Place) (bytes : Bytes) :
    t'.arriving place bytes = t.arriving place bytes := by
  rw [arriving, arriving, grant_congr h]

@[simp] theorem arriving_nil (t : FileTree) (place : Place) : t.arriving place [] = [] := by
  unfold arriving
  split <;> rfl

end FileTree

namespace Handle

theorem fault?_congr {t t' : FileTree} (h : t'.grants = t.grants) (handle : Handle) (bytes : Bytes) :
    handle.fault? t' bytes = handle.fault? t bytes := by
  rw [fault?, fault?, FileTree.grant_congr h]

end Handle

end PipelineShell
