import PipelineShell.FileTree.Lookup
import PipelineShell.Program.Basic

/-!
# Executables

What the system starts when it is asked to start a file: the program that the file is, or, for a
script, the interpreter that its first line names. Only the head of a file is looked at for that
line, and scripts stand for one another only so many times.
-/

namespace PipelineShell.FileTree

-- ---------------------------------------------------------------------------
-- Scripts
-- ---------------------------------------------------------------------------

/-- How many bytes after the mark of a script are looked at. -/
def headSize : Nat := 254

/-- A space or a tabulator. -/
def isGap (b : UInt8) : Bool := b = 32 || b = 9

/-- Whether a name ends before this byte. -/
def endsName (b : UInt8) : Bool := isGap b || b = 0

/-- Bytes without the gaps at both ends. -/
def trimGaps (bytes : Bytes) : Bytes :=
  ((bytes.dropWhile isGap).reverse.dropWhile isGap).reverse

/-- The first line in the head of a script, the mark taken away. A file that ends early is followed
by zeros. Without a line feed the line runs to the last byte but one, provided that its first name
has an end. -/
def firstLine? (rest : Bytes) : Option Bytes :=
  let head := (rest ++ List.replicate headSize 0).take headSize
  if 10 ∈ head then some (head.takeWhile (· ≠ 10))
  else if (head.dropWhile isGap).any endsName then some head.dropLast
  else none

/-- What stands after the name in a line: one argument, if there is any after a gap. A zero ends
it. -/
def argumentOf : Bytes → List Bytes
  | [] => []
  | b :: rest => if isGap b then [(rest.dropWhile isGap).takeWhile (· ≠ 0)] else []

/-- The path that a name in a line stands for: an empty one is the working directory. A byte that
is no text becomes a NUL, which stands in no name either. -/
def interpreterPath (name : Bytes) : String := if name = [] then "." else Text.decodeNul name

/-- The name of the interpreter that a script asks for, with its argument if there is one. -/
def interpreter? (content : Bytes) : Option (Bytes × List Bytes) :=
  match content with
  | 35 :: 33 :: rest =>
    match (firstLine? rest).map trimGaps with
    | none => none
    | some [] => none
    | some line =>
      some (line.takeWhile fun b => !endsName b, argumentOf (line.dropWhile fun b => !endsName b))
  | _ => none

-- ---------------------------------------------------------------------------
-- Starting a file
-- ---------------------------------------------------------------------------

/-- The most scripts that may stand for one another. -/
def maxScripts : Nat := 5

/-- The longest text that a program can be handed, in bytes. -/
def maxArgument : Nat := 131071

/-- The bytes of a file that may be started. One in `busy` is open for writing. -/
def openExecutable (t : FileTree) (busy : List Place) (start : Place) (path : String) :
    Except SystemError Bytes :=
  match t.status start path with
  | .error e => .error e
  | .ok (place, .file content mode) =>
    if Entry.someoneExecutes mode = false ∨ (t.grant place).enters = false then
      .error .permissionDenied
    else if place ∈ busy then .error .textBusy
    else .ok content
  | .ok _ => .error .permissionDenied

/-- The program that a file of the given bytes is, and what it is called with. A script is run by
its interpreter, and so is a program in the end, which takes one turn more. -/
def programOf (t : FileTree) (installation : Installation) (busy : List Place) (start : Place) :
    Nat → Bytes → Bytes → List Bytes → Except SystemError (Program × List Bytes)
  | scripts, content, path, argv =>
    match installation content, interpreter? content, scripts with
    | some _, _, 0 => .error .tooManyLinks
    | some program, _, _ + 1 => .ok (program, argv)
    | none, none, _ => .error .badFormat
    | none, some (name, argument), scripts =>
      match t.openExecutable busy start (interpreterPath name), scripts with
      | .error e, _ => .error e
      | .ok _, 0 => .error .tooManyLinks
      | .ok content, scripts + 1 =>
        programOf t installation busy start scripts content name
          (name :: argument ++ path :: argv.tail)

/-- The program that the file `path` is as seen from the place `start`, and what it is called
with, for a program that is handed the given texts. -/
def executableFor (t : FileTree) (installation : Installation) (busy : List Place) (start : Place)
    (texts : List String) (path : String) (argv : List Bytes) :
    Except SystemError (Program × List Bytes) :=
  match t.openExecutable busy start path with
  | .error e => .error e
  | .ok content =>
    if texts.any fun text => maxArgument < (Text.encode text).length then .error .listTooLong
    else t.programOf installation busy start maxScripts content (Text.encode path) argv

/-- The first of some paths that can be started. Where none can, the first reason other than a
missing file counts, or else the last one. -/
def firstExecutable (start : String → Except SystemError (Program × List Bytes)) :
    Option SystemError → SystemError → List String → Except SystemError (Program × List Bytes)
  | some kept, _, [] => .error kept
  | none, last, [] => .error last
  | kept, _, path :: rest =>
    match start path with
    | .ok found => .ok found
    | .error e =>
      if e = .noEntry ∨ e = .notDirectory then firstExecutable start kept e rest
      else firstExecutable start (kept.or (some e)) e rest

-- ---------------------------------------------------------------------------
-- Lemmas
-- ---------------------------------------------------------------------------

/-- One turn of `programOf`, with what the turns that are left decide looked at last. -/
theorem programOf_eq (t : FileTree) (installation : Installation) (busy : List Place) (start : Place)
    (scripts : Nat) (content path : Bytes) (argv : List Bytes) :
    t.programOf installation busy start scripts content path argv =
      match installation content, interpreter? content with
      | some program, _ => if scripts = 0 then .error .tooManyLinks else .ok (program, argv)
      | none, none => .error .badFormat
      | none, some (name, argument) =>
        match t.openExecutable busy start (interpreterPath name) with
        | .error e => .error e
        | .ok content =>
          match scripts with
          | 0 => .error .tooManyLinks
          | scripts + 1 =>
            t.programOf installation busy start scripts content name
              (name :: argument ++ path :: argv.tail) := by
  rw [programOf.eq_def]
  simp only
  cases installation content with
  | some program => cases scripts <;> rfl
  | none =>
    cases interpreter? content with
    | none => rfl
    | some asked =>
      obtain ⟨name, argument⟩ := asked
      simp only
      cases t.openExecutable busy start (interpreterPath name) <;> cases scripts <;> rfl

end PipelineShell.FileTree
