import PipelineShell.Session

/-!
# Commands

What the name of a command stands for: a builtin, a program found by its path or on the search
path, or nothing. Nothing is remembered, the directories are searched each time.
-/

namespace PipelineShell

/-- The commands that the shell carries out itself. -/
inductive Builtin
  | exit
  | echo
  | type
  | pwd
  | cd
  deriving DecidableEq, Repr

namespace Builtin

/-- All builtins. -/
def all : List Builtin := [.exit, .echo, .type, .pwd, .cd]

/-- The name of a builtin. -/
def name : Builtin → String
  | .exit => "exit"
  | .echo => "echo"
  | .type => "type"
  | .pwd => "pwd"
  | .cd => "cd"

/-- The builtin of a name. -/
def ofName? (name : String) : Option Builtin := all.find? fun b => b.name = name

end Builtin

/-- What a name stands for. -/
inductive Command
  | builtin (b : Builtin)
  | program (path : String)
  | unknown
  deriving DecidableEq, Repr

namespace Session

-- ---------------------------------------------------------------------------
-- Finding a program
-- ---------------------------------------------------------------------------

/-- Whether `path` names a file that its owner may execute. -/
def isExecutable (s : Session) (path : String) : Except Refusal Bool :=
  if hasNul path then .error .embeddedNul
  else
    match s.files.status s.processPlace path with
    | .ok (_, .file _ mode) => .ok (Entry.ownerExecutes mode)
    | _ => .ok false

/-- Where a directory of the search path has the program `name`. -/
def candidate (s : Session) (directory name : String) : String :=
  Path.append (s.resolvePath directory).text name

/-- The first of some directories that has the program `name`, as the path of the program. -/
def search (s : Session) (name : String) : List String → Except Refusal (Option String)
  | [] => .ok none
  | directory :: rest =>
    match s.isExecutable (s.candidate directory name) with
    | .error r => .error r
    | .ok true => .ok (some (s.candidate directory name))
    | .ok false => search s name rest

/-- The path of the program `name`. A name with a slash is a path itself. -/
def findProgram (host : Host) (s : Session) (name : String) :
    Session × Except Refusal (Option String) :=
  if name = "" then (s, .ok none)
  else if name.toList.contains '/' then
    let path := (s.resolvePath name).text
    (s, (s.isExecutable path).map fun found => if found then some path else none)
  else
    match s.search name s.searchPath with
    | .ok (some path) => (s.note host (.resolved name path), .ok (some path))
    | answer => (s, answer)

/-- What `name` stands for. -/
def findCommand (host : Host) (s : Session) (name : String) :
    Session × Except Refusal Command :=
  match Builtin.ofName? name with
  | some b => (s, .ok (.builtin b))
  | none =>
    match s.findProgram host name with
    | (s, .error r) => (s, .error r)
    | (s, .ok (some path)) => (s, .ok (.program path))
    | (s, .ok none) => (s.note host (.notFound name), .ok .unknown)

-- ---------------------------------------------------------------------------
-- Listing programs
-- ---------------------------------------------------------------------------

/-- A name put in its place in an increasing list, unless it is there. -/
def insertName (name : String) : List String → List String
  | [] => [name]
  | head :: rest =>
    if name < head then name :: head :: rest
    else if name = head then head :: rest
    else head :: insertName name rest

/-- Names in increasing order of code points, each once. -/
def sortNames (names : List String) : List String := names.foldr insertName []

theorem mem_insertName {name n : String} {names : List String} :
    n ∈ insertName name names ↔ n = name ∨ n ∈ names := by
  induction names with
  | nil => simp [insertName]
  | cons head rest ih =>
    simp only [insertName]
    split
    · simp
    · split
      · next h =>
        subst h
        simp
      · simp only [List.mem_cons, ih]
        constructor
        · rintro (h | h | h)
          · exact .inr (.inl h)
          · exact .inl h
          · exact .inr (.inr h)
        · rintro (h | h | h)
          · exact .inr (.inl h)
          · exact .inl h
          · exact .inr (.inr h)

@[simp] theorem mem_sortNames {n : String} {names : List String} :
    n ∈ sortNames names ↔ n ∈ names := by
  induction names with
  | nil => simp [sortNames]
  | cons head rest ih =>
    have h : sortNames (head :: rest) = insertName head (sortNames rest) := rfl
    simp [h, mem_insertName, ih]

/-- The names in a directory that are programs there. -/
def programsAmong (s : Session) (directory : String) : List String → Except Refusal (List String)
  | [] => .ok []
  | name :: rest =>
    match s.isExecutable (Path.append directory name), programsAmong s directory rest with
    | .error r, _ => .error r
    | .ok _, .error r => .error r
    | .ok true, .ok names => .ok (name :: names)
    | .ok false, .ok names => .ok names

/-- The names of the programs in the directories that some paths lead to. One that cannot be listed is
passed over. -/
def programsIn (host : Host) (s : Session) : List String → Session × Except Refusal (List String)
  | [] => (s, .ok [])
  | path :: rest =>
    match s.files.list s.processPlace path with
    | .error (.refused r) => (s, .error r)
    | .error (.system e) => programsIn host (s.note host (.skipped path e)) rest
    | .ok names =>
      match s.programsAmong path names with
      | .error r => (s, .error r)
      | .ok here =>
        match programsIn host s rest with
        | (s, .error r) => (s, .error r)
        | (s, .ok others) => (s, .ok (here ++ others))

/-- The names of all programs on the search path, in order, each once. -/
def listPrograms (host : Host) (s : Session) : Session × Except Refusal (List String) :=
  match s.programsIn host (s.searchPath.map fun directory => (s.resolvePath directory).text) with
  | (s, .ok names) => (s, .ok (sortNames names))
  | (s, .error r) => (s, .error r)

end Session

end PipelineShell
