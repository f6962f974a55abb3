import PipelineShell.FileTree.Executable
import PipelineShell.Session

/-!
# Launching programs

Starting one program and waiting for its end. `FileTree.executable` finds the program that an
order means, `Session.launch` feeds it, carries out its writes and keeps count, and
`Session.resetTally` starts the count again.
-/

namespace PipelineShell

-- ---------------------------------------------------------------------------
-- Orders
-- ---------------------------------------------------------------------------

/-- Where the input of a program comes from. -/
inductive Feed
  | nothing
  | bytes (input : Bytes)
  | terminal
  deriving DecidableEq, Repr

/-- Where an output stream of a program goes. -/
inductive Outlet
  | file (h : Handle)
  /-- Into the answer. -/
  | pipe
  | terminal
  | nowhere
  deriving DecidableEq, Repr

/-- The handle of an outlet that is a file. -/
def Outlet.handle? : Outlet → Option Handle
  | .file h => some h
  | _ => none

/-- An order to start a program. -/
structure Order where
  /-- The file to start. -/
  path : String
  argv : List String
  directory : String
  environment : Environment
  feed : Feed
  out : Outlet
  err : Outlet

/-- Why an order cannot be carried out. -/
inductive LaunchFailure
  | refused (refusal : Refusal)
  /-- The system gives a reason that concerns the path `about`. -/
  | system (error : SystemError) (about : String)
  deriving DecidableEq, Repr

/-- What became of a program. -/
structure Outcome where
  status : Int
  /-- What went into the pipes. -/
  out : Option Bytes
  err : Option Bytes
  deriving DecidableEq, Repr

-- ---------------------------------------------------------------------------
-- From orders to programs
-- ---------------------------------------------------------------------------

namespace FileTree

/-- The paths that an order may mean: one with a slash is meant as it is, any other is looked for
in the search path of the program's environment. -/
def launchPaths (order : Order) : List String :=
  if order.path.toList.contains '/' then [order.path]
  else
    ((Text.fields ':' ((order.environment.find? "PATH").getD "/bin:/usr/bin").toList).map
      String.ofList).map (Path.append · order.path)

/-- What a program is handed: its arguments, and its variables with their values. -/
def handed (order : Order) : List String :=
  order.argv ++ order.environment.bindings.map fun v => v.1 ++ "=" ++ v.2

/-- The program that an order means, with what it is called with and its working directory. A
failure comes with the path that it concerns. -/
def executable (t : FileTree) (installation : Installation) (busy : List Place) (start : Place)
    (order : Order) : Except (SystemError × String) (Program × List Bytes × Place) :=
  match t.status start order.directory with
  | .error e => .error (e, order.directory)
  | .ok (place, .directory) =>
    if (t.grant place).enters = false then .error (.permissionDenied, order.directory)
    else
      let start := fun path =>
        t.executableFor installation busy place (handed order) path (order.argv.map Text.encode)
      match firstExecutable start none .noEntry (launchPaths order) with
      | .error e => .error (e, order.path)
      | .ok (program, argv) => .ok (program, argv, place)
  | .ok _ => .error (.notDirectory, order.directory)

end FileTree

/-- What is wrong with an order before the system sees it. -/
def Order.refusal? (order : Order) : Option Refusal :=
  if order.environment.bindings.any fun v => v.1.toList.contains '=' then some .illegalName
  else if hasNul order.path || order.argv.any hasNul || hasNul order.directory
      || order.environment.bindings.any fun v => hasNul v.1 || hasNul v.2 then
    some .embeddedNul
  else none

-- ---------------------------------------------------------------------------
-- Launching
-- ---------------------------------------------------------------------------

/-- Carry out writes to files, in order. Writes to a sink without a handle go elsewhere. -/
def FileTree.carry (t : FileTree) : Option Handle → Option Handle → List (Sink × Bytes) → FileTree
  | _, _, [] => t
  | out, err, (.out, bytes) :: rest =>
    match out with
    | none => carry t out err rest
    | some h =>
      let (t, h) := h.write t bytes
      carry t (some h) err rest
  | out, err, (.err, bytes) :: rest =>
    match err with
    | none => carry t out err rest
    | some h =>
      let (t, h) := h.write t bytes
      carry t out (some h) rest

/-- What an outlet puts into the answer. -/
def Outlet.captured (outlet : Outlet) (bytes : Bytes) : Option Bytes :=
  if outlet = .pipe then some bytes else none

namespace Session

/-- The files that are open for writing while an order is carried out. -/
def busyPlaces (host : Host) (order : Order) : List Place :=
  (order.out.handle?.toList ++ order.err.handle?.toList).map Handle.place ++
    match host.log with
    | .file place _ => [place]
    | _ => []

/-- The bytes that a program finds on its input. -/
def feedBytes (s : Session) : Feed → Bytes
  | .nothing => []
  | .bytes input => input
  | .terminal => s.input

/-- A text with `bytes` put in before the last `held` bytes. -/
def slipIn (text : Bytes) (held : Nat) (bytes : Bytes) : Bytes :=
  text.take (text.length - held) ++ bytes ++ text.drop (text.length - held)

/-- Let a program that has started do its work. What it writes to the terminal comes there before
what the shell holds back. -/
def carryOut (s : Session) (order : Order) (p : Performance) : Session :=
  { s with
    files := s.files.carry order.out.handle? order.err.handle? p.writes
    out := if order.out = .terminal then slipIn s.out s.held.out (p.written .out) else s.out
    err := if order.err = .terminal then slipIn s.err s.held.err (p.written .err) else s.err
    input := if order.feed = .terminal then s.input.drop p.taken else s.input }

/-- Start a program and wait for its end. The end of a program without a name is not noted. -/
def launch (host : Host) (s : Session) (order : Order) :
    Session × Except LaunchFailure Outcome :=
  let s := { s with tally := { s.tally with total := s.tally.total + 1 } }
  let s := s.note host (.starting order.path order.argv)
  match order.refusal? with
  | some r => (s, .error (.refused r))
  | none =>
    match s.files.executable host.installation (busyPlaces host order) s.processPlace order with
    | .error (e, about) =>
      let s := { s with tally := { s.tally with failed := s.tally.failed + 1 } }
      (s.note host (.startFailed order.path e about), .error (.system e about))
    | .ok (program, argv, place) =>
      let s := { s with tally := { s.tally with spawned := s.tally.spawned + 1 } }
      let p := program ⟨argv, order.environment, Place.text place, s.feedBytes order.feed⟩
      let s := s.carryOut order p
      let s := s.noteAll host (order.argv.head?.toList.map (.ended · p.status))
      (s, .ok ⟨p.status, order.out.captured (p.written .out), order.err.captured (p.written .err)⟩)

/-- Start the count of starts again. -/
def resetTally (s : Session) : Session := { s with tally := ⟨0, 0, 0⟩ }

end Session

end PipelineShell
