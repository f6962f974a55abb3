import PipelineShell.FileTree.Operation
import PipelineShell.Journal
import PipelineShell.Program.Basic

/-!
# Sessions

The state that the lines of a session share, and what never changes while a session lasts.
-/

namespace PipelineShell

-- ---------------------------------------------------------------------------
-- Hosts
-- ---------------------------------------------------------------------------

/-- Where the records of a session go. A threshold is the rank of the least level that counts. -/
inductive Log
  /-- Nowhere. -/
  | silent
  /-- To the error stream of the terminal. -/
  | terminal (threshold : Nat)
  /-- To the end of a file. -/
  | file (place : Place) (threshold : Nat)
  deriving DecidableEq, Repr

/-- What a session runs on. -/
structure Host where
  /-- The files that are programs. -/
  installation : Installation
  /-- Programs share the terminal of the shell; otherwise the shell copies what they write. -/
  sharesTerminal : Bool
  /-- The working directory of the process follows that of the shell. -/
  movesProcess : Bool
  /-- How far up the shell goes, at most, to the first directory that it makes for a path. -/
  nesting : Nat
  log : Log

-- ---------------------------------------------------------------------------
-- State
-- ---------------------------------------------------------------------------

/-- How often programs were started. -/
structure Tally where
  spawned : Nat
  failed : Nat
  total : Nat
  deriving DecidableEq, Repr

/-- How many of the last bytes for the terminal the shell still holds back, on either stream. -/
structure Held where
  out : Nat
  err : Nat
  deriving DecidableEq, Repr

/-- The state of a session. -/
structure Session where
  files : FileTree
  /-- The working directory of the shell, as it is shown. -/
  directory : String
  /-- The working directory of the process. -/
  processPlace : Place
  environment : Environment
  /-- What the terminal has received, and after it what the shell holds back. -/
  out : Bytes
  /-- What the error stream of the terminal has received, and after it what the shell holds back. -/
  err : Bytes
  held : Held
  /-- What nobody has taken from the terminal's input. -/
  input : Bytes
  tally : Tally
  /-- The events so far, in order. -/
  journal : List Event
  deriving DecidableEq, Repr

/-- Why a line ends before its last stage does. -/
inductive Stop
  /-- The exit builtin ran. -/
  | leave (code : Nat)
  /-- A redirection failed. -/
  | badRedirection (command target : String) (error : SystemError)
  /-- A text did not arrive in the file that a redirection had opened. -/
  | unwritten (error : SystemError)
  /-- The system was asked for something that cannot be put to it. -/
  | refused (refusal : Refusal)
  deriving DecidableEq, Repr

namespace Session

/-- Write to the terminal. The text is held back until the stream is flushed. -/
def print (s : Session) (text : Bytes) : Session :=
  { s with
    out := s.out ++ text
    held := { s.held with out := s.held.out + text.length } }

/-- Write to the error stream of the terminal, as to the other one. -/
def printError (s : Session) (text : Bytes) : Session :=
  { s with
    err := s.err ++ text
    held := { s.held with err := s.held.err + text.length } }

/-- Let go of what is held back on the output stream. -/
def flushOutput (s : Session) : Session := { s with held := { s.held with out := 0 } }

/-- Let go of what is held back on the error stream. -/
def flushError (s : Session) : Session := { s with held := { s.held with err := 0 } }

/-- Let go of all that is held back. -/
def flush (s : Session) : Session := { s with held := ⟨0, 0⟩ }

/-- Write to a file through a handle that is used once. -/
def writeFile (s : Session) (h : Handle) (bytes : Bytes) : Session :=
  { s with files := (h.write s.files bytes).1 }

/-- Note an event, and log it where the host wants it. -/
def note (host : Host) (s : Session) (event : Event) : Session :=
  let s := { s with journal := s.journal ++ [event] }
  match host.log with
  | .silent => s
  | .terminal threshold =>
    if threshold ≤ event.level.rank then (s.printError (Text.encode event.line)).flushError else s
  | .file place threshold =>
    if threshold ≤ event.level.rank then s.writeFile ⟨place, true, 0⟩ (Text.encode event.line)
    else s

/-- Note events one after the other. -/
def noteAll (host : Host) (s : Session) (events : List Event) : Session :=
  events.foldl (note host) s

/-- Report on the error stream of the terminal. -/
def report (s : Session) (d : Diagnosis) : Session := s.printError (Text.encode d.line)

/-- `path` as seen from the working directory of the shell. -/
def resolvePath (s : Session) (path : String) : Path := Path.resolve s.directory path

/-- The home directory; empty if there is none. -/
def home (s : Session) : String := (s.environment.find? "HOME").getD ""

/-- The home directory in place of a tilde that stands alone or before a slash. -/
def expandHome (s : Session) (path : String) : String :=
  match path.toList with
  | ['~'] => s.home
  | '~' :: '/' :: rest => s.home ++ String.ofList ('/' :: rest)
  | _ => path

/-- The directories of the search path, in order. -/
def searchPath (s : Session) : List String :=
  ((Text.fields ':' ((s.environment.find? "PATH").getD "").toList).map String.ofList).filter
    (· ≠ "")

/-- Move the working directory. The answer is what is wrong with the target, if anything is. A process
that is to follow looks into the directory that it moves to, and where it may not, nothing moves. -/
def changeDirectory (host : Host) (s : Session) (path : String) :
    Session × Option SystemError :=
  let target := (s.resolvePath path).text
  if s.files.pathExists s.processPlace target then
    match s.files.directory? s.processPlace target with
    | none => (s, some .notDirectory)
    | some place =>
      if host.movesProcess = true ∧ (s.files.grant place).enters = false then
        (s, some .permissionDenied)
      else
        ({ s with
            directory := target
            processPlace := if host.movesProcess then place else s.processPlace }, none)
  else (s, some .noEntry)

-- ---------------------------------------------------------------------------
-- Lemmas
-- ---------------------------------------------------------------------------

/-- A note may go to the error stream or to a file, and changes nothing else. -/
theorem note_changes (host : Host) (s : Session) (event : Event) :
    ∃ files err held, s.note host event =
      { s with files := files, err := err, held := held, journal := s.journal ++ [event] } := by
  unfold note
  split
  · exact ⟨_, _, _, rfl⟩
  · split <;> exact ⟨_, _, _, rfl⟩
  · split <;> exact ⟨_, _, _, rfl⟩

@[simp] theorem note_journal (host : Host) (s : Session) (event : Event) :
    (s.note host event).journal = s.journal ++ [event] := by
  obtain ⟨files, err, held, h⟩ := note_changes host s event
  rw [h]

@[simp] theorem note_directory (host : Host) (s : Session) (event : Event) :
    (s.note host event).directory = s.directory := by
  obtain ⟨files, err, held, h⟩ := note_changes host s event
  rw [h]

@[simp] theorem note_processPlace (host : Host) (s : Session) (event : Event) :
    (s.note host event).processPlace = s.processPlace := by
  obtain ⟨files, err, held, h⟩ := note_changes host s event
  rw [h]

@[simp] theorem note_environment (host : Host) (s : Session) (event : Event) :
    (s.note host event).environment = s.environment := by
  obtain ⟨files, err, held, h⟩ := note_changes host s event
  rw [h]

@[simp] theorem note_tally (host : Host) (s : Session) (event : Event) :
    (s.note host event).tally = s.tally := by
  obtain ⟨files, err, held, h⟩ := note_changes host s event
  rw [h]

@[simp] theorem note_out (host : Host) (s : Session) (event : Event) :
    (s.note host event).out = s.out := by
  obtain ⟨files, err, held, h⟩ := note_changes host s event
  rw [h]

@[simp] theorem note_input (host : Host) (s : Session) (event : Event) :
    (s.note host event).input = s.input := by
  obtain ⟨files, err, held, h⟩ := note_changes host s event
  rw [h]

theorem noteAll_changes (host : Host) (s : Session) (events : List Event) :
    ∃ files err held, s.noteAll host events =
      { s with files := files, err := err, held := held, journal := s.journal ++ events } := by
  induction events generalizing s with
  | nil => exact ⟨s.files, s.err, s.held, by rw [List.append_nil]; rfl⟩
  | cons event rest ih =>
    obtain ⟨files, err, held, h⟩ := note_changes host s event
    obtain ⟨files', err', held', h'⟩ := ih (s.note host event)
    refine ⟨files', err', held', ?_⟩
    change (s.note host event).noteAll host rest = _
    rw [h', h]
    simp only [List.append_assoc, List.singleton_append]

@[simp] theorem noteAll_journal (host : Host) (s : Session) (events : List Event) :
    (s.noteAll host events).journal = s.journal ++ events := by
  obtain ⟨files, err, held, h⟩ := noteAll_changes host s events
  rw [h]

@[simp] theorem noteAll_tally (host : Host) (s : Session) (events : List Event) :
    (s.noteAll host events).tally = s.tally := by
  obtain ⟨files, err, held, h⟩ := noteAll_changes host s events
  rw [h]

@[simp] theorem noteAll_out (host : Host) (s : Session) (events : List Event) :
    (s.noteAll host events).out = s.out := by
  obtain ⟨files, err, held, h⟩ := noteAll_changes host s events
  rw [h]

end Session

end PipelineShell
