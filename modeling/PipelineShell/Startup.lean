import PipelineShell.CommandLine
import PipelineShell.Dialogue

/-!
# Startup

The shell as a command: its arguments are read, the log is set up, and one line or a whole dialogue
over the terminal is run.
-/

namespace PipelineShell

-- ---------------------------------------------------------------------------
-- The log
-- ---------------------------------------------------------------------------

/-- Why the log cannot be set up. -/
inductive LogFault
  /-- The file of the log cannot be opened. -/
  | file (failure : Failure)
  /-- The name of the level stands for a text. -/
  | levelIsText
  /-- The name of the level stands for a table. -/
  | levelIsTable
  deriving DecidableEq, Repr

namespace Log

/-- The capital letters of a letter, as far as the names of levels need them: of the letters
outside ASCII only those count that become ASCII letters. -/
def capitals (c : Char) : List Char :=
  match c with
  | 'ı' => ['I']
  | 'ſ' => ['S']
  | 'ß' => ['S', 'S']
  | 'ﬀ' => ['F', 'F']
  | 'ﬁ' => ['F', 'I']
  | 'ﬂ' => ['F', 'L']
  | 'ﬃ' => ['F', 'F', 'I']
  | 'ﬄ' => ['F', 'F', 'L']
  | 'ﬅ' => ['S', 'T']
  | 'ﬆ' => ['S', 'T']
  | c => [c.toUpper]

/-- The threshold that the name of a level stands for, in letters of either case. A name that is
not known stands for warnings; two names stand for things that are no level. -/
def threshold (name : String) : Except LogFault Nat :=
  match String.ofList (name.toList.flatMap capitals) with
  | "NOTSET" => .ok 0
  | "DEBUG" => .ok Level.debug.rank
  | "INFO" => .ok Level.info.rank
  | "WARN" => .ok Level.warning.rank
  | "WARNING" => .ok Level.warning.rank
  | "ERROR" => .ok Level.error.rank
  | "CRITICAL" => .ok Level.critical.rank
  | "FATAL" => .ok Level.critical.rank
  | "BASIC_FORMAT" => .error .levelIsText
  | "_STYLES" => .error .levelIsTable
  | _ => .ok Level.warning.rank

/-- The first text that is not empty. -/
def firstNonempty (texts : List (Option String)) : Option String :=
  texts.findSome? fun text => text.filter (· ≠ "")

/-- The name of the level: as asked for, or from the environment. -/
def levelName (asked : Option String) (environment : Environment) : String :=
  (firstNonempty [asked, environment.find? "LINESHELL_LOG_LEVEL"]).getD "WARNING"

/-- Set up the log. Its file is opened before the level is looked at. -/
def setUp (s : Session) (asked : Option String) : Session × Except LogFault Log :=
  let level := threshold (levelName asked s.environment)
  match firstNonempty [s.environment.find? "LINESHELL_LOG_FILE"] with
  | none => (s, level.map .terminal)
  | some name =>
    let path := (Path.resolve (Place.text s.processPlace) name).text
    match s.files.openFile s.processPlace path true with
    | .error failure => (s, .error (.file failure))
    | .ok (files, h) => ({ s with files := files }, level.map (.file h.place))

end Log

-- ---------------------------------------------------------------------------
-- Running
-- ---------------------------------------------------------------------------

/-- How the shell ends as a command. -/
inductive Ending
  | status (status : Int)
  /-- The arguments ended it. -/
  | usage (status : Nat)
  | badLog (fault : LogFault)
  /-- The line that it was to run was refused. -/
  | refused (refusal : Refusal)
  /-- A text did not arrive in a file that the line had opened. -/
  | unwritten (error : SystemError)
  /-- It was to run a line and was given none. -/
  | noLine
  /-- The lines that it was to run are no text. -/
  | garbled
  deriving DecidableEq, Repr

namespace Session

/-- A session in a file tree, in the directory at a place, before anything has happened. -/
def start (files : FileTree) (directory : String) (place : Place) (environment : Environment)
    (input : Bytes) : Session :=
  ⟨files, directory, place, environment, [], [], ⟨0, 0⟩, input, ⟨0, 0, 0⟩, []⟩

/-- Run one line as a whole session. -/
def runOnce (host : Host) (s : Session) (line : String) : Session × Ending :=
  match s.execute host line with
  | (s, .ok status) => (s.flushOutput, .status status)
  | (s, .error (.leave code)) => (s, .status code)
  | (s, .error (.badRedirection _ _ _)) => (s, .status 1)
  | (s, .error (.unwritten e)) => (s, .unwritten e)
  | (s, .error (.refused r)) => (s, .refused r)

/-- Run the shell as a command that shares the terminal. The nesting is what is left for directories
while a line of the arguments runs. -/
def runShell (installation : Installation) (nesting : Nat) (s : Session) (arguments : List String) :
    Session × Ending :=
  match Usage.ofArguments arguments with
  | .help => (s.print (Text.encode Usage.helpText), .usage 0)
  | .misuse fault => (s.printError (Text.encode (Usage.faultText fault)), .usage 2)
  | .run settings =>
    match Log.setUp s settings.logLevel with
    | (s, .error fault) => (s, .badLog fault)
    | (s, .ok log) =>
      let host : Host := ⟨installation, true, true, nesting, log⟩
      let s := s.note host .ready
      match settings.task with
      | .line line => s.runOnce host line
      | .noLine => (s, .noLine)
      | .dialogue =>
        -- the loop over the lines is one more call that a line runs in
        let host := { host with nesting := nesting - 1 }
        match Dialogue.holdTerminal host (Session.run host) s with
        | (d, some code) => (d.session, .status code)
        | (d, none) => (d.session, .garbled)

end Session

end PipelineShell
