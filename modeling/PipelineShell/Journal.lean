import PipelineShell.Diagnosis
import PipelineShell.Pipeline
import PipelineShell.SystemError

/-!
# The journal

What a session notes while it works. An event says what happened; `Event.source`, `Event.level`
and `Event.message` say how a record of it reads.
-/

namespace PipelineShell

-- ---------------------------------------------------------------------------
-- Events
-- ---------------------------------------------------------------------------

/-- The phases that a stage goes through. -/
inductive Phase
  | pending
  | running
  | completed
  deriving DecidableEq, Repr

/-- The name of a phase. -/
def Phase.name : Phase → String
  | .pending => "PENDING"
  | .running => "RUNNING"
  | .completed => "COMPLETED"

/-- Something that a session notes. -/
inductive Event
  /-- The session can run lines. -/
  | ready
  /-- A segment ends inside quotes. -/
  | openQuote (segment : String)
  /-- A line that is not blank has been read. -/
  | parsed (pipeline : Pipeline)
  /-- A stage, counted from one, has entered a phase. -/
  | stage (position total : Nat) (phase : Phase) (stage : Stage)
  /-- The target of a redirection is open for writing. -/
  | opened (stream : Stream) (path : String) (appends : Bool)
  /-- A redirection failed and the rest of the line is left out. -/
  | lineAborted (diagnosis : Diagnosis)
  /-- A stage is left out because its program does not start. -/
  | stageAborted (path : String) (error : SystemError)
  /-- A name was found on the search path. -/
  | resolved (name path : String)
  /-- A name was found nowhere. -/
  | notFound (name : String)
  /-- A directory of the search path cannot be listed. -/
  | skipped (directory : String) (error : SystemError)
  /-- A builtin starts. -/
  | builtin (name : String) (args : List String)
  /-- The working directory has changed. -/
  | moved (directory : String)
  /-- A program is about to be started. -/
  | starting (path : String) (argv : List String)
  /-- A program cannot be started, because of the path `about`. -/
  | startFailed (path : String) (error : SystemError) (about : String)
  /-- A program has ended. -/
  | ended (name : String) (status : Int)
  /-- Completions of a text were looked up. -/
  | completed (text : String) (count : Nat)
  /-- The dialogue starts. -/
  | sessionStarted
  /-- The dialogue ends by the exit builtin. -/
  | sessionLeft (code : Nat)
  /-- A line failed in a way that the shell has no rule for. -/
  | fault (message : String)
  deriving DecidableEq, Repr

-- ---------------------------------------------------------------------------
-- Records
-- ---------------------------------------------------------------------------

/-- How much a record matters. -/
inductive Level
  | debug
  | info
  | warning
  | error
  | critical
  deriving DecidableEq, Repr

namespace Level

/-- The name of a level. -/
def name : Level → String
  | .debug => "DEBUG"
  | .info => "INFO"
  | .warning => "WARNING"
  | .error => "ERROR"
  | .critical => "CRITICAL"

/-- The order of the levels as a number. -/
def rank : Level → Nat
  | .debug => 10
  | .info => 20
  | .warning => 30
  | .error => 40
  | .critical => 50

end Level

namespace Event

/-- The part of the shell that a record names. -/
def source : Event → String
  | .ready => "PipelineExecutor"
  | .openQuote _ => "PipelineParser"
  | .parsed _ => "PipelineParser"
  | .stage .. => "PipelineExecutor"
  | .opened .. => "PipelineExecutor"
  | .lineAborted _ => "PipelineExecutor"
  | .stageAborted .. => "PipelineExecutor"
  | .resolved .. => "CommandResolver"
  | .notFound _ => "CommandResolver"
  | .skipped .. => "CommandResolver"
  | .builtin .. => "BuiltinDispatch"
  | .moved _ => "BuiltinDispatch"
  | .starting .. => "ExecutionEngine"
  | .startFailed .. => "ExecutionEngine"
  | .ended .. => "ExecutionEngine"
  | .completed .. => "CommandCompleter"
  | .sessionStarted => "Shell"
  | .sessionLeft _ => "Shell"
  | .fault _ => "Shell"

/-- The level of a record. -/
def level : Event → Level
  | .sessionStarted => .info
  | .sessionLeft _ => .info
  | .fault _ => .error
  | _ => .debug

/-- The text of a record. -/
def message : Event → String
  | .ready => "PipelineExecutor initialized"
  | .openQuote segment => "Unterminated quote in: " ++ Text.quoted segment
  | .parsed pipeline => "Parsed: " ++ pipeline.render
  | .stage position total phase s =>
    "Stage " ++ toString position ++ "/" ++ toString total ++ " " ++ phase.name ++ ": " ++ s.render
  | .opened stream path appends =>
    stream.name ++ " -> " ++ path ++ " (" ++ (if appends then "a" else "w") ++ ")"
  | .lineAborted diagnosis => "Line aborted: " ++ diagnosis.message
  | .stageAborted path error => "Spawn failed: " ++ path ++ ": " ++ error.reason
  | .resolved name path => "Resolved " ++ name ++ " -> " ++ path
  | .notFound name => "Not found: " ++ name
  | .skipped directory error =>
    "Skipping PATH entry " ++ directory ++ ": " ++ error.describe directory
  | .builtin name args => "Builtin " ++ name ++ " " ++ Text.quotedList args
  | .moved directory => "cwd -> " ++ directory
  | .starting path argv => "Spawning " ++ path ++ ": " ++ Text.quotedList argv
  | .startFailed path error about =>
    "Spawn of " ++ path ++ " failed: " ++ error.describe about
  | .ended name status => name ++ " exited with " ++ toString status
  | .completed text count =>
    "Completion " ++ Text.quoted text ++ ": " ++ toString count ++ " matches"
  | .sessionStarted => "Session started"
  | .sessionLeft code => "exit " ++ toString code
  | .fault message => "Execution error: " ++ message

/-- A record as a line of a log. -/
def line (e : Event) : String :=
  e.source ++ " - " ++ e.level.name ++ " - " ++ e.message ++ "\n"

end Event

end PipelineShell
