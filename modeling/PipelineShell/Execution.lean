import PipelineShell.Builtin
import PipelineShell.Launch

/-!
# Execution

Running a line. Its stages run one after the other, and what a stage leaves in its pipe is all of
the input of the next. A stage first reads its input file and opens its output files, then it does
its work. A command that is not found or does not start ends its stage only; a redirection that
fails ends the line; the exit builtin ends the session.
-/

namespace PipelineShell

/-- How a stage ended. -/
structure StageResult where
  name : String
  status : Int
  /-- What the stage left for the next one, if it had a pipe. -/
  output : Option Bytes
  deriving DecidableEq, Repr

/-- What the redirections of a stage have opened. -/
structure Channels where
  /-- The bytes of the input file. -/
  input : Option Bytes
  out : Option Handle
  err : Option Handle
  deriving DecidableEq, Repr

/-- What goes wrong when the files of a stage are closed that the shell has written to: only then does it
come out whether the bytes arrive. The file for the output is closed last. -/
def Channels.fault? (channels : Channels) (t : FileTree) (out err : Bytes) : Option SystemError :=
  (channels.out.bind (·.fault? t out)).or (channels.err.bind (·.fault? t err))

theorem Channels.fault?_congr {t t' : FileTree} (h : t'.grants = t.grants) (channels : Channels)
    (out err : Bytes) : channels.fault? t' out err = channels.fault? t out err := by
  simp only [fault?, Handle.fault?_congr h]

/-- Where nothing has been written, nothing goes wrong. -/
theorem Channels.fault?_nil (channels : Channels) (t : FileTree) : channels.fault? t [] [] = none := by
  unfold fault?
  cases channels.out <;> cases channels.err <;> rfl

/-- The status of a stage whose command is not found. -/
def notFoundStatus : Int := 127

/-- The status of a stage whose program does not start. -/
def notStartedStatus : Int := 126

namespace Session

-- ---------------------------------------------------------------------------
-- Redirections
-- ---------------------------------------------------------------------------

/-- How a stage stops when `r` fails. It is named after its command, or after the target. -/
def stopAt (stage : Stage) (r : Redirection) : Failure → Stop
  | .refused refusal => .refused refusal
  | .system e => .badRedirection (if stage.name = "" then r.target else stage.name) r.target e

/-- The bytes of the input file of a stage. -/
def readInput (s : Session) (stage : Stage) : Except Stop (Option Bytes) :=
  match stage.redirection? .stdin with
  | none => .ok none
  | some r =>
    match s.files.read s.processPlace (s.resolvePath r.target).text with
    | .ok bytes => .ok (some bytes)
    | .error failure => .error (stopAt stage r failure)

/-- Open the file that is to take an output stream of a stage. Missing directories are made. -/
def openOutput (host : Host) (s : Session) (stage : Stage) (stream : Stream) :
    Session × Except Stop (Option Handle) :=
  match stage.redirection? stream with
  | none => (s, .ok none)
  | some r =>
    let path := s.resolvePath r.target
    match s.files.ensureParents host.nesting s.processPlace path with
    | (files, .error failure) => ({ s with files := files }, .error (stopAt stage r failure))
    | (files, .ok ()) =>
      match files.openFile s.processPlace path.text r.operator.appends with
      | .error failure => ({ s with files := files }, .error (stopAt stage r failure))
      | .ok (files, h) =>
        let s := { s with files := files }
        (s.note host (.opened stream path.text r.operator.appends), .ok (some h))

/-- Open what the redirections of a stage name: the input file first, then the output file, then
the file for errors. -/
def openChannels (host : Host) (s : Session) (stage : Stage) : Session × Except Stop Channels :=
  match s.readInput stage with
  | .error stop => (s, .error stop)
  | .ok input =>
    match s.openOutput host stage .stdout with
    | (s, .error stop) => (s, .error stop)
    | (s, .ok out) =>
      match s.openOutput host stage .stderr with
      | (s, .error stop) => (s, .error stop)
      | (s, .ok err) => (s, .ok ⟨input, out, err⟩)

-- ---------------------------------------------------------------------------
-- Output
-- ---------------------------------------------------------------------------

/-- Text for the error stream of a stage. -/
def deliverError (s : Session) (channels : Channels) (text : Bytes) : Session :=
  match channels.err with
  | some h => s.writeFile h text
  | none => s.printError text

/-- Text for the output stream of a stage: to its file, or to the terminal after the last stage, or
into the pipe. -/
def deliverOutput (s : Session) (channels : Channels) (last : Bool) (text : Bytes) :
    Session × Option Bytes :=
  match channels.out with
  | some h => (s.writeFile h text, none)
  | none => if last then (s.print text, none) else (s, some text)

/-- How a stage ends that would have ended in some way, if something goes wrong as its files are
closed. -/
def closed {α : Type} (ending : Except Stop α) : Option SystemError → Except Stop α
  | none => ending
  | some e => .error (.unwritten e)

/-- End a stage whose command cannot be run, with a report. -/
def giveUp (s : Session) (stage : Stage) (channels : Channels) (status : Int) :
    Session × Except Stop StageResult :=
  let report := Text.encode (Diagnosis.unknownCommand stage.name).line
  (s.deliverError channels report,
    closed (.ok ⟨stage.name, status, none⟩) (channels.fault? s.files [] report))

-- ---------------------------------------------------------------------------
-- Stages
-- ---------------------------------------------------------------------------

/-- Run a builtin as a stage. -/
def runBuiltin (host : Host) (s : Session) (stage : Stage) (b : Builtin) (channels : Channels)
    (last : Bool) : Session × Except Stop StageResult :=
  let (s, reply) := s.perform host b stage.args
  let out := Text.encode reply.out
  let err := Text.encode reply.err
  let fault := channels.fault? s.files out err
  let s := s.deliverError channels err
  let (s, output) := s.deliverOutput channels last out
  (s, closed (reply.ending.map fun status => ⟨stage.name, status, output⟩) fault)

/-- The order that a stage gives for its program. -/
def orderOf (host : Host) (s : Session) (stage : Stage) (path : String) (input : Option Bytes)
    (channels : Channels) (last : Bool) : Order where
  path := path
  argv := stage.argv
  directory := s.directory
  environment := s.environment
  feed := match input with
    | some bytes => .bytes bytes
    | none => if host.sharesTerminal then .terminal else .nothing
  out := match channels.out with
    | some h => .file h
    | none => if last && host.sharesTerminal then .terminal else .pipe
  err := match channels.err with
    | some h => .file h
    | none => if host.sharesTerminal then .terminal else .pipe

/-- Bytes as the shell copies them to the terminal: what is no text is replaced. -/
def copied (bytes : Bytes) : Bytes := Text.encode (Text.decode bytes)

/-- Run a program as a stage. What the shell has written to the terminal is there before the program
starts. -/
def runProgram (host : Host) (s : Session) (stage : Stage) (path : String) (input : Option Bytes)
    (channels : Channels) (last : Bool) : Session × Except Stop StageResult :=
  match s.flush.launch host (s.orderOf host stage path input channels last) with
  | (s, .error (.refused r)) => (s, .error (.refused r))
  | (s, .error (.system e _)) =>
    (s.note host (.stageAborted path e)).giveUp stage channels notStartedStatus
  | (s, .ok outcome) =>
    let s := s.printError (copied (outcome.err.getD []))
    match outcome.out, last with
    | some bytes, true => (s.print (copied bytes), .ok ⟨stage.name, outcome.status, none⟩)
    | output, _ => (s, .ok ⟨stage.name, outcome.status, output⟩)

/-- Run the command of a stage whose redirections are open. -/
def runCommand (host : Host) (s : Session) (stage : Stage) (piped : Option Bytes)
    (channels : Channels) (last : Bool) : Session × Except Stop StageResult :=
  if stage.argv = [] then (s, .ok ⟨"", 0, none⟩)
  else
    match s.findCommand host stage.name with
    | (s, .error r) => (s, .error (.refused r))
    | (s, .ok (.builtin b)) => s.runBuiltin host stage b channels last
    | (s, .ok .unknown) => s.giveUp stage channels notFoundStatus
    | (s, .ok (.program path)) =>
      s.runProgram host stage path (channels.input.or piped) channels last

/-- Run a stage. `piped` is what the stage before left, if there was one. -/
def runStage (host : Host) (s : Session) (stage : Stage) (piped : Option Bytes) (last : Bool) :
    Session × Except Stop StageResult :=
  match s.openChannels host stage with
  | (s, .error stop) => (s, .error stop)
  | (s, .ok channels) => s.runCommand host stage piped channels last

-- ---------------------------------------------------------------------------
-- Pipelines
-- ---------------------------------------------------------------------------

/-- Run the stages from the given position on. -/
def runFrom (host : Host) (total : Nat) :
    Nat → Session → Option Bytes → List Stage → Session × Except Stop (List StageResult)
  | _, s, _, [] => (s, .ok [])
  | position, s, piped, stage :: rest =>
    let s := s.note host (.stage position total .pending stage)
    let s := (stage.diagnostics.map Diagnosis.ofDangling).foldl report s
    let s := s.note host (.stage position total .running stage)
    match s.runStage host stage piped (rest = []) with
    | (s, .error stop) => (s, .error stop)
    | (s, .ok result) =>
      let s := s.note host (.stage position total .completed stage)
      match runFrom host total (position + 1) s (some (result.output.getD [])) rest with
      | (s, .error stop) => (s, .error stop)
      | (s, .ok results) => (s, .ok (result :: results))

/-- Run the stages of a pipeline. -/
def runPipeline (host : Host) (s : Session) (pipeline : Pipeline) :
    Session × Except Stop (List StageResult) :=
  runFrom host pipeline.stages.length 1 s none pipeline.stages

/-- What is noted when a line is read. -/
def readingEvents (line : String) : List Event :=
  if Text.isBlankText line.toList then []
  else
    ((segmentsOf line.toList).filter fun segment => !closesQuotes segment).map
        (fun segment => .openQuote (String.ofList segment))
      ++ [.parsed (Pipeline.ofLine line)]

/-- The pipeline that a line makes; what is noted about it is noted. -/
def readLine (host : Host) (s : Session) (line : String) : Session × Pipeline :=
  (s.noteAll host (readingEvents line), Pipeline.ofLine line)

/-- Run a line. The status is that of its last stage, 0 for a blank line and 1 for a line that a
redirection ends. -/
def execute (host : Host) (s : Session) (line : String) : Session × Except Stop Int :=
  let (s, pipeline) := s.readLine host line
  match s.runPipeline host pipeline with
  | (s, .ok results) => (s, .ok ((results.getLast?.map StageResult.status).getD 0))
  | (s, .error (.badRedirection command target e)) =>
    let diagnosis := Diagnosis.badRedirection command target e.reason
    ((s.note host (.lineAborted diagnosis)).report diagnosis, .ok 1)
  | (s, .error stop) => (s, .error stop)

end Session

end PipelineShell
