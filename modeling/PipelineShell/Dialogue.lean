import PipelineShell.Execution
import PipelineShell.LineReader

/-!
# Dialogues

Reading lines and running them until the exit builtin runs or the input ends. An interrupt while a
line is read drops the line; an interrupt or a failure while it runs ends the line only.
-/

namespace PipelineShell

/-- What comes of waiting for a line. -/
inductive Read
  | line (text : String)
  | interrupt
  deriving DecidableEq, Repr

/-- How running a line ended. -/
inductive Verdict
  | status (status : Int)
  /-- The exit builtin ran. -/
  | leave (code : Nat)
  | interrupted
  | failed (message : String)
  deriving DecidableEq, Repr

/-- A way of running lines, given how many lines have been run before. -/
abbrev Runner := Nat → Session → String → Session × Verdict

/-- Run a line as the shell does. -/
def Session.run (host : Host) : Runner := fun _ s line =>
  match s.execute host line with
  | (s, .ok status) => (s.flushOutput, .status status)
  | (s, .error (.leave code)) => (s, .leave code)
  | (s, .error (.badRedirection command target e)) =>
    (s, .failed (Diagnosis.badRedirection command target e.reason).message)
  | (s, .error (.unwritten e)) => (s, .failed e.message)
  | (s, .error (.refused r)) => (s, .failed r.message)

/-- The prompt before each line. -/
def prompt : String := "$ "

/-- A dialogue between two lines. -/
structure Dialogue where
  session : Session
  /-- The status of the last line that did not exit. -/
  lastStatus : Int
  /-- How many lines have been run. -/
  handed : Nat
  deriving DecidableEq, Repr

namespace Dialogue

/-- Write to the terminal. -/
def print (d : Dialogue) (text : String) : Dialogue :=
  { d with session := d.session.print (Text.encode text) }

/-- Show the prompt, and all that is held back before it. -/
def ask (d : Dialogue) : Dialogue :=
  { d with session := (d.session.print (Text.encode prompt)).flushOutput }

/-- Take in what comes of waiting for a line. The code is there if the dialogue ends. -/
def answer (host : Host) (runner : Runner) (d : Dialogue) : Read → Dialogue × Option Nat
  | .interrupt => (d.print "\n", none)
  | .line text =>
    let handed := d.handed + 1
    match runner d.handed d.session text with
    | (s, .status status) => (⟨s, status, handed⟩, none)
    | (s, .leave code) => (⟨s.note host (.sessionLeft code), d.lastStatus, handed⟩, some code)
    | (s, .interrupted) => ((⟨s, 1, handed⟩ : Dialogue).print "\n", none)
    | (s, .failed message) =>
      let s := s.note host (.fault message)
      (⟨s.printError (Text.encode ("lineshell: " ++ message ++ "\n")), 1, handed⟩, none)

-- ---------------------------------------------------------------------------
-- Scripts
-- ---------------------------------------------------------------------------

/-- Hold a dialogue over what comes of waiting, then over the end of the input. -/
def follow (host : Host) (runner : Runner) (d : Dialogue) : List Read → Dialogue × Nat
  | [] => (d.ask.print "\n", 0)
  | read :: rest =>
    match d.ask.answer host runner read with
    | (d, some code) => (d, code)
    | (d, none) => follow host runner d rest

/-- A whole dialogue over what comes of waiting. -/
def hold (host : Host) (runner : Runner) (s : Session) (reads : List Read) : Dialogue × Nat :=
  follow host runner ⟨s.note host .sessionStarted, 0, 0⟩ reads

/-- The lines of a text: what stands before each line feed, and what stands after the last one
unless that is nothing. -/
def linesOf (text : List Char) : List (List Char) :=
  let parts := Text.fields '\n' text
  if parts.getLast? = some [] then parts.dropLast else parts

/-- The attempts that are interrupted, one of them apart. -/
def without (interrupts : List Nat) (attempt : Nat) : List Nat :=
  interrupts.filter (· ≠ attempt)

theorem length_without_lt {interrupts : List Nat} {attempt : Nat} (h : attempt ∈ interrupts) :
    (without interrupts attempt).length < interrupts.length :=
  List.length_filter_lt_length_iff_exists.2 ⟨attempt, h, by simp⟩

/-- What comes of waiting for the lines, from the given attempt on, when some attempts are
interrupted. An interrupted attempt takes no line. -/
def schedule (interrupts : List Nat) (attempt : Nat) (lines : List String) : List Read :=
  if h : attempt ∈ interrupts then
    have := length_without_lt h
    .interrupt :: schedule (without interrupts attempt) (attempt + 1) lines
  else
    match lines with
    | [] => []
    | line :: rest => .line line :: schedule interrupts (attempt + 1) rest
termination_by interrupts.length + lines.length

-- ---------------------------------------------------------------------------
-- Terminals
-- ---------------------------------------------------------------------------

/-- Hold a dialogue over at most the given number of lines of the terminal. There is no code if the
input turns out to be no text. -/
def followTerminal (host : Host) (runner : Runner) :
    Nat → LineReader → Dialogue → Dialogue × Option Nat
  | 0, _, d => (d.ask.print "\n", some 0)
  | fuel + 1, reader, d =>
    let d := d.ask
    match reader.next d.session.input with
    | .ended => (d.print "\n", some 0)
    | .garbled => (d, none)
    | .line text reader input =>
      let d := { d with session := { d.session with input := input } }
      match d.answer host runner (.line (String.ofList text)) with
      | (d, some code) => (d, some code)
      | (d, none) => followTerminal host runner fuel reader d

/-- A whole dialogue over the lines of the terminal; there are no more of them than bytes. -/
def holdTerminal (host : Host) (runner : Runner) (s : Session) : Dialogue × Option Nat :=
  followTerminal host runner (s.input.length + 1) .empty ⟨s.note host .sessionStarted, 0, 0⟩

end Dialogue

end PipelineShell
