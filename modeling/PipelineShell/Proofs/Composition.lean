import Mathlib.Data.List.Forall2
import PipelineShell.Proofs.Deeds
import PipelineShell.Proofs.FileTree.Output
import PipelineShell.Proofs.SameWorld
import PipelineShell.Proofs.Small

/-!
# Pipelines as compositions

A line of programs that reads one file and writes one file, or the terminal, does what its programs do
one after the other, byte for byte (`execute_eq_composition`). Up to the last stage a run changes
nothing but records, so each program is started in the world in which the line was given. Every stage
has read its input before it opens its output, and has ended before the next one opens anything, so
the two files may be one.
-/

namespace PipelineShell

namespace Session

variable {host : Host} {s s' : Session} {stage : Stage} {program : Bytes → Performance}

/-- The redirections of a stage open, and with them open its name stands for a program that starts.
What it then does with its input is `program`. -/
def Starts (host : Host) (s : Session) (stage : Stage) (program : Bytes → Performance) : Prop :=
  ∃ ready channels path found,
    s.openChannels host stage = (ready, .ok channels) ∧
    (ready.findCommand host stage.name).2 = .ok (.program path) ∧
    ready.started host (ready.orderOf host stage path none channels true) = .ok found ∧
    ∀ input, program input =
      found.1 ⟨found.2.1, ready.environment, Place.text found.2.2, input⟩

/-! ## Programs -/

/-- Where the input comes from and where uncaught output goes does not matter to what is started. -/
theorem started_orderOf (host : Host) (s : Session) (stage : Stage) (path : String)
    (input input' : Option Bytes) (channels : Channels) (last last' : Bool) :
    s.started host (s.orderOf host stage path input channels last) =
      s.started host (s.orderOf host stage path input' channels last') := by
  have hbusy : busyPlaces host (s.orderOf host stage path input channels last) =
      busyPlaces host (s.orderOf host stage path input' channels last') := by
    simp only [busyPlaces, orderOf_out, orderOf_err]
  unfold started
  rw [hbusy]
  rfl

/-! ## Stages -/

/-- Where the output of a stage goes if it runs a program. -/
def outletOf (host : Host) (channels : Channels) (last : Bool) : Outlet :=
  match channels.out with
  | some h => .file h
  | none => if last && host.sharesTerminal then .terminal else .pipe

/-- What becomes of a stage that runs a program: `ready` is the session in which its redirections are
open, `done` the one in which it has ended, and `out` what the terminal has received before. -/
structure Ran (host : Host) (ready : Session) (stage : Stage) (channels : Channels) (last : Bool)
    (p : Performance) (out : Bytes) (done : Session) (result : StageResult) : Prop where
  world : SameWorld host { ready with files := ready.files.carry channels.out none p.writes } done
  result : result = ⟨stage.name, p.status,
    if last then none else (outletOf host channels last).captured (p.written .out)⟩
  out : done.out = (out ++ if outletOf host channels last = .terminal then p.written .out else []) ++
    if last then copied (((outletOf host channels last).captured (p.written .out)).getD []) else []

theorem Ran.note {ready done : Session} {channels : Channels} {last : Bool} {p : Performance}
    {out : Bytes} {result : StageResult} (h : Ran host ready stage channels last p out done result)
    {event : Event} (hlevel : event.level = .debug) :
    Ran host ready stage channels last p out (done.note host event) result :=
  ⟨h.world.trans (sameWorld_note host done hlevel), h.result,
    (note_out host done event).trans h.out⟩

/-- What is left of the file of a redirection when it is opened, once its directories are made. -/
def kept (host : Host) (s : Session) (r : Redirection) : Bytes :=
  let path := s.resolvePath r.target
  (s.files.ensureParents host.nesting s.processPlace path).1.leftOver s.processPlace path.text
    r.operator.appends

end Session

end PipelineShell
