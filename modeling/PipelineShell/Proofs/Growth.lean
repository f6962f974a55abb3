import PipelineShell.Proofs.FileTree.Growth
import PipelineShell.Proofs.Progress

/-!
# What runs leave in place

No run of a pipeline takes an object away or changes what a lookup sees of it, whatever its stages
are and however it ends (`grown_runFrom`).
-/

namespace PipelineShell.Session

open FileTree (Grown)

variable {host : Host} {s : Session}

theorem grown_note (host : Host) (s : Session) (event : Event) :
    Grown s.files (s.note host event).files := by
  unfold note
  split
  · exact .refl _
  · split <;> exact .refl _
  · split
    · exact FileTree.grown_write s.files _ _
    · exact .refl _

/-- Moving to another directory changes no file. -/
@[simp] theorem changeDirectory_files (host : Host) (s : Session) (path : String) :
    (s.changeDirectory host path).1.files = s.files := by
  obtain ⟨e, hstays⟩ | ⟨place, -, hmoved⟩ := changeDirectory_cases host s path
  · rw [hstays]
  · rw [hmoved]

/-- Whatever is written and wherever, objects stay. -/
theorem progress_grown (host : Host) :
    Progress host (fun _ => True) fun s s' => Grown s.files s'.files where
  refl s := .refl s.files
  trans h h' := h.trans h'
  note s event _ := grown_note host s event
  terminal s _ _ _ _ _ := .refl s.files
  carry s out err writes _ _ := FileTree.grown_carry writes s.files out err

theorem grown_deliverError (s : Session) (channels : Channels) (text : Bytes) :
    Grown s.files (s.deliverError channels text).files := by
  unfold deliverError
  split
  · exact FileTree.grown_write s.files _ text
  · exact .refl _

/-! ## Stages -/

theorem grown_openOutput (host : Host) (s : Session) (stage : Stage) (stream : Stream) :
    Grown s.files (s.openOutput host stage stream).1.files := by
  apply (progress_grown host).openOutput
  case hparents =>
    intro r _
    have hmade := (FileTree.extended_ensureParents s.files host.nesting s.processPlace
      (s.resolvePath r.target)).grown
    generalize (s.files.ensureParents host.nesting s.processPlace (s.resolvePath r.target)).1 = made
      at hmade ⊢
    exact hmade
  case hopen => exact fun r made opened handle hopen => FileTree.grown_openFile hopen

theorem grown_openChannels (host : Host) (s : Session) (stage : Stage) :
    Grown s.files (s.openChannels host stage).1.files :=
  (progress_grown host).openChannels s fun s stream => grown_openOutput host s stage stream

theorem grown_runCommand (host : Host) (s : Session) (stage : Stage) (piped : Option Bytes)
    (channels : Channels) (last : Bool) :
    Grown s.files (s.runCommand host stage piped channels last).1.files := by
  apply (progress_grown host).runCommand
  case hmoves =>
    intro _ s path
    rw [changeDirectory_files]
    exact .refl s.files
  case hopened => exact ⟨fun _ _ => trivial, fun _ _ => trivial⟩

/-- What has been opened for a stage is there when the stage ends. -/
theorem grown_runStage_of_openChannels (host : Host) (s : Session) (stage : Stage)
    (piped : Option Bytes) (last : Bool) :
    Grown (s.openChannels host stage).1.files (s.runStage host stage piped last).1.files := by
  unfold runStage
  generalize s.openChannels host stage = r
  obtain ⟨ready, answer⟩ := r
  cases answer with
  | error stop => exact .refl ready.files
  | ok channels => exact grown_runCommand host ready stage piped channels last

theorem grown_runStage (host : Host) (s : Session) (stage : Stage) (piped : Option Bytes)
    (last : Bool) : Grown s.files (s.runStage host stage piped last).1.files :=
  (grown_openChannels host s stage).trans (grown_runStage_of_openChannels host s stage piped last)

/-! ## Runs -/

theorem grown_announced (host : Host) (position total : Nat) (s : Session) (stage : Stage) :
    Grown s.files (announced host position total s stage).files :=
  (progress_grown host).announced position total s stage

/-- Every object that is there before a run is there after it. -/
theorem grown_runFrom (host : Host) (total position : Nat) (s : Session) (piped : Option Bytes)
    (stages : List Stage) : Grown s.files (runFrom host total position s piped stages).1.files :=
  (progress_grown host).runFrom total position s piped stages fun a _ =>
    grown_runStage host a.session a.stage a.piped a.last

/-- What is there after a stage is there when the run ends. -/
theorem grown_arrivals (host : Host) (total position : Nat) (s : Session) (piped : Option Bytes)
    (stages : List Stage) :
    ∀ a ∈ arrivals host total position s piped stages,
      Grown (a.run host).1.files (runFrom host total position s piped stages).1.files := by
  induction position, s, piped, stages using runFrom_induction host total with
  | nil => exact fun a ha => nomatch ha
  | stopped position s piped stage rest done stop hstop =>
    obtain ⟨hruns, harrivals⟩ := runFrom_of_stopped hstop
    rw [hruns, harrivals]
    have hhere : Grown ((arrival host total position s piped stage rest).run host).1.files
        done.files := by
      rw [hstop]
      exact .refl done.files
    exact List.forall_mem_singleton.2 hhere
  | passed position s piped stage rest done result hpass ih =>
    obtain ⟨hruns, harrivals⟩ := runFrom_of_passed hpass
    rw [hruns, harrivals]
    have hrest := grown_runFrom host total (position + 1)
      (done.note host (.stage position total .completed stage)) (some (result.output.getD [])) rest
    have hhere : Grown ((arrival host total position s piped stage rest).run host).1.files
        done.files := by
      rw [hpass]
      exact .refl done.files
    have hafter := (grown_note host done (.stage position total .completed stage)).trans hrest
    exact List.forall_mem_cons.2 ⟨hhere.trans hafter, ih⟩

/-- What is there after a stage of a line is there when the line ends. -/
theorem grown_lineArrivals (host : Host) (s : Session) (line : String) {a : Arrival}
    (ha : a ∈ s.lineArrivals host line) :
    Grown (a.run host).1.files (s.execute host line).1.files :=
  (grown_arrivals host _ _ _ none _ a ha).trans ((progress_grown host).ended s line)

end PipelineShell.Session
