import PipelineShell.Proofs.FileTree.Rewriting
import PipelineShell.Proofs.LikeRuns

/-!
# Sessions in the same world

What a stage does to files, and which command it runs, depends on the files, the working directories
and the environment only. Records change no more of that than the file that they go to, which no stage
depends on that does not read it: `SameWorld` says that two sessions are the same but for what they
have shown and noted, and the lemmas below that a stage finds the same in both.
-/

namespace PipelineShell

namespace Session

open FileTree (Rewritten SameOpening)

variable {host host' : Host} {s s' s'' : Session}

/-- What is started is a matter of the programs, and of the files that are open for writing. -/
theorem started_congr (hinstallation : host'.installation = host.installation) {order : Order}
    (hbusy : busyPlaces host' order = busyPlaces host order) (s : Session) :
    s.started host' order = s.started host order := by
  simp only [started, hinstallation, hbusy]

/-! ## Files with other bytes -/

section Rewritten

variable {W : Place → Prop} (hfiles : Rewritten W s.files s'.files)
  (hdirectory : s'.directory = s.directory) (hplace : s'.processPlace = s.processPlace)

include hfiles hplace

theorem isExecutable_rewritten (path : String) : s'.isExecutable path = s.isExecutable path := by
  have hstatus := FileTree.status_rewritten hfiles s.processPlace path
  unfold isExecutable
  rw [hplace]
  generalize s.files.status s.processPlace path = answer at hstatus ⊢
  generalize s'.files.status s.processPlace path = answer' at hstatus ⊢
  cases hstatus with
  | same => rfl
  | file _ _ _ hmode => simp only [Entry.ownerExecutes_congr hmode]

/-- No program is started from a file that is open for writing. -/
theorem started_rewritten (hlog : ∀ p, W p → host.Records p) (order : Order) :
    s'.started host order = s.started host order := by
  have hbusy : ∀ p, W p → p ∈ busyPlaces host order := by
    intro p hp
    obtain ⟨threshold, hlog, -⟩ := hlog p hp
    simp [busyPlaces, hlog]
  simp only [started, hplace, FileTree.executable_rewritten hfiles hbusy]

include hdirectory

theorem readInput_rewritten {stage : Stage}
    (hclear : ∀ r, stage.redirection? .stdin = some r → ∀ place entry,
      s.files.status s.processPlace (s.resolvePath r.target).text = .ok (place, entry) → ¬W place) :
    s'.readInput stage = s.readInput stage := by
  unfold readInput
  cases hr : stage.redirection? .stdin with
  | none => rfl
  | some r =>
    have hoff := hclear r hr
    have hstatus := FileTree.status_rewritten hfiles s.processPlace (s.resolvePath r.target).text
    simp only [resolvePath, hdirectory, hplace, FileTree.read, FileTree.grant_congr hfiles.grants]
      at hoff hstatus ⊢
    generalize s.files.status s.processPlace _ = answer at hoff hstatus ⊢
    generalize s'.files.status s.processPlace _ = answer' at hstatus ⊢
    cases hstatus with
    | same => rfl
    | file hplace content content' hmode => exact absurd hplace (hoff _ _ rfl)

/-- Which file an output goes to, and how it is opened, is no matter of bytes. -/
theorem openOutput_rewritten {R : Session → Session → Prop} (hnesting : host'.nesting = host.nesting)
    (h : R s s') (hwith : ∀ {t t'}, Rewritten W t t' → R { s with files := t } { s' with files := t' })
    (hnote : ∀ {u u'} event, R u u' → event.level = .debug →
      R (u.note host event) (u'.note host' event))
    (stage : Stage) (stream : Stream) :
    SameAnswer R (s.openOutput host stage stream) (s'.openOutput host' stage stream) := by
  unfold openOutput
  rw [hnesting]
  split
  · exact ⟨rfl, h⟩
  · next r _ =>
    have hpath : s'.resolvePath r.target = s.resolvePath r.target := by
      rw [resolvePath, resolvePath, hdirectory]
    have hparents : SameAnswer (Rewritten W)
        (s.files.ensureParents host.nesting s.processPlace (s.resolvePath r.target))
        (s'.files.ensureParents host.nesting s'.processPlace (s.resolvePath r.target)) := by
      rw [hplace]
      exact FileTree.ensureParents_rewritten hfiles _ _ _
    obtain ⟨made, made', answer, hmade, hmade', hmaking⟩ := hparents.exists
    simp only [hpath, hmade, hmade']
    cases answer with
    | error failure => exact ⟨rfl, hwith hmaking⟩
    | ok done =>
      have hopen : SameOpening (Rewritten W)
          (made.openFile s.processPlace (s.resolvePath r.target).text r.operator.appends)
          (made'.openFile s'.processPlace (s.resolvePath r.target).text r.operator.appends) := by
        rw [hplace]
        exact FileTree.openFile_rewritten hmaking _ _ _
      simp only
      generalize made.openFile _ _ _ = opening at hopen ⊢
      generalize made'.openFile _ _ _ = opening' at hopen ⊢
      cases hopen with
      | failed failure => exact ⟨rfl, hwith hmaking⟩
      | opened handle hopened => exact ⟨rfl, hnote _ (hwith hopened) rfl⟩

end Rewritten

/-! ## Sessions -/

/-- The files, the one of the records apart, the working directories and the environment are the same. -/
structure SameWorld (host : Host) (s s' : Session) : Prop where
  files : Rewritten host.Records s.files s'.files
  directory : s'.directory = s.directory
  processPlace : s'.processPlace = s.processPlace
  environment : s'.environment = s.environment

namespace SameWorld

theorem refl (s : Session) : SameWorld host s s := ⟨.refl s.files, rfl, rfl, rfl⟩

theorem symm (h : SameWorld host s s') : SameWorld host s' s :=
  ⟨h.files.symm, h.directory.symm, h.processPlace.symm, h.environment.symm⟩

theorem trans (h : SameWorld host s s') (h' : SameWorld host s' s'') : SameWorld host s s'' :=
  ⟨h.files.trans h'.files, h'.directory.trans h.directory, h'.processPlace.trans h.processPlace,
    h'.environment.trans h.environment⟩

theorem of_files (h : SameWorld host s s') {t t' : FileTree} (hfiles : Rewritten host.Records t t') :
    SameWorld host { s with files := t } { s' with files := t' } :=
  ⟨hfiles, h.directory, h.processPlace, h.environment⟩

end SameWorld

/-! ## Records -/

/-- A record goes to the file of the records if it goes to a file. -/
theorem sameWorld_note (host : Host) (s : Session) {event : Event} (hlevel : event.level = .debug) :
    SameWorld host s (s.note host event) := by
  refine ⟨?_, note_directory host s event, note_processPlace host s event,
    note_environment host s event⟩
  unfold note
  rw [hlevel]
  split
  · exact .refl _
  · split <;> exact .refl _
  · next place threshold hlog =>
    split
    · next hthreshold =>
      have hplace : host.Records (Handle.mk place true 0).place := ⟨threshold, hlog, hthreshold⟩
      exact Rewritten.write hplace s.files _
    · exact .refl _

theorem SameWorld.note (h : SameWorld host s s') {event event' : Event} (hlevel : event.level = .debug)
    (hlevel' : event'.level = .debug) : SameWorld host (s.note host event) (s'.note host event') :=
  (sameWorld_note host s hlevel).symm.trans (h.trans (sameWorld_note host s' hlevel'))

theorem sameWorld_report (s : Session) (diagnoses : List Diagnosis) :
    SameWorld host s (diagnoses.foldl report s) := by
  induction diagnoses generalizing s with
  | nil => exact .refl s
  | cons d rest ih =>
    have hfirst : SameWorld host s (s.report d) := ⟨.refl _, rfl, rfl, rfl⟩
    exact hfirst.trans (ih (s.report d))

theorem sameWorld_announced (host : Host) (position total : Nat) (s : Session) (stage : Stage) :
    SameWorld host s (announced host position total s stage) :=
  (sameWorld_note host s rfl).trans ((sameWorld_report _ _).trans (sameWorld_note host _ rfl))

/-- What the terminal shows is no part of the world. -/
theorem SameWorld.print (h : SameWorld host s s') (out err : Bytes) :
    SameWorld host s ((s'.printError err).print out) :=
  ⟨h.files, h.directory, h.processPlace, h.environment⟩

/-! ## Redirections -/

theorem transparent_sameWorld (host : Host) : Transparent host host (SameWorld host) where
  directory h := h.directory
  environment h := h.environment
  isExecutable h path := isExecutable_rewritten h.files h.processPlace path
  note h _ hlevel := h.note hlevel hlevel

theorem orderOf_sameWorld (h : SameWorld host s s') (stage : Stage) (path : String)
    (input : Option Bytes) (channels : Channels) (last : Bool) :
    s'.orderOf host stage path input channels last = s.orderOf host stage path input channels last
    := by
  simp only [orderOf, h.directory, h.environment]

/-- The file of the records is open for writing, so no program is started from it. -/
theorem started_sameWorld (h : SameWorld host s s') (order : Order) :
    s'.started host order = s.started host order :=
  started_rewritten h.files h.processPlace (fun _ hp => hp) order

end Session

end PipelineShell
