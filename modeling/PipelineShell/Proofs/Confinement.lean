import PipelineShell.Proofs.FileTree.Confinement
import PipelineShell.Proofs.Growth
import PipelineShell.Proofs.Small

/-!
# What a line changes

Of the objects in the tree a line changes none but the files that its stages send their output to: the
target of the last redirection of its kind, of a stage that the line comes to. Directories are made
above such targets only. That holds however the line ends (`execute_framed`). A file that is written may
lose set-ID bits, and the records of the line go to the end of their file if they go to one.
-/

namespace PipelineShell

open FileTree (AbovePath Confined Grown ModeKept)

namespace Session

variable {host : Host} {s ready : Session} {stage : Stage} {stream : Stream} {t t' : FileTree}
  {made opened : Place → Prop} {place : Place}

/-! ## Targets -/

/-- In the tree `t`, the redirection that binds the stream leads to the file at `place`. -/
def Targets (s : Session) (stage : Stage) (stream : Stream) (t : FileTree) (place : Place) : Prop :=
  ∃ r content mode, stage.redirection? stream = some r ∧
    t.status s.processPlace (s.resolvePath r.target).text = .ok (place, .file content mode)

/-- In the tree `t`, the target of the redirection that binds the stream is below the directory at
`place`. -/
def TargetsBelow (s : Session) (stage : Stage) (stream : Stream) (t : FileTree) (place : Place) :
    Prop :=
  ∃ r path, stage.redirection? stream = some r ∧ AbovePath (s.resolvePath r.target) path ∧
    t.directory? s.processPlace path = some place

theorem Targets.bound (h : Targets s stage stream t place) : stage.redirection? stream ≠ none := by
  obtain ⟨r, content, mode, hr, -⟩ := h
  simp [hr]

/-- A redirection leads to one file. -/
theorem Targets.place_eq {place' : Place} (h : Targets s stage stream t place)
    (h' : Targets s stage stream t place') : place' = place := by
  obtain ⟨r, content, mode, hr, hleads⟩ := h
  obtain ⟨r', content', mode', hr', hleads'⟩ := h'
  rw [hr] at hr'
  cases hr'
  rw [hleads] at hleads'
  cases hleads'
  rfl

theorem Targets.of_unmoved (h : Targets ready stage stream t place) (hready : Unmoved s ready) :
    Targets s stage stream t place := by
  obtain ⟨r, content, mode, hr, hstatus⟩ := h
  rw [hready.resolvePath, hready.processPlace] at hstatus
  exact ⟨r, content, mode, hr, hstatus⟩

theorem TargetsBelow.of_unmoved (h : TargetsBelow ready stage stream t place)
    (hready : Unmoved s ready) : TargetsBelow s stage stream t place := by
  obtain ⟨r, path, hr, habove, hleads⟩ := h
  rw [hready.resolvePath] at habove
  rw [hready.processPlace] at hleads
  exact ⟨r, path, hr, habove, hleads⟩

/-! ## Operations -/

/-- A record goes to the file of the records or to none. -/
theorem confined_note (host : Host) (made opened : Place → Prop) (s : Session) {event : Event}
    (hlevel : event.level = .debug) :
    Confined made opened host.Records s.files (s.note host event).files := by
  unfold note
  rw [hlevel]
  split
  · exact .refl _
  · split <;> exact .refl _
  · next place threshold hlog =>
    split
    · next hthreshold =>
      have hplace : host.Records (Handle.mk place true 0).place := ⟨threshold, hlog, hthreshold⟩
      exact .write (.inr hplace) s.files _
    · exact .refl _

/-- What is made, opened and written at the places allowed keeps the changes confined to these. -/
theorem progress_confined (host : Host) (made opened : Place → Prop) :
    Progress host opened fun s s' => Confined made opened host.Records s.files s'.files where
  refl s := .refl s.files
  trans h h' := h.trans h'
  note s _ hlevel := confined_note host made opened s hlevel
  terminal s _ _ _ _ _ := .refl s.files
  carry s _ _ writes hout herr := .carry hout herr writes s.files

/-- What has been opened for a stage is what its redirections lead to. -/
theorem targets_of_openOutput {handle : Handle}
    (h : s.openOutput host stage stream = (ready, .ok (some handle)))
    (hgrown : Grown ready.files t) : s.Targets stage stream t handle.place := by
  obtain ⟨-, hnone⟩ | ⟨r, made, hr, -, hcase⟩ := openOutput_cases host s stage stream
  · rw [hnone] at h
    cases h
  · obtain ⟨failure, hfailed⟩ | ⟨opened, handle', hfile, hopened⟩ := hcase
    · rw [hfailed] at h
      cases h
    · rw [hopened] at h
      cases h
      have hnoted : Grown opened _ := grown_note host { s with files := opened }
        (.opened stream (s.resolvePath r.target).text r.operator.appends)
      obtain ⟨-, mode, hstatus⟩ := FileTree.openFile_spec hfile
      obtain ⟨content, mode, hstatus, -⟩ := (hnoted.trans hgrown).status_file hstatus
      exact ⟨r, content, mode, hr, hstatus⟩

/-- Opening an output makes directories above its target, and then a file there. -/
theorem confined_openOutput (hgrown : Grown (s.openOutput host stage stream).1.files t) :
    Confined (s.TargetsBelow stage stream t) (s.Targets stage stream t) host.Records s.files
      (s.openOutput host stage stream).1.files := by
  obtain ⟨-, hnone⟩ | ⟨r, made, hr, hmade, hcase⟩ := openOutput_cases host s stage stream
  · rw [hnone]
    exact .refl s.files
  · have hparents : ∀ {u}, Grown made u → Grown u t → Confined (s.TargetsBelow stage stream t)
        (s.Targets stage stream t) host.Records s.files made := by
      intro u hu ht
      have hdirectories := FileTree.made_ensureParents s.files host.nesting s.processPlace
        (s.resolvePath r.target)
      rw [← hmade] at hdirectories
      apply Confined.of_made hdirectories
      intro path place habove hleads
      exact ⟨r, path, hr, habove, (hu.trans ht).directory? hleads⟩
    obtain ⟨failure, hfailed⟩ | ⟨opened, handle, hfile, hopened⟩ := hcase
    · rw [hfailed] at hgrown ⊢
      exact hparents (.refl made) hgrown
    · rw [hopened] at hgrown ⊢
      have hnoted : Grown opened _ := grown_note host { s with files := opened }
        (.opened stream (s.resolvePath r.target).text r.operator.appends)
      have hplace : s.Targets stage stream t handle.place := targets_of_openOutput hopened hgrown
      have hdirectories := hparents (FileTree.grown_openFile hfile) (hnoted.trans hgrown)
      have hfiles := hdirectories.trans (.of_openFile hfile hplace)
      exact hfiles.trans ((progress_confined host _ _).note { s with files := opened } _ rfl)

end Session

/-! ## Stages and runs -/

namespace Arrival

open Session (Unmoved)

/-- In the tree `t`, the file at `place` takes an output of the stage. -/
def Targets (a : Arrival) (t : FileTree) (place : Place) : Prop :=
  ∃ stream, stream ≠ .stdin ∧ a.session.Targets a.stage stream t place

/-- In the tree `t`, the target of an output of the stage is below the directory at `place`. -/
def TargetsBelow (a : Arrival) (t : FileTree) (place : Place) : Prop :=
  ∃ stream, stream ≠ .stdin ∧ a.session.TargetsBelow a.stage stream t place

variable {host : Host} {t : FileTree}

theorem confined_openChannels {a : Arrival}
    (hgrown : Grown (a.session.openChannels host a.stage).1.files t) :
    Confined (a.TargetsBelow t) (a.Targets t) host.Records a.session.files
      (a.session.openChannels host a.stage).1.files := by
  have hout : ∀ {s}, Unmoved a.session s → ∀ {stream}, stream ≠ .stdin →
      Grown (s.openOutput host a.stage stream).1.files t →
      Confined (a.TargetsBelow t) (a.Targets t) host.Records s.files
        (s.openOutput host a.stage stream).1.files := by
    intro s hs stream hstream ht
    apply (Session.confined_openOutput ht).mono
    · exact fun place hplace => ⟨stream, hstream, hplace.of_unmoved hs⟩
    · exact fun place hplace => ⟨stream, hstream, hplace.of_unmoved hs⟩
  have hhere : Unmoved a.session a.session := (Session.progress_unmoved host).refl a.session
  have hopened := Session.unmoved_openOutput host a.session a.stage .stdout
  rcases Session.openChannels_session host a.session a.stage with hleft | hleft | hleft
  · rw [hleft]
    exact .refl a.session.files
  · rw [hleft] at hgrown ⊢
    exact hout hhere (by simp) hgrown
  · rw [hleft] at hgrown ⊢
    have hsecond := hout hopened (by simp) hgrown
    exact (hout hhere (by simp) (hsecond.grown.trans hgrown)).trans hsecond

/-- Of the files a stage changes those that take its outputs. -/
theorem confined_run {a : Arrival} (hgrown : Grown (a.run host).1.files t) :
    Confined (a.TargetsBelow t) (a.Targets t) host.Records a.session.files (a.run host).1.files := by
  have hready := (Session.grown_runStage_of_openChannels host a.session a.stage a.piped a.last).trans
    hgrown
  apply (Session.progress_confined host (a.TargetsBelow t) (a.Targets t)).runStage
  case hmoves =>
    intro _ s path
    rw [Session.changeDirectory_files]
    exact .refl s.files
  case hopen => exact confined_openChannels hready
  case hopened =>
    intro ready channels hopen
    rw [hopen] at hready
    obtain ⟨-, opened, hout, herr⟩ := Session.openChannels_ok hopen
    have hunmoved := Session.unmoved_openOutput host a.session a.stage .stdout
    have hgrows := Session.grown_openOutput host opened a.stage .stderr
    rw [hout] at hunmoved
    rw [herr] at hgrows
    refine ⟨?_, ?_⟩
    · intro handle hhandle
      rw [Option.mem_def.1 hhandle] at hout
      have htargets := Session.targets_of_openOutput hout (hgrows.trans hready)
      exact ⟨.stdout, by simp, htargets⟩
    · intro handle hhandle
      rw [Option.mem_def.1 hhandle] at herr
      have htargets := Session.targets_of_openOutput herr hready
      exact ⟨.stderr, by simp, htargets.of_unmoved hunmoved⟩

end Arrival

namespace Session

variable {host : Host}

/-- What a line changes is confined to what its stages send their output to. -/
theorem confined_execute (host : Host) (s : Session) (line : String) {t : FileTree}
    (ht : t = (s.execute host line).1.files) :
    Confined (fun place => ∃ a ∈ s.lineArrivals host line, a.TargetsBelow t place)
      (fun place => ∃ a ∈ s.lineArrivals host line, a.Targets t place) host.Records s.files
      (s.execute host line).1.files := by
  apply (progress_confined host _ _).execute
  intro a ha
  have hgrown := grown_lineArrivals host s line ha
  rw [← ht] at hgrown
  apply (a.confined_run hgrown).mono
  · exact fun place hplace => ⟨a, ha, hplace⟩
  · exact fun place hplace => ⟨a, ha, hplace⟩

/-- What a line that comes to the given stages makes of the tree `t`. -/
structure Framed (host : Host) (reached : List Arrival) (t t' : FileTree) : Prop where
  directory : ∀ place, t.find? place = some .directory → t'.find? place = some .directory
  link : ∀ place target, t.find? place = some (.link target) → t'.find? place = some (.link target)
  /-- A file is there, with the mode that it had or with that without its set-ID bits, and only as the
  target of an output, or as the file of the records, with another mode or with other bytes. -/
  file : ∀ place content mode, t.find? place = some (.file content mode) →
    ∃ content' mode', t'.find? place = some (.file content' mode') ∧ ModeKept mode mode' ∧
      (content' ≠ content ∨ mode' ≠ mode →
        (∃ a ∈ reached, a.Targets t' place) ∨ host.Records place)
  newFile : ∀ place content mode, t.find? place = none →
    t'.find? place = some (.file content mode) →
    (∃ a ∈ reached, a.Targets t' place) ∧ Entry.someoneExecutes mode = false
  newDirectory : ∀ place, t.find? place = none → t'.find? place = some .directory →
    ∃ a ∈ reached, a.TargetsBelow t' place
  noNewLink : ∀ place target, t.find? place = none → t'.find? place ≠ some (.link target)
  /-- Whatever else a stage names, such as a file that it reads or the target of a redirection that a
  later one overrides, it leaves alone. -/
  untouched : ∀ place, (∀ a ∈ reached, ¬a.Targets t' place ∧ ¬a.TargetsBelow t' place) →
    ¬host.Records place → t'.find? place = t.find? place

theorem framed_of_confined {reached : List Arrival} {t t' : FileTree}
    (h : Confined (fun place => ∃ a ∈ reached, a.TargetsBelow t' place)
      (fun place => ∃ a ∈ reached, a.Targets t' place) host.Records t t') :
    Framed host reached t t' := by
  constructor
  case directory =>
    intro place hfind
    have hchange := h.change place
    rw [hfind] at hchange
    exact hchange.of_directory
  case link =>
    intro place target hfind
    have hchange := h.change place
    rw [hfind] at hchange
    exact hchange.of_link
  case file =>
    intro place content mode hfind
    have hchange := h.change place
    rw [hfind] at hchange
    exact hchange.of_file
  case newFile =>
    intro place content mode hnone hfind
    have hchange := h.change place
    rw [hnone, hfind] at hchange
    cases hchange with
    | file htarget => exact ⟨htarget, rfl⟩
  case newDirectory =>
    intro place hnone hfind
    have hchange := h.change place
    rw [hnone, hfind] at hchange
    cases hchange with
    | directory hbelow => exact hbelow
  case noNewLink =>
    intro place target hnone hfind
    have hchange := h.change place
    rw [hnone, hfind] at hchange
    cases hchange
  case untouched =>
    intro place hclear hlog
    have htargets : ¬∃ a ∈ reached, a.Targets t' place := fun ⟨a, ha, htarget⟩ =>
      (hclear a ha).1 htarget
    have hbelow : ¬∃ a ∈ reached, a.TargetsBelow t' place := fun ⟨a, ha, hbelow⟩ =>
      (hclear a ha).2 hbelow
    exact (h.change place).eq_of_not hbelow htargets (not_or.2 ⟨htargets, hlog⟩)

/-- Whatever a line is and however it ends, it changes the files that its stages send their output to
and makes the directories above them; all else in the tree is as it was. -/
theorem execute_framed (host : Host) (s : Session) (line : String) :
    Framed host (s.lineArrivals host line) s.files (s.execute host line).1.files :=
  framed_of_confined (confined_execute host s line rfl)

/-- The records of `pwd` go to a file that is the target of no output, and `echo a > /in` takes the
set-ID bit of a file away. -/
theorem execute_framed_records_setId :
    let after := (Small.session.execute Small.recordingHost "pwd").1.files
    ((∀ a ∈ Small.session.lineArrivals Small.recordingHost "pwd", ¬a.Targets after ["in"]) ∧
      after.find? ["in"] ≠ Small.session.files.find? ["in"]) ∧
    Small.setId.files.find? ["in"] = some (.file Small.input 0o4755) ∧
      (Small.setId.execute Small.host "echo a > /in").1.files.find? ["in"] =
        some (.file (Text.encode "a\n") 0o755) := by
  intro after
  have hbare : ∀ a ∈ Small.session.lineArrivals Small.recordingHost "pwd",
      a.stage.redirections = [] := by
    decide +kernel
  refine ⟨⟨?_, by decide +kernel⟩, rfl, by decide +kernel⟩
  rintro a ha ⟨stream, -, htargets⟩
  apply htargets.bound
  simp [Stage.redirection?, hbare a ha]

end Session

end PipelineShell
