import PipelineShell.Proofs.Blindness
import PipelineShell.Proofs.SameWorld
import PipelineShell.Proofs.Tally

/-!
# Sessions beside each other

Two sessions are `Beside` each other if they are the same but for their records, their counts and what
the error stream of the terminal had received before. No run sees the difference, unless a stage reads
the file that the records go to, and one of the runs may even be on a host that keeps records back
(`unseen_beside`). So what is shown for a host that records nothing holds for every host, up to what the
records themselves change.
-/

namespace PipelineShell

/-! ## Hosts that keep records back -/

/-- A log that receives no records of the least level, and is at the same place. -/
def Log.hushed : Log → Log
  | .silent => .silent
  | .terminal _ => .silent
  | .file place _ => .file place (Level.debug.rank + 1)

/-- A host without records of the least level. -/
def Host.hushed (host : Host) : Host := { host with log := host.log.hushed }

namespace Host

variable {host host' : Host}

theorem quiet_hushed (host : Host) : host.hushed.Quiet := by
  unfold Quiet hushed Log.hushed
  cases host.log with
  | silent => trivial
  | terminal threshold => trivial
  | file place threshold => exact Nat.lt_succ_self _

/-- `host'` is `host`, or it is `host` without its records. -/
structure Mutes (host host' : Host) : Prop where
  installation : host'.installation = host.installation
  sharesTerminal : host'.sharesTerminal = host.sharesTerminal
  movesProcess : host'.movesProcess = host.movesProcess
  nesting : host'.nesting = host.nesting
  busy : ∀ order, Session.busyPlaces host' order = Session.busyPlaces host order
  records : ∀ {place}, host'.Records place → host.Records place
  shows : host'.ShowsRecords → host.ShowsRecords

theorem Mutes.refl (host : Host) : host.Mutes host :=
  ⟨rfl, rfl, rfl, rfl, fun _ => rfl, id, id⟩

theorem mutes_hushed (host : Host) : host.Mutes host.hushed := by
  refine ⟨rfl, rfl, rfl, rfl, ?_, ?_, ?_⟩
  · intro order
    unfold Session.busyPlaces hushed Log.hushed
    cases host.log <;> rfl
  · exact fun h => absurd h (host.quiet_hushed.not_records _)
  · exact fun h => absurd h host.quiet_hushed.not_showsRecords

end Host

namespace Session

open FileTree (Rewritten)

variable {host host' : Host} {s s' s'' : Session} {before before' before'' : Bytes}

/-! ## Sessions beside each other -/

/-- Two sessions are the same but for their records, their counts and what the error stream of the
terminal had received before: `before` in one and `before'` in the other. -/
structure Beside (host : Host) (before before' : Bytes) (s s' : Session) : Prop where
  /-- Only what records have written to a file may be different. -/
  files : Rewritten host.Records s.files s'.files
  directory : s'.directory = s.directory
  processPlace : s'.processPlace = s.processPlace
  environment : s'.environment = s.environment
  out : s'.out = s.out
  input : s'.input = s.input
  /-- Records may go to the error stream, too. -/
  err : ¬host.ShowsRecords → ∃ text, s.err = before ++ text ∧ s'.err = before' ++ text

/-- The file that a stage reads, if it has one, is not the one that records go to. -/
def ReadsNoRecords (host : Host) (s : Session) (stage : Stage) : Prop :=
  ∀ r, stage.redirection? .stdin = some r → ∀ place entry,
    s.files.status s.processPlace (s.resolvePath r.target).text = .ok (place, entry) →
      ¬host.Records place

namespace Beside

theorem refl (s : Session) : Beside host s.err s.err s s := by
  refine ⟨.refl s.files, rfl, rfl, rfl, rfl, rfl, fun _ => ⟨[], ?_, ?_⟩⟩
  · exact (List.append_nil _).symm
  · exact (List.append_nil _).symm

theorem trans (h : Beside host before before' s s') (h' : Beside host before' before'' s' s'') :
    Beside host before before'' s s'' := by
  refine ⟨h.files.trans h'.files, h'.directory.trans h.directory,
    h'.processPlace.trans h.processPlace, h'.environment.trans h.environment, h'.out.trans h.out,
    h'.input.trans h.input, ?_⟩
  intro hshows
  obtain ⟨text, herr, herr'⟩ := h.err hshows
  obtain ⟨text', herr₁, herr''⟩ := h'.err hshows
  have hsame : text' = text := List.append_cancel_left (herr₁.symm.trans herr')
  rw [hsame] at herr''
  exact ⟨text, herr, herr''⟩

/-- What two sessions have both received before can be all that one of them has received. -/
theorem rebased (h : Beside host before before s s') : Beside host s.err s.err s s' := by
  refine { h with err := fun hshows => ⟨[], (List.append_nil _).symm, ?_⟩ }
  obtain ⟨text, herr, herr'⟩ := h.err hshows
  rw [herr', herr, List.append_nil]

theorem symm (h : Beside host before before' s s') : Beside host before' before s' s := by
  refine ⟨h.files.symm, h.directory.symm, h.processPlace.symm, h.environment.symm, h.out.symm,
    h.input.symm, ?_⟩
  intro hshows
  obtain ⟨text, herr, herr'⟩ := h.err hshows
  exact ⟨text, herr', herr⟩

theorem noted (hmutes : host.Mutes host') (h : Beside host before before' s s') {event : Event}
    (hlevel : event.level = .debug) : Beside host before before' (s.note host' event) s' := by
  have hworld := (sameWorld_note host' s hlevel).files
  constructor
  case files => exact (hworld.mono fun _ => hmutes.records).symm.trans h.files
  case directory => simpa using h.directory
  case processPlace => simpa using h.processPlace
  case environment => simpa using h.environment
  case out => simpa using h.out
  case input => simpa using h.input
  case err =>
    intro hshows
    have hshows' : ¬host'.ShowsRecords := fun h' => hshows (hmutes.shows h')
    rw [note_err, Host.echoes_of_not_showsRecords hshows' (List.forall_mem_singleton.2 hlevel),
      List.append_nil]
    exact h.err hshows

theorem notedAll (h : Beside host before before' s s') {events : List Event}
    (hlevel : ∀ event ∈ events, event.level = .debug) :
    Beside host before before' (s.noteAll host events) s' := by
  induction events generalizing s with
  | nil => exact h
  | cons event rest ih =>
    obtain ⟨hevent, hrest⟩ := List.forall_mem_cons.1 hlevel
    exact ih (h.noted (.refl host) hevent) hrest

/-- Records may be different. -/
theorem note (hmutes : host.Mutes host') (h : Beside host before before' s s') {event event' : Event}
    (hlevel : event.level = .debug) (hlevel' : event'.level = .debug) :
    Beside host before before' (s.note host event) (s'.note host' event') :=
  ((h.noted (.refl host) hlevel).symm.noted hmutes hlevel').symm

theorem print (h : Beside host before before' s s') (text : Bytes) :
    Beside host before before' (s.print text) (s'.print text) :=
  { h with out := congrArg (· ++ text) h.out }

theorem printError (h : Beside host before before' s s') (text : Bytes) :
    Beside host before before' (s.printError text) (s'.printError text) := by
  refine { h with err := fun hshows => ?_ }
  obtain ⟨added, herr, herr'⟩ := h.err hshows
  refine ⟨added ++ text, ?_, ?_⟩
  · simp only [Session.printError, herr, List.append_assoc]
  · simp only [Session.printError, herr', List.append_assoc]

theorem tallied (h : Beside host before before' s s') (tally : Tally) :
    Beside host before before' { s with tally := tally } s' :=
  { h with }

theorem flushed (h : Beside host before before' s s') : Beside host before before' s.flush s' :=
  { h with }

/-- A report that one session alone makes. -/
theorem reported (h : Beside host before s'.err s s') (text : Bytes) :
    Beside host (before ++ text) s'.err (s.printError text) s' := by
  refine { h with err := fun hshows => ⟨[], ?_, (List.append_nil _).symm⟩ }
  obtain ⟨added, herr, herr'⟩ := h.err hshows
  have hnothing : added = [] := List.append_right_eq_self.1 herr'.symm
  simp only [Session.printError, herr, hnothing, List.append_nil]

theorem withFiles (h : Beside host before before' s s') {t t' : FileTree}
    (hfiles : Rewritten host.Records t t') :
    Beside host before before' { s with files := t } { s' with files := t' } :=
  { h with files := hfiles }

theorem changeDirectory (hmutes : host.Mutes host') (h : Beside host before before' s s')
    (path : String) :
    SameAnswer (Beside host before before') (s.changeDirectory host path)
      (s'.changeDirectory host' path) := by
  apply changeDirectory_sameAnswer h hmutes.movesProcess h.files.grants h.directory
  case hexists =>
    intro path
    rw [h.processPlace, FileTree.pathExists_rewritten h.files]
  case hleads =>
    intro path
    rw [h.processPlace, FileTree.directory?_rewritten h.files]
  case hmoved =>
    intro directory place
    exact { h with directory := rfl, processPlace := by simp only [h.processPlace] }

theorem openOutput (hmutes : host.Mutes host') (h : Beside host before before' s s') (stage : Stage)
    (stream : Stream) :
    SameAnswer (Beside host before before') (s.openOutput host stage stream)
      (s'.openOutput host' stage stream) := by
  apply openOutput_rewritten h.files h.directory h.processPlace hmutes.nesting h
  case hwith => exact h.withFiles
  case hnote => exact fun event hu hlevel => hu.note hmutes hlevel hlevel

theorem carryOut (h : Beside host before before' s s') (hflushed : s.Flushed)
    (hflushed' : s'.Flushed) (order : Order) (p : Performance) :
    Beside host before before' (s.carryOut order p) (s'.carryOut order p) := by
  have hfiles := FileTree.carry_rewritten h.files order.out.handle? order.err.handle? p.writes
  have hheld : s.held = ⟨0, 0⟩ := hflushed
  have hheld' : s'.held = ⟨0, 0⟩ := hflushed'
  refine { h with files := hfiles, out := ?_, input := ?_, err := fun hshows => ?_ }
  · simp only [Session.carryOut, h.out, hheld, hheld']
  · simp only [Session.carryOut, h.input]
  · obtain ⟨text, herr, herr'⟩ := h.err hshows
    simp only [Session.carryOut, hheld, hheld', slipIn_zero]
    split
    · refine ⟨text ++ p.written .err, ?_, ?_⟩
      · rw [herr, List.append_assoc]
      · rw [herr', List.append_assoc]
    · exact ⟨text, herr, herr'⟩

theorem announced (h : Beside host before before' s s') (stage : Stage)
    (position position' total total' : Nat) :
    Beside host before before' (Session.announced host position total s stage)
      (Session.announced host position' total' s' stage) := by
  unfold Session.announced
  rw [foldl_report, foldl_report]
  exact ((h.note (.refl host) rfl rfl).printError _).note (.refl host) rfl rfl

end Beside

/-- A run does not see what is different in sessions beside each other, unless it reads its records. -/
theorem unseen_beside (hmutes : host.Mutes host') (before before' : Bytes) :
    Unseen host host' (fun s stage => s.ReadsNoRecords host stage) (Beside host before before') where
  directory h := h.directory
  environment h := h.environment
  isExecutable h path := isExecutable_rewritten h.files h.processPlace path
  note h event hlevel := h.note hmutes hlevel hlevel
  shares := hmutes.sharesTerminal
  grants h := h.files.grants
  changeDirectory h path := h.changeDirectory hmutes path
  openChannels h _ hclear :=
    openChannels_sameAnswer (readInput_rewritten h.files h.directory h.processPlace hclear) h
      (h.openOutput hmutes _ .stdout) fun _ _ _ _ hopened => hopened.openOutput hmutes _ .stderr
  started h order := by
    rw [started_congr hmutes.installation (hmutes.busy order)]
    exact started_rewritten h.files h.processPlace (fun _ hp => hp) order
  input h := h.input
  print h text := h.print text
  printError h text := h.printError text
  flush h := h.flushed.symm.flushed.symm
  writeFile h handle bytes := h.withFiles (FileTree.write_rewritten h.files handle bytes).2
  carryOut h hflushed hflushed' order p := h.carryOut hflushed hflushed' order p
  tally h count := ((h.tallied _).symm.tallied _).symm

/-! ## Sessions with the same count -/

/-- What a run does not see it does not see either if programs were started as often. -/
theorem Unseen.counted {Clear : Session → Stage → Prop} {R : Session → Session → Prop}
    (hR : Unseen host host' Clear R) :
    Unseen host host' Clear fun s s' => R s s' ∧ s'.tally = s.tally where
  directory h := hR.directory h.1
  environment h := hR.environment h.1
  isExecutable h path := hR.isExecutable h.1 path
  note h event hlevel := ⟨hR.note h.1 event hlevel, by rw [note_tally, note_tally, h.2]⟩
  shares := hR.shares
  grants h := hR.grants h.1
  changeDirectory h path := by
    obtain ⟨hanswer, hafter⟩ := hR.changeDirectory h.1 path
    refine ⟨hanswer, hafter, ?_⟩
    rw [changeDirectory_tally, changeDirectory_tally, h.2]
  openChannels h _ hclear := by
    obtain ⟨hanswer, hafter⟩ := hR.openChannels h.1 hclear
    refine ⟨hanswer, hafter, ?_⟩
    rw [openChannels_tally, openChannels_tally, h.2]
  started h order := hR.started h.1 order
  input h := hR.input h.1
  print h text := ⟨hR.print h.1 text, h.2⟩
  printError h text := ⟨hR.printError h.1 text, h.2⟩
  flush h := ⟨hR.flush h.1, h.2⟩
  writeFile h handle bytes := ⟨hR.writeFile h.1 handle bytes, h.2⟩
  carryOut h hflushed hflushed' order p := ⟨hR.carryOut h.1 hflushed hflushed' order p, h.2⟩
  tally h count := ⟨hR.tally h.1 count, congrArg count h.2⟩

/-- Two sessions are the same but for their records. To the error stream of the terminal, which had
received `before`, both have written the same. -/
def Recorded (host : Host) (before : Bytes) (s s' : Session) : Prop :=
  Beside host before before s s' ∧ s'.tally = s.tally

theorem unseen_recorded (hmutes : host.Mutes host') (before : Bytes) :
    Unseen host host' (fun s stage => s.ReadsNoRecords host stage) (Recorded host before) :=
  (unseen_beside hmutes before before).counted

namespace Recorded

theorem refl (s : Session) : Recorded host s.err s s := ⟨.refl s, rfl⟩

theorem symm (h : Recorded host before s s') : Recorded host before s' s := ⟨h.1.symm, h.2.symm⟩

theorem trans (h : Recorded host before s s') (h' : Recorded host before s' s'') :
    Recorded host before s s'' :=
  ⟨h.1.trans h'.1, h'.2.trans h.2⟩

theorem notedAll (h : Recorded host before s s') {events : List Event}
    (hlevel : ∀ event ∈ events, event.level = .debug) :
    Recorded host before (s.noteAll host events) s' :=
  ⟨h.1.notedAll hlevel, by rw [noteAll_tally, h.2]⟩

/-- Records may be different. -/
theorem note (h : Recorded host before s s') {event event' : Event} (hlevel : event.level = .debug)
    (hlevel' : event'.level = .debug) :
    Recorded host before (s.note host event) (s'.note host event') :=
  ⟨h.1.note (.refl host) hlevel hlevel', by rw [note_tally, note_tally, h.2]⟩

theorem announced (h : Recorded host before s s') (stage : Stage)
    (position position' total total' : Nat) :
    Recorded host before (Session.announced host position total s stage)
      (Session.announced host position' total' s' stage) :=
  ⟨h.1.announced stage position position' total total', by
    rw [announced_tally, announced_tally, h.2]⟩

end Recorded

end Session

end PipelineShell
