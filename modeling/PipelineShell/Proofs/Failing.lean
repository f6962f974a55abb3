import PipelineShell.Proofs.Beside
import PipelineShell.Proofs.FileTree.Making
import PipelineShell.Proofs.FileTree.Output
import PipelineShell.Proofs.Small
import PipelineShell.Proofs.Told
import PipelineShell.Proofs.Words

/-!
# Redirections that fail

A stage reads its input file, then opens the file for its output, then the file for its errors; the
first of these that fails cuts the line short. Nothing is run from then on. What has happened is what
happens in the line that ends before the stage, a report, and what opening files has made
(`execute_of_fails`).
-/

namespace PipelineShell

/-- The streams for which a stage has come to open a file when the redirection of one stream fails. -/
def Stream.tried : Stream → List Stream
  | .stdin => []
  | .stdout => [.stdout]
  | .stderr => [.stdout, .stderr]

/-- A stage without words. -/
def Stage.blank : Stage := ⟨[], [], []⟩

namespace Session

open FileTree (Grown Made Opening AbovePath Rewritten)

variable {host : Host} {s s' : Session} {stage : Stage} {stream : Stream} {r : Redirection}

/-! ## Opening files -/

/-- `s'` is `s` but for its files and records, and what is recorded is that files were opened. -/
def OnlyOpened (s s' : Session) : Prop :=
  ∃ t err held events,
    s' = { s with files := t, err := err, held := held, journal := s.journal ++ events } ∧
      ∀ event ∈ events, ∃ stream path appends, event = .opened stream path appends

theorem OnlyOpened.of_files (s : Session) (t : FileTree) : OnlyOpened s { s with files := t } := by
  refine ⟨t, s.err, s.held, [], ?_, by simp⟩
  rw [List.append_nil]

theorem OnlyOpened.resolvePath (h : OnlyOpened s s') (path : String) :
    s'.resolvePath path = s.resolvePath path := by
  obtain ⟨t, err, held, events, rfl, -⟩ := h
  rfl

theorem OnlyOpened.processPlace (h : OnlyOpened s s') : s'.processPlace = s.processPlace := by
  obtain ⟨t, err, held, events, rfl, -⟩ := h
  rfl

theorem OnlyOpened.trans {s'' : Session} (h : OnlyOpened s s') (h' : OnlyOpened s' s'') :
    OnlyOpened s s'' := by
  obtain ⟨t, err, held, events, rfl, hevents⟩ := h
  obtain ⟨t', err', held', events', rfl, hevents'⟩ := h'
  refine ⟨t', err', held', events ++ events', ?_, ?_⟩
  · simp only [List.append_assoc]
  · intro event hevent
    rcases List.mem_append.1 hevent with hevent | hevent
    · exact hevents event hevent
    · exact hevents' event hevent

theorem OnlyOpened.note (host : Host) (s : Session) (files : FileTree) (stream : Stream)
    (path : String) (appends : Bool) :
    OnlyOpened s ({ s with files := files }.note host (.opened stream path appends)) := by
  obtain ⟨t, err, held, hnoted⟩ :=
    note_changes host { s with files := files } (.opened stream path appends)
  refine ⟨t, err, held, [.opened stream path appends], hnoted, ?_⟩
  intro event hevent
  exact ⟨stream, path, appends, List.mem_singleton.1 hevent⟩

theorem onlyOpened_openOutput (host : Host) (s : Session) (stage : Stage) (stream : Stream) :
    OnlyOpened s (s.openOutput host stage stream).1 := by
  unfold openOutput
  split
  · exact .of_files s s.files
  · simp only
    split
    · exact .of_files s _
    · split
      · exact .of_files s _
      · next files handle _ => exact .note host s files _ _ _

theorem onlyOpened_openChannels (host : Host) (s : Session) (stage : Stage) :
    OnlyOpened s (s.openChannels host stage).1 :=
  openChannels_preserves (fun s => .of_files s s.files) (fun h h' => h.trans h')
    (fun s stream => onlyOpened_openOutput host s stage stream) s

/-- A redirection of an output that fails has made directories above its target at most. -/
theorem made_of_openOutput_error {opened : Session} {stop : Stop}
    (hr : stage.redirection? stream = some r)
    (h : s.openOutput host stage stream = (opened, .error stop)) :
    Made s.processPlace (AbovePath (s.resolvePath r.target)) s.files opened.files := by
  have hparents :=
    FileTree.made_ensureParents s.files host.nesting s.processPlace (s.resolvePath r.target)
  unfold openOutput at h
  simp only [hr] at h
  split at h
  · next hmade =>
    cases h
    rw [hmade] at hparents
    exact hparents
  · next hmade =>
    rw [hmade] at hparents
    split at h
    · cases h
      exact hparents
    · cases h

/-- A redirection of an output that succeeds has made directories above its target, and then changes
what stands at its target. Only the file of the records may change besides. -/
theorem made_of_openOutput_ok {opened : Session} {out : Option Handle}
    (hr : stage.redirection? stream = some r)
    (h : s.openOutput host stage stream = (opened, .ok out)) :
    ∃ made target entry,
      Made s.processPlace (AbovePath (s.resolvePath r.target)) s.files made ∧
      Grown made opened.files ∧
      opened.files.status s.processPlace (s.resolvePath r.target).text = .ok (target, entry) ∧
      ∀ place, ¬host.Records place → opened.files.find? place = made.find? place ∨
        place = target ∧
          Opening r.operator.appends (made.find? place) (opened.files.find? place) := by
  have hparents :=
    FileTree.made_ensureParents s.files host.nesting s.processPlace (s.resolvePath r.target)
  unfold openOutput at h
  simp only [hr] at h
  split at h
  · cases h
  · next made hmade =>
    rw [hmade] at hparents
    split at h
    · cases h
    · next files handle hopen =>
      cases h
      obtain ⟨-, mode, hstatus⟩ := FileTree.openFile_spec hopen
      have hgrown := FileTree.grown_openFile hopen
      have hchanges := FileTree.openFile_changes hopen
      have hnoted := grown_note host { s with files := files }
        (.opened stream (s.resolvePath r.target).text r.operator.appends)
      have hrecord : Rewritten host.Records files ({ s with files := files }.note host
          (.opened stream (s.resolvePath r.target).text r.operator.appends)).files :=
        (sameWorld_note host { s with files := files } rfl).files
      obtain ⟨content', mode', hstatus', -⟩ := hnoted.status_file hstatus
      refine ⟨made, handle.place, _, hparents, hgrown.trans hnoted, hstatus', ?_⟩
      intro place hplace
      rw [hrecord.outside place hplace]
      exact hchanges place

/-! ## Failing -/

/-- The redirection `r` of one of its streams is the first one of a stage that fails, and the system's
reason is `e`. -/
inductive Fails (host : Host) (s : Session) (stage : Stage) :
    Stream → Redirection → SystemError → Prop
  | input {r : Redirection} {e : SystemError} (hr : stage.redirection? .stdin = some r)
    (h : s.readInput stage = .error (stopAt stage r (.system e))) : Fails host s stage .stdin r e
  | output {r : Redirection} {e : SystemError} {input : Option Bytes} {left : Session}
    (hr : stage.redirection? .stdout = some r) (hinput : s.readInput stage = .ok input)
    (h : s.openOutput host stage .stdout = (left, .error (stopAt stage r (.system e)))) :
    Fails host s stage .stdout r e
  | errors {r : Redirection} {e : SystemError} {input : Option Bytes} {opened left : Session}
    {out : Option Handle} (hr : stage.redirection? .stderr = some r)
    (hinput : s.readInput stage = .ok input)
    (hout : s.openOutput host stage .stdout = (opened, .ok out))
    (h : opened.openOutput host stage .stderr = (left, .error (stopAt stage r (.system e)))) :
    Fails host s stage .stderr r e

/-- What stands at a place after a stage has failed at one of its redirections, beside what stood
there before. -/
inductive Left (s : Session) (stage : Stage) (stream : Stream) (t : FileTree) (place : Place) : Prop
  | same (h : t.find? place = s.files.find? place)
  /-- A directory above a target, made because it was missing. -/
  | directory (stream' : Stream) (r : Redirection) (path : String) (hstream : stream' ∈ stream.tried)
    (hr : stage.redirection? stream' = some r) (hnone : s.files.find? place = none)
    (hmade : t.find? place = some .directory) (hpath : AbovePath (s.resolvePath r.target) path)
    (hleads : t.directory? s.processPlace path = some place)
  /-- The target of the output, opened before the redirection of the errors failed. -/
  | target (r : Redirection) (entry : Entry) (hstream : stream = .stderr)
    (hr : stage.redirection? .stdout = some r)
    (hleads : t.status s.processPlace (s.resolvePath r.target).text = .ok (place, entry))
    (hopening : Opening r.operator.appends (s.files.find? place) (t.find? place))

theorem Left.of_made {t : FileTree} (hstream : stream ∈ stream.tried)
    (hr : stage.redirection? stream = some r)
    (h : Made s.processPlace (AbovePath (s.resolvePath r.target)) s.files t) (place : Place) :
    Left s stage stream t place := by
  by_cases hne : t.find? place = s.files.find? place
  · exact .same hne
  · obtain ⟨hnone, hmade, path, hpath, hleads⟩ := h.directory hne
    exact .directory stream r path hstream hr hnone hmade hpath hleads

/-- The target of the output is opened, then directories are made for the errors. -/
theorem left_of_errors {opened left : Session} {out : Option Handle} {stop : Stop}
    (hr : stage.redirection? .stderr = some r)
    (hout : s.openOutput host stage .stdout = (opened, .ok out))
    (h : opened.openOutput host stage .stderr = (left, .error stop)) {place : Place}
    (hplace : ¬host.Records place) : Left s stage .stderr left.files place := by
  have hopened := onlyOpened_openOutput host s stage .stdout
  have hgrown := grown_openOutput host s stage .stdout
  have hmade := made_of_openOutput_error hr h
  rw [hout] at hopened hgrown
  rw [hopened.resolvePath, hopened.processPlace] at hmade
  have hstdout : Stream.stdout ∈ Stream.stderr.tried := by simp [Stream.tried]
  have hstderr : Stream.stderr ∈ Stream.stderr.tried := by simp [Stream.tried]
  cases hr' : stage.redirection? .stdout with
  | none =>
    rw [openOutput_none host s hr'] at hout
    cases hout
    exact .of_made hstderr hr hmade place
  | some r' =>
    obtain ⟨made, target, entry, hparents, hkept, hstatus, hchanges⟩ := made_of_openOutput_ok hr' hout
    -- Three steps may have changed a place. They are undone from the last one on: directories for the
    -- errors, the target of the output, directories for the output.
    rcases hmade.new place with hsame | ⟨hnone, path, hpath, hleads⟩
    · rcases hchanges place hplace with hsame' | ⟨rfl, hopening⟩
      · rcases hparents.new place with hsame'' | ⟨hnone, path, hpath, hleads⟩
        · exact .same ((hsame.trans hsame').trans hsame'')
        · have hleads' := (hkept.trans hmade.extended.grown).directory? hleads
          have hfound := (FileTree.directory?_eq_some_iff.1 hleads').2
          exact .directory .stdout r' path hstdout hr' hnone (FileTree.status_eq_ok_iff.1 hfound).2
            hpath hleads'
      · have hsame' : made.find? place = s.files.find? place := by
          by_contra hne
          rw [(hparents.directory hne).2.1] at hopening
          cases hopening
        rw [← hsame, hsame'] at hopening
        exact .target r' entry rfl hr' (hmade.extended.status hstatus) hopening
    · have hfree : s.files.find? place = none := by
        by_contra hne
        have hshape := hgrown.shape place (Option.isSome_iff_ne_none.2 hne)
        rw [FileTree.shape?_eq_none_iff.2 hnone] at hshape
        exact hne (FileTree.shape?_eq_none_iff.1 hshape.symm)
      have hfound := (FileTree.directory?_eq_some_iff.1 hleads).2
      exact .directory .stderr r path hstderr hr hfree (FileTree.status_eq_ok_iff.1 hfound).2 hpath
        hleads

/-- A stage whose redirection fails cannot be opened, and no more than that is left. -/
theorem openChannels_of_fails {e : SystemError} (h : s.Fails host stage stream r e) :
    ∃ left, s.openChannels host stage = (left, .error (stopAt stage r (.system e))) ∧
      ∀ place, ¬host.Records place → Left s stage stream left.files place := by
  cases h with
  | input hr h =>
    refine ⟨s, ?_, fun place _ => .same rfl⟩
    simp only [openChannels, h]
  | output hr hinput h =>
    have hmade := made_of_openOutput_error hr h
    refine ⟨_, ?_, fun place _ => .of_made (by simp [Stream.tried]) hr hmade place⟩
    simp only [openChannels, hinput, h]
  | errors hr hinput hout h =>
    refine ⟨_, ?_, fun place hplace => left_of_errors hr hout h hplace⟩
    simp only [openChannels, hinput, hout, h]

/-! ## Runs that are cut short -/

variable {before : Bytes} {total position : Nat} {piped : Option Bytes} {stages : List Stage} {k : Nat}
  {a : Arrival}

/-- A run ends at a stage whose redirections cannot be opened. -/
theorem runFrom_of_cut {left : Session} {stop : Stop}
    (hk : (arrivals host total position s piped stages)[k]? = some a)
    (hopen : a.session.openChannels host a.stage = (left, .error stop)) :
    runFrom host total position s piped stages = (left, .error stop) ∧
      stages[k]? = some a.stage := by
  have hstops : a.run host = (left, .error stop) := (Arrival.deed?_of_error hopen).1
  induction position, s, piped, stages using runFrom_induction host total generalizing k with
  | nil => cases hk
  | stopped position s piped stage rest done stop' hrun =>
    obtain ⟨hruns, harrivals⟩ := runFrom_of_stopped hrun
    rw [harrivals] at hk
    match k, hk with
    | 0, rfl =>
      rw [hstops] at hrun
      cases hrun
      exact ⟨hruns, rfl⟩
  | passed position s piped stage rest done result hrun ih =>
    obtain ⟨hruns, harrivals⟩ := runFrom_of_passed hrun
    rw [harrivals] at hk
    cases k with
    | zero =>
      cases hk
      rw [hstops] at hrun
      cases hrun
    | succ k =>
      obtain ⟨hrest, hstage⟩ := ih hk
      refine ⟨?_, hstage⟩
      rw [hruns, hrest]
      rfl

/-- A stage without words and redirections does nothing. -/
theorem runFrom_blank (h : Recorded host before s s') (total position : Nat)
    (piped : Option Bytes) :
    ∃ done, runFrom host total position s' piped [Stage.blank] = (done, .ok [⟨"", 0, none⟩]) ∧
      Recorded host before s done ∧ Reports host s' [] done := by
  have hlevel : ∀ event ∈ [Event.stage position total .pending Stage.blank,
      .stage position total .running Stage.blank, .stage position total .completed Stage.blank],
      event.level = .debug := by
    simp [Event.level]
  exact ⟨_, rfl, (h.symm.notedAll hlevel).symm, (silent_noteAll s' hlevel).reports⟩

/-- The stages before one that a run comes to do the same, and tell the same, without it and those
after it. -/
theorem runFrom_take (h : Recorded host before s s')
    (hk : (arrivals host total position s piped stages)[k]? = some a)
    (hclear : ∀ b ∈ (arrivals host total position s piped stages).take k,
      b.session.ReadsNoRecords host b.stage) (total' position' : Nat) :
    ∃ reached done results, a.session = announced host (position + k) total reached a.stage ∧
      runFrom host total' position' s' piped (stages.take k ++ [Stage.blank]) =
        (done, .ok results) ∧ Recorded host before reached done ∧
      Reports host s' (told host ((arrivals host total position s piped stages).take k)) done := by
  induction position, s, piped, stages using runFrom_induction host total
    generalizing s' k position' with
  | nil => cases hk
  | stopped position s piped stage rest done stop hrun =>
    rw [(runFrom_of_stopped hrun).2] at hk
    match k, hk with
    | 0, rfl =>
      obtain ⟨blanked, hblank, hsame, htold⟩ := runFrom_blank h total' position' piped
      exact ⟨s, blanked, _, rfl, hblank, hsame, htold⟩
  | passed position s piped stage rest done result hrun ih =>
    rw [(runFrom_of_passed hrun).2] at hk hclear ⊢
    cases k with
    | zero =>
      cases hk
      obtain ⟨blanked, hblank, hsame, htold⟩ := runFrom_blank h total' position' piped
      exact ⟨s, blanked, _, rfl, hblank, hsame, htold⟩
    | succ k =>
      have hmore : rest ≠ [] := by
        rintro rfl
        cases hk
      have hends : decide (rest.take k ++ [Stage.blank] = []) = decide (rest = []) := by
        simp [hmore]
      obtain ⟨hhere, hrest⟩ := List.forall_mem_cons.1 hclear
      have hunseen := unseen_recorded (.refl host) before
      have hannounced := h.announced stage position position' total total'
      have hfirst : SameAnswer (Recorded host before)
          ((announced host position total s stage).runStage host stage piped (rest = []))
          ((announced host position' total' s' stage).runStage host stage piped (rest = [])) :=
        hunseen.inStep.runStage hannounced hhere piped (rest = [])
      obtain ⟨done', hrun', hafter⟩ := hfirst.of_eq hrun
      have hnoted : Recorded host before (done.note host (.stage position total .completed stage))
          (done'.note host (.stage position' total' .completed stage)) := hafter.note rfl rfl
      obtain ⟨reached, last, results, hreached, hlast, hsame, htold⟩ :=
        ih hnoted hk hrest (position' + 1)
      -- The stage tells the same in both runs.
      let first : Arrival := arrival host total position s piped stage rest
      let first' : Arrival :=
        arrival host total' position' s' piped stage (rest.take k ++ [Stage.blank])
      have hrunFirst' : first'.run host = (done', .ok result) := by
        rw [← hrun']
        exact congrArg _ hends
      have herrors : first'.errors host = first.errors host :=
        hunseen.errors_of_matches ⟨hannounced, rfl, rfl, hends, by rw [hrunFirst', hrun]⟩ hhere
      have htells := reports_arrival host total' position' s' piped stage
        (rest.take k ++ [Stage.blank])
      rw [hrunFirst', herrors] at htells
      refine ⟨reached, last, result :: results, ?_, ?_, hsame, ?_⟩
      · rw [hreached, Nat.add_right_comm, Nat.add_assoc]
      · simp only [List.take_succ_cons, List.cons_append, runFrom_cons, hends, hrun']
        rw [hlast]
      · exact (htells.trans (.note done' rfl)).trans htold

/-! ## Lines that are cut short -/

/-- Where no records are, nothing else is left in a tree whose records have changed. -/
theorem Left.rewritten {t t' : FileTree} (h : Left s stage stream t place)
    (hfiles : Rewritten host.Records t t') (hplace : ¬host.Records place) :
    Left s stage stream t' place := by
  cases h with
  | same h => exact .same ((hfiles.outside place hplace).trans h)
  | directory stream' r path hstream hr hnone hmade hpath hleads =>
    rw [← hfiles.outside place hplace] at hmade
    rw [← FileTree.directory?_rewritten hfiles] at hleads
    exact .directory stream' r path hstream hr hnone hmade hpath hleads
  | target r entry hstream hr hleads hopening =>
    rw [← hfiles.outside place hplace] at hopening
    exact .target r entry hstream hr (hfiles.status hplace hleads) hopening

/-- Nor is it for a session beside the one before. -/
theorem Left.beside {t : FileTree} {before' : Bytes} (h : Left s stage stream t place)
    (hbeside : Beside host before before' s s') (hplace : ¬host.Records place) :
    Left s' stage stream t place := by
  have hresolve : ∀ path, s'.resolvePath path = s.resolvePath path := by
    intro path
    rw [resolvePath, resolvePath, hbeside.directory]
  cases h with
  | same h => exact .same (h.trans (hbeside.files.outside place hplace).symm)
  | directory stream' r path hstream hr hnone hmade hpath hleads =>
    rw [← hbeside.files.outside place hplace] at hnone
    rw [← hresolve] at hpath
    rw [← hbeside.processPlace] at hleads
    exact .directory stream' r path hstream hr hnone hmade hpath hleads
  | target r entry hstream hr hleads hopening =>
    rw [← hbeside.processPlace, ← hresolve] at hleads
    rw [← hbeside.files.outside place hplace] at hopening
    exact .target r entry hstream hr hleads hopening

/-- From `s` on nothing moves, nothing is started and no input is taken: files are opened, then the
line is given up. -/
structure Halted (s s' : Session) : Prop where
  directory : s'.directory = s.directory
  processPlace : s'.processPlace = s.processPlace
  environment : s'.environment = s.environment
  input : s'.input = s.input
  tally : s'.tally = s.tally
  journal : ∃ events diagnosis, s'.journal = s.journal ++ events ++ [.lineAborted diagnosis] ∧
    ∀ event ∈ events, ∃ stream path appends, event = .opened stream path appends

/-- What a line has done that is cut short at `a`, the stage after `k` others, since the redirection
`r` of one of its streams has failed. -/
structure CutShort (host : Host) (s s' : Session) (line : String) (k : Nat) (a : Arrival)
    (stream : Stream) (r : Redirection) (e : SystemError) : Prop where
  stage : (Pipeline.ofLine line).stages[k]? = some a.stage
  out : s'.out = s.out
  halted : Halted a.session s'
  /-- The error stream receives what the stages before tell, what is wrong with the words of the stage,
  and one report. -/
  reports : Reports host s (told host ((s.lineArrivals host line).take k) ++ [a.stage.complaints,
    Text.encode ((if a.stage.argv = [] then r.target else a.stage.name) ++ ": " ++ r.target ++ ": " ++
      e.reason ++ "\n")]) s'
  /-- The stages before, if they do not read the records, do and tell what they do and tell in the line
  that ends with an empty stage after them. The failure adds the report and what it has left of its
  attempts to open files. The file of the records is left out, and where records are shown they stand
  between the texts. -/
  before : (∀ b ∈ (s.lineArrivals host line).take k, b.session.ReadsNoRecords host b.stage) →
    ∃ done results,
      s.runPipeline host ⟨(Pipeline.ofLine line).stages.take k ++ [Stage.blank]⟩ =
        (done, .ok results) ∧
      s'.directory = done.directory ∧ s'.processPlace = done.processPlace ∧
      s'.environment = done.environment ∧ s'.input = done.input ∧ s'.tally = done.tally ∧
      s'.out = done.out ∧ Reports host s (told host ((s.lineArrivals host line).take k)) done ∧
      (¬host.ShowsRecords → s'.err = done.err ++ a.stage.complaints ++ Text.encode
        ((if a.stage.argv = [] then r.target else a.stage.name) ++ ": " ++ r.target ++ ": " ++
          e.reason ++ "\n")) ∧
      ∀ place, ¬host.Records place → Left done a.stage stream s'.files place

/-- The report of a redirection that fails names the command of its stage, or else the target. -/
theorem report_of_fails {line : String} {stage : Stage} (h : stage ∈ (Pipeline.ofLine line).stages)
    (r : Redirection) (e : SystemError) :
    (Diagnosis.badRedirection (if stage.name = "" then r.target else stage.name) r.target
        e.reason).line =
      (if stage.argv = [] then r.target else stage.name) ++ ": " ++ r.target ++ ": " ++ e.reason ++
        "\n" := by
  have hcommand : (if stage.name = "" then r.target else stage.name) =
      if stage.argv = [] then r.target else stage.name := by
    simp only [name_eq_empty_iff h]
  rw [hcommand]
  unfold Diagnosis.line Diagnosis.message
  rfl

theorem halted_of_openChannels {left : Session} {stop : Stop}
    (hopen : s.openChannels host stage = (left, .error stop)) (diagnosis : Diagnosis) :
    Halted s ((left.note host (.lineAborted diagnosis)).report diagnosis) := by
  have hopened := onlyOpened_openChannels host s stage
  rw [hopen] at hopened
  obtain ⟨t, err, held, events, rfl, hevents⟩ := hopened
  obtain ⟨t', err', held', hnoted⟩ := note_changes host
    { s with files := t, err := err, held := held, journal := s.journal ++ events }
    (.lineAborted diagnosis)
  rw [hnoted]
  exact ⟨rfl, rfl, rfl, rfl, rfl, events, diagnosis, rfl, hevents⟩

/-- A line that is given up receives the report and nothing else but records. -/
theorem reports_of_openChannels {left : Session} {stop : Stop}
    (hopen : s.openChannels host stage = (left, .error stop)) (diagnosis : Diagnosis) :
    Reports host s [Text.encode diagnosis.line]
      ((left.note host (.lineAborted diagnosis)).report diagnosis) := by
  have hsilent : Silent host s (s.openChannels host stage).1 := silent_openChannels s stage
  rw [hopen] at hsilent
  exact (hsilent.reports.trans (.note left rfl)).trans (.printError _ _)

/-- The stages before one that a line comes to, with an empty one after them. Up to the reports on
its words the stage finds what they leave. -/
theorem exists_before {line : String} (hk : (s.lineArrivals host line)[k]? = some a)
    (hclear : ∀ b ∈ (s.lineArrivals host line).take k, b.session.ReadsNoRecords host b.stage) :
    ∃ done results,
      s.runPipeline host ⟨(Pipeline.ofLine line).stages.take k ++ [Stage.blank]⟩ =
        (done, .ok results) ∧
      a.session.tally = done.tally ∧
      Beside host (done.err ++ a.stage.complaints) done.err a.session done ∧
      Reports host s (told host ((s.lineArrivals host line).take k)) done := by
  have hread : Recorded host s.err (s.readLine host line).1 s :=
    (Recorded.refl s).notedAll (readingEvents_level line)
  obtain ⟨reached, done, results, hreached, hruns, hsame, htold⟩ := runFrom_take hread hk hclear
    ((Pipeline.ofLine line).stages.take k ++ [Stage.blank]).length 1
  refine ⟨done, results, hruns, ?_, ?_, htold⟩
  · rw [hreached, announced_tally, hsame.2]
  · have hbase : Beside host done.err done.err reached done := hsame.1.symm.rebased.symm
    have hannounced : Beside host (done.err ++ a.stage.complaints) done.err
        (announced host (1 + k) (Pipeline.ofLine line).stages.length reached a.stage) done := by
      unfold announced
      rw [foldl_report, List.flatMap_map]
      have hpending : Beside host done.err done.err (reached.note host
          (.stage (1 + k) (Pipeline.ofLine line).stages.length .pending a.stage)) done :=
        hbase.noted (.refl host) rfl
      have hreported := hpending.reported a.stage.complaints
      refine hreported.noted (.refl host) ?_
      rfl
    rw [hreached]
    exact hannounced

/-- A line is cut short by the first redirection that fails, whatever the stages before have done. -/
theorem execute_of_fails (s : Session) (line : String) {k : Nat} {a : Arrival} {stream : Stream}
    {r : Redirection} {e : SystemError} (hk : (s.lineArrivals host line)[k]? = some a)
    (hfails : a.session.Fails host a.stage stream r e) :
    ∃ s', s.execute host line = (s', .ok 1) ∧ CutShort host s s' line k a stream r e := by
  obtain ⟨left, hopen, hleft⟩ := openChannels_of_fails hfails
  obtain ⟨hruns, hstage⟩ := runFrom_of_cut hk hopen
  have hline : s.runLine host line = (left, .error (stopAt a.stage r (.system e))) := hruns
  let diagnosis : Diagnosis :=
    .badRedirection (if a.stage.name = "" then r.target else a.stage.name) r.target e.reason
  have hexecute : s.execute host line =
      ((left.note host (.lineAborted diagnosis)).report diagnosis, .ok 1) := by
    rw [execute_eq, hline]
    rfl
  have hhalted := halted_of_openChannels hopen diagnosis
  have hout := execute_out_of_stopped (congrArg Prod.snd hline) trivial
  rw [hexecute] at hout
  have hreport := report_of_fails (List.mem_of_getElem? hstage) r e
  have hreports := reports_of_openChannels hopen diagnosis
  rw [hreport] at hreports
  have htold := (reports_lineArrivals hk).trans hreports
  rw [List.append_assoc] at htold
  refine ⟨_, hexecute, hstage, hout, hhalted, htold, ?_⟩
  intro hclear
  obtain ⟨done, results, hdone, htally, hbeside, htoldBefore⟩ := exists_before hk hclear
  have hsilent : Silent host a.session (a.session.openChannels host a.stage).1 :=
    silent_openChannels a.session a.stage
  rw [hopen] at hsilent
  refine ⟨done, results, hdone, hhalted.directory.trans hbeside.directory.symm,
    hhalted.processPlace.trans hbeside.processPlace.symm,
    hhalted.environment.trans hbeside.environment.symm, hhalted.input.trans hbeside.input.symm,
    hhalted.tally.trans htally, ?_, htoldBefore, ?_, ?_⟩
  · rw [hbeside.out]
    exact (note_out host left _).trans hsilent.out
  · intro hshows
    obtain ⟨text, herr, hdoneErr⟩ := hbeside.err hshows
    rw [List.append_right_eq_self.1 hdoneErr.symm, List.append_nil] at herr
    rw [hreports.err hshows, herr]
    simp
  · intro place hplace
    have hrecord : Rewritten host.Records left.files (left.note host (.lineAborted diagnosis)).files :=
      (sameWorld_note host left rfl).files
    exact ((hleft place hplace).beside hbeside hplace).rewritten hrecord hplace

/-- `/cat < /in | echo b > /d/x 2> / | echo c` is cut short at its second stage, after the file for
the output has been made. -/
theorem execute_of_fails_errors :
    ∃ s' a, Small.session.execute Small.host "/cat < /in | echo b > /d/x 2> / | echo c" =
        (s', .ok 1) ∧
      CutShort Small.host Small.session s' "/cat < /in | echo b > /d/x 2> / | echo c" 1 a .stderr
        ⟨.writeErrors, "/"⟩ .isDirectory := by
  have hcomes : ((Small.session.lineArrivals Small.host
      "/cat < /in | echo b > /d/x 2> / | echo c")[1]?).any fun a => decide
        (a.stage.redirection? .stderr = some ⟨.writeErrors, "/"⟩ ∧
        a.session.readInput a.stage = .ok none ∧
        (a.session.openOutput Small.host a.stage .stdout).2 = .ok (some ⟨["x", "d"], false, 0⟩) ∧
        ((a.session.openOutput Small.host a.stage .stdout).1.openOutput Small.host a.stage
          .stderr).2 = .error (stopAt a.stage ⟨.writeErrors, "/"⟩ (.system .isDirectory))) := by
    decide +kernel
  cases hk : (Small.session.lineArrivals Small.host
    "/cat < /in | echo b > /d/x 2> / | echo c")[1]? with
  | none =>
    rw [hk] at hcomes
    cases hcomes
  | some a =>
    rw [hk] at hcomes
    obtain ⟨hr, hinput, hout, herr⟩ := of_decide_eq_true hcomes
    obtain ⟨s', hs', hcut⟩ := execute_of_fails Small.session
      "/cat < /in | echo b > /d/x 2> / | echo c" hk
      (.errors hr hinput (Prod.ext rfl hout) (Prod.ext rfl herr))
    exact ⟨s', a, hs', hcut⟩

/-- `echo b < /nope` fails at once. Where the records go to `/in`, that file is not the one that an empty
stage leaves. -/
theorem execute_of_fails_records :
    let after := Small.session.execute Small.recordingHost "echo b < /nope"
    let done := Small.session.runPipeline Small.recordingHost ⟨[Stage.blank]⟩
    after.2 = .ok 1 ∧ after.1.err = Text.encode "echo: /nope: No such file or directory\n" ∧
      after.1.files.find? ["in"] ≠ done.1.files.find? ["in"] := by
  decide +kernel

end Session

end PipelineShell
