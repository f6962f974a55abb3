import PipelineShell.Proofs.Arrivals

/-!
# Progress

What holds between a session and what becomes of it is told once for all operations. A relation that
goes on from one step to the next and is not ended by notes holds across everything that only notes
(`Advance`). If it is not ended by what is shown and counted either, nor by writes to the files that a
stage has open, it holds across the command of a stage (`Progress.runCommand`), and if it holds across
the stages that a run comes to, it holds across the run (`Progress.runFrom`).
-/

namespace PipelineShell.Session

variable {host : Host} {s : Session} {R : Session → Session → Prop}

/-! ## Three operations, case by case -/

/-- Without a redirection nothing is opened. With one the directories above its target are made, and
then the file is opened, unless that fails. -/
theorem openOutput_cases (host : Host) (s : Session) (stage : Stage) (stream : Stream) :
    stage.redirection? stream = none ∧ s.openOutput host stage stream = (s, .ok none) ∨
    ∃ r made, stage.redirection? stream = some r ∧
      made = (s.files.ensureParents host.nesting s.processPlace (s.resolvePath r.target)).1 ∧
      ((∃ failure, s.openOutput host stage stream =
          ({ s with files := made }, .error (stopAt stage r failure))) ∨
        ∃ opened handle,
          made.openFile s.processPlace (s.resolvePath r.target).text r.operator.appends =
            .ok (opened, handle) ∧
          s.openOutput host stage stream =
            ({ s with files := opened }.note host
              (.opened stream (s.resolvePath r.target).text r.operator.appends),
              .ok (some handle))) := by
  unfold openOutput
  cases hr : stage.redirection? stream with
  | none => exact .inl ⟨rfl, rfl⟩
  | some r =>
    right
    refine ⟨r, _, rfl, rfl, ?_⟩
    simp only
    generalize s.files.ensureParents host.nesting s.processPlace (s.resolvePath r.target) = parents
    obtain ⟨made, answer⟩ := parents
    cases answer with
    | error failure => exact .inl ⟨_, rfl⟩
    | ok done =>
      simp only
      split
      · exact .inl ⟨_, rfl⟩
      · next opened handle hfile => exact .inr ⟨opened, handle, hfile, rfl⟩

theorem openOutput_error {stage : Stage} {stream : Stream} {left : Session} {stop : Stop}
    (h : s.openOutput host stage stream = (left, .error stop)) :
    ∃ r failure, stop = stopAt stage r failure := by
  obtain ⟨-, hnone⟩ | ⟨r, made, -, -, hcase⟩ := openOutput_cases host s stage stream
  · rw [hnone] at h
    cases h
  · obtain ⟨failure, hfailed⟩ | ⟨opened, handle, -, hopened⟩ := hcase
    · rw [hfailed] at h
      cases h
      exact ⟨r, failure, rfl⟩
    · rw [hopened] at h
      cases h

/-- A stage that cannot be opened stops at one of its redirections. -/
theorem openChannels_error {stage : Stage} {left : Session} {stop : Stop}
    (h : s.openChannels host stage = (left, .error stop)) :
    ∃ r failure, stop = stopAt stage r failure := by
  unfold openChannels at h
  split at h
  · next hread =>
    cases h
    unfold readInput at hread
    split at hread
    · cases hread
    · next r _ =>
      split at hread
      · cases hread
      · next failure _ =>
        cases hread
        exact ⟨r, failure, rfl⟩
  · split at h
    · next hout =>
      cases h
      exact openOutput_error hout
    · split at h
      · next herr =>
        cases h
        exact openOutput_error herr
      · cases h

/-- A session moves to the directory that a path leads to, or says why it does not. -/
theorem changeDirectory_cases (host : Host) (s : Session) (path : String) :
    (∃ e, s.changeDirectory host path = (s, some e)) ∨
      ∃ place, s.files.directory? s.processPlace (s.resolvePath path).text = some place ∧
        s.changeDirectory host path =
          ({ s with
              directory := (s.resolvePath path).text
              processPlace := if host.movesProcess then place else s.processPlace }, none) := by
  unfold changeDirectory
  simp only
  split
  · split
    · exact .inl ⟨_, rfl⟩
    · next place hplace =>
      split
      · exact .inl ⟨_, rfl⟩
      · exact .inr ⟨place, hplace, rfl⟩
  · exact .inl ⟨_, rfl⟩

/-- A name stands for the builtin that has it. -/
theorem ofName?_of_findCommand {name : String} {b : Builtin}
    (h : (s.findCommand host name).2 = .ok (.builtin b)) : Builtin.ofName? name = some b := by
  unfold findCommand at h
  split at h
  · next hb =>
    cases h
    exact hb
  · split at h <;> cases h

theorem name_of_findCommand {name : String} {b : Builtin}
    (h : (s.findCommand host name).2 = .ok (.builtin b)) : b.name = name := by
  have hb := List.find?_some (ofName?_of_findCommand h)
  exact of_decide_eq_true hb

/-! ## What only notes -/

/-- `R` holds between a session and what becomes of it: it goes on from one step to the next, and a
note is such a step. -/
structure Advance (host : Host) (R : Session → Session → Prop) : Prop where
  refl : ∀ s, R s s
  trans : ∀ {s s' s''}, R s s' → R s' s'' → R s s''
  note : ∀ s event, event.level = .debug → R s (s.note host event)

theorem readingEvents_level (line : String) :
    ∀ event ∈ readingEvents line, event.level = .debug := by
  unfold readingEvents
  split
  · simp
  · intro event hevent
    rcases List.mem_append.1 hevent with hevent | hevent
    · obtain ⟨segment, -, rfl⟩ := List.mem_map.1 hevent
      rfl
    · rw [List.mem_singleton.1 hevent]
      rfl

namespace Advance

theorem noteAll (hR : Advance host R) (s : Session) {events : List Event}
    (hlevel : ∀ event ∈ events, event.level = .debug) : R s (s.noteAll host events) := by
  induction events generalizing s with
  | nil => exact hR.refl s
  | cons event rest ih =>
    have hfirst := hR.note s event (hlevel event List.mem_cons_self)
    exact hR.trans hfirst (ih _ fun e he => hlevel e (List.mem_cons_of_mem _ he))

theorem findCommand (hR : Advance host R) (s : Session) (name : String) :
    R s (s.findCommand host name).1 := by
  obtain ⟨events, hnotes, hlevel⟩ := findCommand_notes host s name
  rw [hnotes]
  exact hR.noteAll s hlevel

theorem describeAll (hR : Advance host R) (s : Session) (names : List String) :
    R s (s.describeAll host names).1 := by
  induction names generalizing s with
  | nil => exact hR.refl s
  | cons name rest ih =>
    have hfound := hR.findCommand s name
    simp only [Session.describeAll]
    generalize s.findCommand host name = r at hfound ⊢
    obtain ⟨found, answer⟩ := r
    cases answer with
    | error r => exact hfound
    | ok command => exact hR.trans hfound (ih found)

theorem moveTo (hR : Advance host R) (s : Session)
    (hmoves : ∀ path, R s (s.changeDirectory host path).1) (args : List String) :
    R s (s.moveTo host args).1 := by
  have henter : ∀ path, R s (s.enter host path).1 := by
    intro path
    have hmoved := hmoves path
    unfold Session.enter
    split
    · exact hR.refl s
    · generalize s.changeDirectory host path = r at hmoved ⊢
      obtain ⟨moved, answer⟩ := r
      cases answer with
      | some e => exact hmoved
      | none => exact hR.trans hmoved (hR.note moved _ rfl)
  match args with
  | [] =>
    rw [moveTo_eq host s (by simp)]
    exact henter _
  | [arg] =>
    rw [moveTo_eq host s (by simp)]
    exact henter _
  | _ :: _ :: _ => exact hR.refl s

/-- A builtin does no more to a session than note and, if it is `cd`, move its directory. -/
theorem perform (hR : Advance host R) (s : Session) {b : Builtin}
    (hmoves : b = .cd → ∀ s path, R s (s.changeDirectory host path).1) (args : List String) :
    R s (s.perform host b args).1 := by
  have hnoted := hR.note s (.builtin b.name args) rfl
  cases b with
  | exit => exact hnoted
  | echo => exact hnoted
  | type => exact hR.trans hnoted (hR.describeAll _ args)
  | pwd => exact hnoted
  | cd => exact hR.trans hnoted (hR.moveTo _ (hmoves rfl _) args)

/-- What holds across the making of directories and across the opening of a file holds across the
opening of an output. -/
theorem openOutput (hR : Advance host R) (s : Session) {stage : Stage} {stream : Stream}
    (hparents : ∀ r, stage.redirection? stream = some r →
      R s { s with files := (s.files.ensureParents host.nesting s.processPlace (s.resolvePath r.target)).1 })
    (hopen : ∀ (r : Redirection) (made opened : FileTree) handle,
      made.openFile s.processPlace (s.resolvePath r.target).text r.operator.appends =
        .ok (opened, handle) →
      R { s with files := made } { s with files := opened }) :
    R s (s.openOutput host stage stream).1 := by
  obtain ⟨-, hnone⟩ | ⟨r, made, hr, hmade, hcase⟩ := openOutput_cases host s stage stream
  · rw [hnone]
    exact hR.refl s
  · have hdirectories := hparents r hr
    rw [← hmade] at hdirectories
    obtain ⟨failure, hfailed⟩ | ⟨opened, handle, hfile, hopened⟩ := hcase
    · rw [hfailed]
      exact hdirectories
    · rw [hopened]
      exact hR.trans (hR.trans hdirectories (hopen r made opened handle hfile)) (hR.note _ _ rfl)

theorem openChannels (hR : Advance host R) (s : Session) {stage : Stage}
    (hopen : ∀ s stream, R s (s.openOutput host stage stream).1) :
    R s (s.openChannels host stage).1 :=
  openChannels_preserves hR.refl hR.trans hopen s

end Advance

/-! ## What shows, counts and writes -/

/-- `R` holds between a session and what becomes of it, also when something is shown, taken or
counted, and when a file at a place of `P` is written. -/
structure Progress (host : Host) (P : Place → Prop) (R : Session → Session → Prop) : Prop
    extends Advance host R where
  terminal : ∀ s out err held input tally,
    R s { s with out := out, err := err, held := held, input := input, tally := tally }
  carry : ∀ s out err writes, (∀ o ∈ out, P o.place) → (∀ e ∈ err, P e.place) →
    R s { s with files := s.files.carry out err writes }

namespace Progress

variable {P : Place → Prop} {stage : Stage} {channels : Channels}

theorem writeFile (hR : Progress host P R) (s : Session) {handle : Handle} (hplace : P handle.place)
    (bytes : Bytes) : R s (s.writeFile handle bytes) := by
  refine hR.carry s (some handle) none [(.out, bytes)] ?_ (by simp)
  rintro o ⟨⟩
  exact hplace

theorem deliverError (hR : Progress host P R) (s : Session) (hopened : Opened P channels)
    (text : Bytes) : R s (s.deliverError channels text) := by
  unfold Session.deliverError
  split
  · next handle herr => exact hR.writeFile s (hopened.err handle herr) text
  · exact hR.terminal s s.out _ _ s.input s.tally

theorem deliverOutput (hR : Progress host P R) (s : Session) (hopened : Opened P channels)
    (last : Bool) (text : Bytes) : R s (s.deliverOutput channels last text).1 := by
  unfold Session.deliverOutput
  split
  · next handle hout => exact hR.writeFile s (hopened.out handle hout) text
  · split
    · exact hR.terminal s _ s.err _ s.input s.tally
    · exact hR.refl s

theorem runBuiltin (hR : Progress host P R) (s : Session) {b : Builtin}
    (hmoves : b = .cd → ∀ s path, R s (s.changeDirectory host path).1)
    (hopened : Opened P channels) (last : Bool) :
    R s (s.runBuiltin host stage b channels last).1 :=
  hR.trans (hR.perform s hmoves stage.args)
    (hR.trans (hR.deliverError _ hopened _) (hR.deliverOutput _ hopened last _))

theorem counted (hR : Progress host P R) (s : Session) (order : Order) :
    R s (s.counted host order) :=
  hR.trans (hR.terminal s s.out s.err s.held s.input _) (hR.note _ _ rfl)

theorem missed (hR : Progress host P R) (s : Session) (order : Order) (e : SystemError)
    (about : String) : R s (s.missed host order e about) :=
  hR.trans (hR.terminal s s.out s.err s.held s.input _) (hR.note _ _ rfl)

theorem launch (hR : Progress host P R) (s : Session) {order : Order}
    (hout : ∀ o ∈ order.out.handle?, P o.place) (herr : ∀ e ∈ order.err.handle?, P e.place) :
    R s (s.launch host order).1 := by
  have hcounted := hR.counted s order
  rw [launch_eq]
  generalize s.counted host order = u at hcounted ⊢
  split
  · exact hcounted
  · next e about _ => exact hR.trans hcounted (hR.missed u order e about)
  · next found _ =>
    let carried := u.files.carry order.out.handle? order.err.handle? (u.performance order found).writes
    have hcarried : R u { u with files := carried } := hR.carry u _ _ _ hout herr
    have hended : R u (u.finished host order (u.performance order found)) :=
      hR.trans hcarried (hR.trans (hR.terminal _ _ _ _ _ _) (hR.noteAll _ (ended_level order _)))
    exact hR.trans hcounted hended

theorem runProgram (hR : Progress host P R) (s : Session) (path : String) (input : Option Bytes)
    (hopened : Opened P channels) (last : Bool) :
    R s (s.runProgram host stage path input channels last).1 := by
  have hflush : R s s.flush := hR.terminal s s.out s.err _ s.input s.tally
  have hlaunch : R s (s.flush.launch host (s.orderOf host stage path input channels last)).1 := by
    apply hR.trans hflush
    apply hR.launch
    · rw [orderOf_out]
      exact hopened.out
    · rw [orderOf_err]
      exact hopened.err
  unfold Session.runProgram
  generalize s.flush.launch host _ = r at hlaunch ⊢
  obtain ⟨u, answer⟩ := r
  cases answer with
  | error failure =>
    cases failure with
    | refused r => exact hlaunch
    | system e about =>
      have hnoted := hR.trans hlaunch (hR.note u (.stageAborted path e) rfl)
      exact hR.trans hnoted (hR.deliverError _ hopened _)
  | ok outcome =>
    have herror : R s (u.printError (copied (outcome.err.getD []))) :=
      hR.trans hlaunch (hR.terminal u u.out _ _ u.input u.tally)
    simp only
    split
    · exact hR.trans herror (hR.terminal _ _ _ _ _ _)
    · exact herror

/-- The command of a stage does no more than a builtin or a program does. -/
theorem runCommand (hR : Progress host P R) (s : Session)
    (hmoves : Builtin.ofName? stage.name = some .cd → ∀ s path, R s (s.changeDirectory host path).1)
    (piped : Option Bytes) (hopened : Opened P channels) (last : Bool) :
    R s (s.runCommand host stage piped channels last).1 := by
  have hfound := hR.findCommand s stage.name
  have hbuiltin := @ofName?_of_findCommand host s stage.name
  unfold Session.runCommand
  split
  · exact hR.refl s
  · generalize s.findCommand host stage.name = r at hfound hbuiltin ⊢
    obtain ⟨u, answer⟩ := r
    cases answer with
    | error r => exact hfound
    | ok command =>
      cases command with
      | builtin b =>
        have hcd : b = .cd → ∀ s path, R s (s.changeDirectory host path).1 := by
          rintro rfl
          exact hmoves (hbuiltin rfl)
        exact hR.trans hfound (hR.runBuiltin u hcd hopened last)
      | program path => exact hR.trans hfound (hR.runProgram u path _ hopened last)
      | unknown => exact hR.trans hfound (hR.deliverError u hopened _)

/-- A stage opens its channels and does its command. -/
theorem runStage (hR : Progress host P R) (s : Session)
    (hmoves : Builtin.ofName? stage.name = some .cd → ∀ s path, R s (s.changeDirectory host path).1)
    (hopen : R s (s.openChannels host stage).1)
    (hopened : ∀ ready channels, s.openChannels host stage = (ready, .ok channels) →
      Opened P channels)
    (piped : Option Bytes) (last : Bool) : R s (s.runStage host stage piped last).1 := by
  unfold Session.runStage
  generalize s.openChannels host stage = r at hopen hopened ⊢
  obtain ⟨ready, answer⟩ := r
  cases answer with
  | error stop => exact hopen
  | ok channels =>
    exact hR.trans hopen (hR.runCommand ready hmoves piped (hopened ready channels rfl) last)

/-! ## Runs -/

theorem announced (hR : Progress host P R) (position total : Nat) (s : Session) (stage : Stage) :
    R s (announced host position total s stage) := by
  unfold Session.announced
  rw [foldl_report]
  have hnoted := hR.note s (.stage position total .pending stage) rfl
  exact hR.trans hnoted (hR.trans (hR.terminal _ _ _ _ _ _) (hR.note _ _ rfl))

/-- What holds across all stages that a run comes to holds across the run. -/
theorem runFrom (hR : Progress host P R) (total position : Nat) (s : Session) (piped : Option Bytes)
    (stages : List Stage)
    (hrun : ∀ a ∈ arrivals host total position s piped stages, R a.session (a.run host).1) :
    R s (runFrom host total position s piped stages).1 := by
  induction position, s, piped, stages using runFrom_induction host total with
  | nil => exact hR.refl _
  | stopped position s piped stage rest done stop hstop =>
    obtain ⟨hruns, harrivals⟩ := runFrom_of_stopped hstop
    rw [harrivals] at hrun
    have hfirst := hrun _ List.mem_cons_self
    rw [hstop] at hfirst
    rw [hruns]
    exact hR.trans (hR.announced position total s stage) hfirst
  | passed position s piped stage rest done result hpass ih =>
    obtain ⟨hruns, harrivals⟩ := runFrom_of_passed hpass
    rw [harrivals] at hrun
    have hfirst := hrun _ List.mem_cons_self
    rw [hpass] at hfirst
    have hdone := hR.trans (hR.announced position total s stage) hfirst
    have hnoted := hR.trans hdone (hR.note done (.stage position total .completed stage) rfl)
    rw [hruns]
    exact hR.trans hnoted (ih fun a ha => hrun a (List.mem_cons_of_mem _ ha))

/-! ## Lines -/

variable {line : String}

/-- After the stages of a line only a failed redirection is reported. -/
theorem ended (hR : Progress host P R) (s : Session) (line : String) :
    R (s.runLine host line).1 (s.execute host line).1 := by
  rw [execute_eq]
  generalize s.runLine host line = r
  obtain ⟨done, answer⟩ := r
  cases answer with
  | ok results => exact hR.refl done
  | error stop =>
    cases stop with
    | leave code => exact hR.refl done
    | unwritten e => exact hR.refl done
    | refused refusal => exact hR.refl done
    | badRedirection command target e =>
      exact hR.trans (hR.note done _ rfl) (hR.terminal _ _ _ _ _ _)

/-- What holds across all stages that a line comes to holds across the line. -/
theorem execute (hR : Progress host P R) (s : Session)
    (hrun : ∀ a ∈ s.lineArrivals host line, R a.session (a.run host).1) :
    R s (s.execute host line).1 := by
  have hread := hR.noteAll s (readingEvents_level line)
  have hstages : R (s.noteAll host (readingEvents line)) (s.runLine host line).1 :=
    hR.runFrom _ _ _ none _ hrun
  exact hR.trans hread (hR.trans hstages (hR.ended s line))

end Progress

/-! ## Where a session is -/

/-- The working directories are the same. -/
structure Unmoved (s s' : Session) : Prop where
  directory : s'.directory = s.directory
  processPlace : s'.processPlace = s.processPlace

namespace Unmoved

variable {s s' s'' : Session}

theorem refl (s : Session) : Unmoved s s := ⟨rfl, rfl⟩

theorem symm (h : Unmoved s s') : Unmoved s' s := ⟨h.directory.symm, h.processPlace.symm⟩

theorem trans (h : Unmoved s s') (h' : Unmoved s' s'') : Unmoved s s'' :=
  ⟨h'.directory.trans h.directory, h'.processPlace.trans h.processPlace⟩

theorem resolvePath (h : Unmoved s s') (path : String) :
    s'.resolvePath path = s.resolvePath path := by
  unfold Session.resolvePath
  rw [h.directory]

end Unmoved

/-- A session stays where it is, whatever it notes, shows and writes. -/
theorem progress_unmoved (host : Host) : Progress host (fun _ => True) Unmoved where
  refl := .refl
  trans h h' := h.trans h'
  note s event _ := ⟨note_directory host s event, note_processPlace host s event⟩
  terminal _ _ _ _ _ _ := ⟨rfl, rfl⟩
  carry _ _ _ _ _ _ := ⟨rfl, rfl⟩

theorem unmoved_openOutput (host : Host) (s : Session) (stage : Stage) (stream : Stream) :
    Unmoved s (s.openOutput host stage stream).1 := by
  apply (progress_unmoved host).openOutput
  case hparents => exact fun r _ => ⟨rfl, rfl⟩
  case hopen => exact fun r made opened handle _ => ⟨rfl, rfl⟩

theorem unmoved_openChannels (host : Host) (s : Session) (stage : Stage) :
    Unmoved s (s.openChannels host stage).1 :=
  (progress_unmoved host).openChannels s fun s stream => unmoved_openOutput host s stage stream

/-- Only `cd` moves a session. -/
theorem unmoved_runStage (host : Host) (s : Session) {stage : Stage}
    (hname : Builtin.ofName? stage.name ≠ some .cd) (piped : Option Bytes) (last : Bool) :
    Unmoved s (s.runStage host stage piped last).1 := by
  apply (progress_unmoved host).runStage
  case hmoves => exact fun hcd => absurd hcd hname
  case hopen => exact unmoved_openChannels host s stage
  case hopened => exact fun _ _ _ => ⟨fun _ _ => trivial, fun _ _ => trivial⟩

end PipelineShell.Session
