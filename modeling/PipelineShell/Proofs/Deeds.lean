import PipelineShell.Proofs.Growth

/-!
# What stages do

A stage whose redirections are open does one thing: nothing, what a builtin does, or what a program
does, unless nothing has its name or its program does not start. `Session.deed` says which,
`does_runCommand` what it takes for each of them and what comes of it, and `did_runCommand` where the
texts of it go. The output goes to the file opened for it, to the terminal after the last stage, or into
the pipe. The errors go to the file opened for them or to the terminal.
-/

namespace PipelineShell

/-- What is wrong with the words of a stage, as it is reported. -/
def Stage.complaints (stage : Stage) : Bytes :=
  stage.diagnostics.flatMap fun d => Text.encode (Diagnosis.ofDangling d).line

/-- What becomes of the command of a stage. -/
inductive Deed
  /-- There is no command. -/
  | idle
  /-- The system was asked for something that cannot be put to it. -/
  | refused
  /-- Nothing has the name. -/
  | unknown
  /-- The program does not start. -/
  | unstarted
  | builtin (reply : Reply)
  | program (p : Performance)

/-- Bytes of a program as they show on the terminal: as they are if the terminal is the program's
own. -/
def Host.shows (host : Host) (bytes : Bytes) : Bytes :=
  if host.sharesTerminal then bytes else Session.copied bytes

namespace Deed

/-- What is written to the output stream, if anything is run that could write to it. -/
def output? : Deed → Option Bytes
  | builtin reply => some (Text.encode reply.out)
  | program p => some (p.written .out)
  | _ => none

/-- The output as it shows on the terminal. -/
def shown (host : Host) : Deed → Bytes
  | builtin reply => Text.encode reply.out
  | program p => host.shows (p.written .out)
  | _ => []

/-- The errors as they show on the terminal, for a command of the given name. -/
def errors (host : Host) (name : String) : Deed → Bytes
  | builtin reply => Text.encode reply.err
  | program p => host.shows (p.written .err)
  | unknown => Text.encode (Diagnosis.unknownCommand name).line
  | unstarted => Text.encode (Diagnosis.unknownCommand name).line
  | _ => []

/-- The status of a stage whose command cannot be run. -/
def failure? : Deed → Option Int
  | unknown => some notFoundStatus
  | unstarted => some notStartedStatus
  | _ => none

theorem failure?_eq_some {deed : Deed} {status : Int} (h : deed.failure? = some status) :
    deed = .unknown ∨ deed = .unstarted := by
  cases deed with
  | unknown => exact .inl rfl
  | unstarted => exact .inr rfl
  | idle | refused | builtin reply | program p => cases h

end Deed

namespace Session

variable {host : Host} {s s' s'' : Session}

/-- What becomes of the command of a stage whose redirections are open. -/
def deed (host : Host) (s : Session) (stage : Stage) (piped : Option Bytes) (channels : Channels)
    (last : Bool) : Deed :=
  if stage.argv = [] then .idle
  else
    match s.findCommand host stage.name with
    | (_, .error _) => .refused
    | (s, .ok (.builtin b)) => .builtin (s.perform host b stage.args).2
    | (_, .ok .unknown) => .unknown
    | (s, .ok (.program path)) =>
      let order := s.orderOf host stage path (channels.input.or piped) channels last
      match (s.flush.counted host order).started host order with
      | .error (.refused _) => .refused
      | .error (.system _ _) => .unstarted
      | .ok found => .program ((s.flush.counted host order).performance order found)

/-! ## What becomes of a command -/

/-- A stage whose name stands for a program has a name. -/
theorem ne_nil_of_findCommand {stage : Stage} {path : String}
    (h : (s.findCommand host stage.name).2 = .ok (.program path)) : stage.argv ≠ [] := by
  intro hargv
  have hname : stage.name = "" := by
    rw [Stage.name, hargv]
    rfl
  rw [hname] at h
  simp [findCommand, findProgram, Builtin.ofName?, Builtin.all, Builtin.name] at h

theorem runProgram_of_refused {stage : Stage} {path : String} {input : Option Bytes}
    {channels : Channels} {last : Bool} {order : Order} {r : Refusal}
    (horder : s.orderOf host stage path input channels last = order)
    (h : (s.flush.counted host order).started host order = .error (.refused r)) :
    s.runProgram host stage path input channels last =
      (s.flush.counted host order, .error (.refused r)) := by
  unfold runProgram
  rw [horder, launch_eq, h]

/-- A program that does not start is counted and reported, and ends its stage only. -/
theorem runProgram_of_missed {stage : Stage} {path : String} {input : Option Bytes}
    {channels : Channels} {last : Bool} {order : Order} {e : SystemError} {about : String}
    (horder : s.orderOf host stage path input channels last = order)
    (h : (s.flush.counted host order).started host order = .error (.system e about)) :
    s.runProgram host stage path input channels last =
      (((s.flush.counted host order).missed host order e about).note host
        (.stageAborted path e)).giveUp stage channels notStartedStatus := by
  unfold runProgram
  rw [horder, launch_eq, h]

/-- What becomes of the command of a stage, and what running it comes to. -/
inductive Does (host : Host) (s : Session) (stage : Stage) (piped : Option Bytes) (channels : Channels)
    (last : Bool) : Deed → Session × Except Stop StageResult → Prop
  | idle (hargv : stage.argv = []) :
    Does host s stage piped channels last .idle (s, .ok ⟨"", 0, none⟩)
  /-- The name cannot be put to the system. -/
  | unnamed {found : Session} {refusal : Refusal}
    (hfind : s.findCommand host stage.name = (found, .error refusal)) :
    Does host s stage piped channels last .refused (found, .error (.refused refusal))
  | unknown {found : Session} (hfind : s.findCommand host stage.name = (found, .ok .unknown)) :
    Does host s stage piped channels last .unknown (found.giveUp stage channels notFoundStatus)
  | builtin {found : Session} {b : Builtin}
    (hfind : s.findCommand host stage.name = (found, .ok (.builtin b))) :
    Does host s stage piped channels last (.builtin (found.perform host b stage.args).2)
      (found.runBuiltin host stage b channels last)
  /-- The order for the program cannot be put to the system. -/
  | refused {found : Session} {path : String} {order : Order} {refusal : Refusal}
    (hfind : s.findCommand host stage.name = (found, .ok (.program path)))
    (horder : found.orderOf host stage path (channels.input.or piped) channels last = order)
    (hstarted : (found.flush.counted host order).started host order = .error (.refused refusal)) :
    Does host s stage piped channels last .refused
      (found.flush.counted host order, .error (.refused refusal))
  | unstarted {found : Session} {path : String} {order : Order} {e : SystemError} {about : String}
    (hfind : s.findCommand host stage.name = (found, .ok (.program path)))
    (horder : found.orderOf host stage path (channels.input.or piped) channels last = order)
    (hstarted : (found.flush.counted host order).started host order = .error (.system e about)) :
    Does host s stage piped channels last .unstarted
      ((((found.flush.counted host order).missed host order e about).note host
        (.stageAborted path e)).giveUp stage channels notStartedStatus)
  | program {found : Session} {path : String} {order : Order} {started : Program × List Bytes × Place}
    (hfind : s.findCommand host stage.name = (found, .ok (.program path)))
    (horder : found.orderOf host stage path (channels.input.or piped) channels last = order)
    (hstarted : (found.flush.counted host order).started host order = .ok started) :
    Does host s stage piped channels last
      (.program ((found.flush.counted host order).performance order started))
      (found.runProgram host stage path (channels.input.or piped) channels last)

theorem does_runCommand (host : Host) (s : Session) (stage : Stage) (piped : Option Bytes)
    (channels : Channels) (last : Bool) :
    Does host s stage piped channels last (s.deed host stage piped channels last)
      (s.runCommand host stage piped channels last) := by
  unfold deed runCommand
  split
  · next hargv => exact .idle hargv
  · cases hfind : s.findCommand host stage.name with
    | mk found answer =>
      cases answer with
      | error refusal => exact .unnamed hfind
      | ok command =>
        cases command with
        | builtin b => exact .builtin hfind
        | unknown => exact .unknown hfind
        | program path =>
          simp only
          generalize horder : found.orderOf host stage path (channels.input.or piped) channels last = order
          cases hstarted : (found.flush.counted host order).started host order with
          | ok started => exact .program hfind horder hstarted
          | error failure =>
            cases failure with
            | refused refusal =>
              rw [runProgram_of_refused horder hstarted]
              exact .refused hfind horder hstarted
            | system e about =>
              rw [runProgram_of_missed horder hstarted]
              exact .unstarted hfind horder hstarted

/-! ## Silence -/

/-- The environment stays as it is, and so does what may be done with the files, and the working
directory too, unless it becomes one whose path can be put to the system. -/
structure Settled (s s' : Session) : Prop where
  environment : s'.environment = s.environment
  grants : s'.files.grants = s.files.grants
  directory : s'.directory = s.directory ∨ hasNul s'.directory = false

theorem Settled.refl (s : Session) : Settled s s := ⟨rfl, rfl, .inl rfl⟩

theorem Settled.trans (h : Settled s s') (h' : Settled s' s'') : Settled s s'' := by
  refine ⟨h'.environment.trans h.environment, h'.grants.trans h.grants, ?_⟩
  rcases h'.directory with hsame | hclean
  · rw [hsame]
    exact h.directory
  · exact .inr hclean

/-- Nothing shows on the terminal but records. -/
structure Silent (host : Host) (s s' : Session) : Prop extends Settled s s' where
  out : s'.out = s.out
  reports : Reports host s [] s'

theorem Silent.refl (s : Session) : Silent host s s := ⟨.refl s, rfl, .refl s⟩

theorem Silent.trans (h : Silent host s s') (h' : Silent host s' s'') : Silent host s s'' :=
  ⟨h.toSettled.trans h'.toSettled, h'.out.trans h.out, h.reports.trans h'.reports⟩

/-- Files, the count and what is held back do not show. -/
theorem silent_hidden (s : Session) {files : FileTree} (hgrants : files.grants = s.files.grants)
    (held : Held) (tally : Tally) :
    Silent host s { s with files := files, held := held, tally := tally } :=
  ⟨⟨rfl, hgrants, .inl rfl⟩, rfl, (Reports.refl s).congr rfl rfl rfl rfl⟩

theorem silent_note (s : Session) {event : Event} (hlevel : event.level = .debug) :
    Silent host s (s.note host event) :=
  ⟨⟨note_environment host s event, (grown_note host s event).grants, .inl (note_directory host s event)⟩,
    note_out host s event, .note s hlevel⟩

/-- What only notes is silent. -/
theorem advance_silent (host : Host) : Advance host (Silent host) where
  refl := .refl
  trans h h' := h.trans h'
  note s _ hlevel := silent_note s hlevel

theorem silent_noteAll (s : Session) {events : List Event}
    (hlevel : ∀ event ∈ events, event.level = .debug) : Silent host s (s.noteAll host events) :=
  (advance_silent host).noteAll s hlevel

theorem silent_openOutput (s : Session) (stage : Stage) (stream : Stream) :
    Silent host s (s.openOutput host stage stream).1 := by
  apply (advance_silent host).openOutput
  case hparents =>
    intro r _
    have hgrants := (FileTree.extended_ensureParents s.files host.nesting s.processPlace
      (s.resolvePath r.target)).grants
    exact silent_hidden s hgrants s.held s.tally
  case hopen =>
    intro r made opened handle hopen
    exact silent_hidden { s with files := made } (FileTree.grown_openFile hopen).grants s.held s.tally

theorem silent_openChannels (s : Session) (stage : Stage) :
    Silent host s (s.openChannels host stage).1 :=
  (advance_silent host).openChannels s fun s stream => silent_openOutput s stage stream

theorem silent_findCommand (s : Session) (name : String) :
    Silent host s (s.findCommand host name).1 :=
  (advance_silent host).findCommand s name

theorem silent_changeDirectory (s : Session) (path : String) :
    Silent host s (s.changeDirectory host path).1 := by
  obtain ⟨e, hstays⟩ | ⟨place, hplace, hmoved⟩ := changeDirectory_cases host s path
  · rw [hstays]
    exact .refl s
  · have hclean : hasNul (s.resolvePath path).text = false :=
      (FileTree.directory?_eq_some_iff.1 hplace).1
    rw [hmoved]
    exact ⟨⟨rfl, rfl, .inr hclean⟩, rfl, (Reports.refl s).congr rfl rfl rfl rfl⟩

/-- A builtin hands its texts back and shows nothing itself. -/
theorem silent_perform (s : Session) (b : Builtin) (args : List String) :
    Silent host s (s.perform host b args).1 :=
  (advance_silent host).perform s (fun _ s path => silent_changeDirectory s path) args

theorem silent_flush (s : Session) : Silent host s s.flush := silent_hidden s rfl _ s.tally

theorem silent_counted (s : Session) (order : Order) : Silent host s (s.counted host order) :=
  (silent_hidden s rfl s.held _).trans (silent_note _ rfl)

theorem silent_missed (s : Session) (order : Order) (e : SystemError) (about : String) :
    Silent host s (s.missed host order e about) :=
  (silent_hidden s rfl s.held _).trans (silent_note _ rfl)

/-! ## Reports -/

theorem settled_printError (s : Session) (text : Bytes) : Settled s (s.printError text) :=
  ⟨rfl, rfl, .inl rfl⟩

theorem settled_announced (host : Host) (position total : Nat) (s : Session) (stage : Stage) :
    Settled s (announced host position total s stage) := by
  unfold announced
  rw [foldl_report]
  have hpending : Silent host s (s.note host (.stage position total .pending stage)) :=
    silent_note s rfl
  have hrunning : ∀ u : Session, Silent host u (u.note host (.stage position total .running stage)) :=
    fun u => silent_note u rfl
  exact (hpending.toSettled.trans (settled_printError _ _)).trans (hrunning _).toSettled

theorem announced_out (host : Host) (position total : Nat) (s : Session) (stage : Stage) :
    (announced host position total s stage).out = s.out := by
  unfold announced
  rw [note_out, foldl_report]
  exact note_out host s _

/-- A stage is announced by records, and by reports on its words. -/
theorem reports_announced (host : Host) (position total : Nat) (s : Session) (stage : Stage) :
    Reports host s [stage.complaints] (announced host position total s stage) := by
  unfold announced
  rw [foldl_report, List.flatMap_map]
  exact ((Reports.note s rfl).trans (.printError _ _)).trans (.note _ rfl)

/-- On a quiet host a stage is announced by nothing but reports on its words. -/
theorem announced_of_quiet (hquiet : host.Quiet) (position total : Nat) (s : Session)
    (stage : Stage) :
    ∃ events, announced host position total s stage =
      { s.printError stage.complaints with journal := s.journal ++ events } := by
  refine ⟨[.stage position total .pending stage, .stage position total .running stage], ?_⟩
  unfold announced
  rw [note_of_quiet hquiet rfl, note_of_quiet hquiet rfl, foldl_report]
  simp only [printError, Stage.complaints, List.flatMap_map, List.append_assoc, List.cons_append,
    List.nil_append]

/-! ## Where texts go -/

/-- What comes of a deed, and where its texts go, when it takes a session to `done` with the given
answer. -/
structure Did (host : Host) (s : Session) (name : String) (channels : Channels) (last : Bool)
    (deed : Deed) (done : Session) (answer : Except Stop StageResult) : Prop
    extends Settled s done where
  out : done.out = s.out ++ if last ∧ channels.out = none then deed.shown host else []
  reports : Reports host s [if channels.err = none then deed.errors host name else []] done
  output : ∀ result, answer = .ok result →
    result.output = if last ∨ channels.out ≠ none then none else deed.output?
  failure : ∀ status, deed.failure? = some status →
    answer = closed (.ok ⟨name, status, none⟩)
      (channels.fault? s.files [] (Text.encode (Diagnosis.unknownCommand name).line))
  stops : ∀ stop, answer = .error stop →
    (∃ r, stop = .refused r) ∨ (∃ code < 256, stop = .leave code ∧ deed.shown host = []) ∨
      ∃ e, stop = .unwritten e ∧
        ∃ h, (channels.out = some h ∨ channels.err = some h) ∧ (s.files.grant h.place).fault = some e

theorem Did.of_silent {name : String} {channels : Channels} {last : Bool} {deed : Deed}
    {done : Session} {answer : Except Stop StageResult} (h : Silent host s s')
    (hdid : Did host s' name channels last deed done answer) :
    Did host s name channels last deed done answer := by
  refine ⟨h.toSettled.trans hdid.toSettled, ?_, h.reports.trans hdid.reports, hdid.output, ?_, ?_⟩
  · rw [← h.out]
    exact hdid.out
  · intro status hstatus
    rw [hdid.failure status hstatus, channels.fault?_congr h.grants]
  · intro stop hstop
    simpa only [FileTree.grant_congr h.grants] using hdid.stops stop hstop

theorem settled_writeFile (s : Session) (h : Handle) (text : Bytes) :
    Settled s (s.writeFile h text) :=
  ⟨rfl, (FileTree.grown_write s.files h text).grants, .inl rfl⟩

theorem settled_deliverError (s : Session) (channels : Channels) (text : Bytes) :
    Settled s (s.deliverError channels text) := by
  unfold deliverError
  split
  · exact settled_writeFile s _ text
  · exact ⟨rfl, rfl, .inl rfl⟩

theorem settled_deliverOutput (s : Session) (channels : Channels) (last : Bool) (text : Bytes) :
    Settled s (s.deliverOutput channels last text).1 := by
  unfold deliverOutput
  split
  · exact settled_writeFile s _ text
  · split <;> exact ⟨rfl, rfl, .inl rfl⟩

theorem deliverError_out (s : Session) (channels : Channels) (text : Bytes) :
    (s.deliverError channels text).out = s.out := by
  unfold deliverError
  split <;> rfl

theorem reports_deliverError (host : Host) (s : Session) (channels : Channels) (text : Bytes) :
    Reports host s [if channels.err = none then text else []] (s.deliverError channels text) := by
  unfold deliverError
  cases channels.err with
  | some h => exact ((Reports.refl s).congr rfl rfl rfl rfl).hush
  | none => exact .printError s text

theorem deliverOutput_spec (s : Session) (channels : Channels) (last : Bool) (text : Bytes) :
    let done := s.deliverOutput channels last text
    done.1.out = s.out ++ (if last ∧ channels.out = none then text else []) ∧
      done.1.err = s.err ∧ done.1.journal = s.journal ∧
      done.2 = if last ∨ channels.out ≠ none then none else some text := by
  unfold deliverOutput
  split
  · next h => simp [h, writeFile]
  · next h =>
    cases last with
    | true => simp [h, print]
    | false => simp [h]

/-- A line is stopped as files are closed by the fault of one of them. -/
theorem Channels.fault?_eq_some {channels : Channels} {t : FileTree} {out err : Bytes}
    {e : SystemError} (h : channels.fault? t out err = some e) :
    ∃ handle, (channels.out = some handle ∨ channels.err = some handle) ∧
      (t.grant handle.place).fault = some e := by
  have hfault : ∀ (handle : Handle) (bytes : Bytes), handle.fault? t bytes = some e →
      (t.grant handle.place).fault = some e := by
    intro handle bytes hhandle
    unfold Handle.fault? at hhandle
    split at hhandle
    · cases hhandle
    · exact hhandle
  rcases Option.or_eq_some_iff.1 h with hout | ⟨-, herr⟩
  · obtain ⟨handle, hhandle, hsome⟩ := Option.bind_eq_some_iff.1 hout
    exact ⟨handle, .inl hhandle, hfault handle out hsome⟩
  · obtain ⟨handle, hhandle, hsome⟩ := Option.bind_eq_some_iff.1 herr
    exact ⟨handle, .inr hhandle, hfault handle err hsome⟩

/-- A report on the terminal arrives. -/
theorem Channels.fault?_of_err_none {channels : Channels} (h : channels.err = none) (t : FileTree)
    (report : Bytes) : channels.fault? t [] report = none := by
  unfold Channels.fault?
  rw [h]
  cases channels.out <;> rfl

theorem closed_eq_ok {α : Type} {ending : Except Stop α} {fault : Option SystemError} {a : α}
    (h : closed ending fault = .ok a) : ending = .ok a ∧ fault = none := by
  cases fault with
  | none => exact ⟨h, rfl⟩
  | some e => cases h

theorem closed_eq_error {α : Type} {ending : Except Stop α} {fault : Option SystemError} {stop : Stop}
    (h : closed ending fault = .error stop) :
    (∃ e, stop = .unwritten e ∧ fault = some e) ∨ ending = .error stop := by
  cases fault with
  | none => exact .inr h
  | some e =>
    cases h
    exact .inl ⟨e, rfl, rfl⟩

theorem did_refused (s : Session) (name : String) (channels : Channels) (last : Bool) (r : Refusal) :
    Did host s name channels last .refused s (.error (.refused r)) := by
  refine ⟨.refl s, by simp [Deed.shown], ?_, ?_, ?_, ?_⟩
  · have hnothing : (if channels.err = none then Deed.refused.errors host name else []) = [] :=
      ite_self _
    rw [hnothing]
    exact (Reports.refl s).hush
  · intro result hresult
    cases hresult
  · intro status hstatus
    cases hstatus
  · intro stop hstop
    cases hstop
    exact .inl ⟨r, rfl⟩

/-- A command that cannot be run is reported, and ends its stage only, if the report arrives. -/
theorem did_failed {deed : Deed} {status : Int} (hdeed : deed.failure? = some status) (s : Session)
    {stage : Stage} (channels : Channels) (last : Bool) :
    let done := s.giveUp stage channels status
    Did host s stage.name channels last deed done.1 done.2 := by
  have hsilent : deed.shown host = [] ∧ deed.output? = none ∧
      deed.errors host stage.name = Text.encode (Diagnosis.unknownCommand stage.name).line := by
    rcases Deed.failure?_eq_some hdeed with rfl | rfl <;> exact ⟨rfl, rfl, rfl⟩
  obtain ⟨hshown, houtput, herrors⟩ := hsilent
  simp only [giveUp]
  refine ⟨settled_deliverError s channels _, ?_, ?_, ?_, ?_, ?_⟩
  · simp [deliverError_out, hshown]
  · rw [herrors]
    exact reports_deliverError host s channels _
  · intro result hresult
    obtain ⟨hanswer, -⟩ := closed_eq_ok hresult
    cases hanswer
    simp [houtput]
  · intro status' hstatus
    rw [hdeed] at hstatus
    cases hstatus
    rfl
  · intro stop hstop
    rcases closed_eq_error hstop with ⟨e, rfl, hfault⟩ | hanswer
    · exact .inr (.inr ⟨e, rfl, Channels.fault?_eq_some hfault⟩)
    · cases hanswer

/-! ## Builtins -/

theorem describeAll_stops {names : List String} {stop : Stop}
    (h : (s.describeAll host names).2.ending = .error stop) : ∃ r, stop = .refused r := by
  induction names generalizing s with
  | nil => cases h
  | cons name rest ih =>
    have hrest := @ih (s.findCommand host name).1
    simp only [describeAll] at h
    generalize s.findCommand host name = r at hrest h
    obtain ⟨found, answer⟩ := r
    cases answer with
    | error r =>
      cases h
      exact ⟨r, rfl⟩
    | ok command =>
      simp only at h hrest
      generalize (found.describeAll host rest).2.ending = ending at h hrest
      cases ending with
      | error stop' =>
        cases h
        exact hrest rfl
      | ok status => cases h

/-- A `cd` that fails says so, once, and moves nothing. -/
structure StaysPut (s : Session) (r : Session × Reply) : Prop where
  ending : r.2.ending = .ok 1
  out : r.2.out = ""
  err : ∃ cause, r.2.err = "cd: " ++ cause ++ "\n"
  unmoved : Unmoved s r.1

theorem staysPut_complain (s : Session) (cause : String) :
    StaysPut s (s, .complain ("cd: " ++ cause ++ "\n")) :=
  ⟨rfl, rfl, ⟨cause, rfl⟩, .refl s⟩

theorem enter_cases (host : Host) (s : Session) (path : String) :
    (s.enter host path).2 = .silent 0 ∨ StaysPut s (s.enter host path) := by
  unfold enter
  split
  · exact .inr (staysPut_complain s "HOME not set")
  · obtain ⟨e, hstays⟩ | ⟨place, -, hmoved⟩ := changeDirectory_cases host s path
    · rw [hstays]
      right
      have hcomplaint := staysPut_complain s (path ++ ": " ++ e.reason)
      simpa only [String.append_assoc] using hcomplaint
    · rw [hmoved]
      exact .inl rfl

theorem moveTo_cases (host : Host) (s : Session) (args : List String) :
    (s.moveTo host args).2 = .silent 0 ∨ StaysPut s (s.moveTo host args) := by
  match args with
  | [] =>
    rw [moveTo_eq host s (by simp)]
    exact enter_cases host s _
  | [arg] =>
    rw [moveTo_eq host s (by simp)]
    exact enter_cases host s _
  | _ :: _ :: _ => exact .inr (staysPut_complain s "too many arguments")

/-- `cd` succeeds without a word or moves nothing, whatever it is given and wherever the session is. -/
theorem perform_cd (host : Host) (s : Session) (args : List String) :
    (s.perform host .cd args).2 = .silent 0 ∨ StaysPut s (s.perform host .cd args) := by
  have hnoted : Unmoved s (s.note host (.builtin Builtin.cd.name args)) :=
    (progress_unmoved host).note s _ rfl
  rcases moveTo_cases host (s.note host (.builtin Builtin.cd.name args)) args with hok | hstays
  · exact .inl hok
  · exact .inr ⟨hstays.ending, hstays.out, hstays.err,
      hnoted.trans hstays.unmoved⟩

/-- The code of `exit` is a byte, whatever its argument is. -/
theorem exitReply_spec (args : List String) :
    ∃ code < 256, (Builtin.exitReply args).ending = .error (.leave code) ∧
      (Builtin.exitReply args).out = "" := by
  unfold Builtin.exitReply
  cases args with
  | nil => exact ⟨0, by decide, rfl, rfl⟩
  | cons arg rest =>
    cases hn : Text.Integer.ofText? arg with
    | none => exact ⟨2, by decide, by simp only [hn], by simp only [hn]⟩
    | some n => exact ⟨(n % 256).toNat, by omega, by simp only [hn], by simp only [hn]⟩

theorem describeAll_status {names : List String} {status : Nat}
    (h : (s.describeAll host names).2.ending = .ok status) : status ≤ 1 := by
  induction names generalizing s status with
  | nil =>
    cases h
    exact Nat.zero_le 1
  | cons name rest ih =>
    have hrest := @ih (s.findCommand host name).1
    simp only [describeAll] at h
    generalize s.findCommand host name = r at hrest h
    obtain ⟨found, answer⟩ := r
    cases answer with
    | error r => cases h
    | ok command =>
      simp only at h hrest
      generalize (found.describeAll host rest).2.ending = ending at h hrest
      cases ending with
      | error stop => cases h
      | ok others =>
        cases h
        split
        · exact Nat.le_refl 1
        · exact hrest rfl

/-- A builtin that ends has done what it was asked for, or not. -/
theorem perform_status {b : Builtin} {args : List String} {status : Nat}
    (h : (s.perform host b args).2.ending = .ok status) : status ≤ 1 := by
  cases b with
  | exit =>
    obtain ⟨code, -, hending, -⟩ := exitReply_spec args
    have hleave : (s.perform host .exit args).2.ending = .error (.leave code) := hending
    rw [hleave] at h
    cases h
  | echo =>
    cases h
    exact Nat.zero_le 1
  | type => exact describeAll_status h
  | pwd =>
    cases h
    exact Nat.zero_le 1
  | cd =>
    rcases perform_cd host s args with hok | hstays
    · rw [hok] at h
      cases h
      exact Nat.zero_le 1
    · rw [hstays.ending] at h
      cases h
      exact Nat.le_refl 1

theorem runBuiltin_status {stage : Stage} {b : Builtin} {channels : Channels} {last : Bool}
    {result : StageResult} (h : (s.runBuiltin host stage b channels last).2 = .ok result) :
    result.status ≤ 1 := by
  unfold runBuiltin at h
  replace h := (closed_eq_ok h).1
  cases hending : (s.perform host b stage.args).2.ending with
  | error stop =>
    rw [hending] at h
    cases h
  | ok status =>
    have hle := perform_status hending
    rw [hending] at h
    cases h
    exact Int.ofNat_le.2 hle

/-- A builtin that stops the line ends the session, and then it writes no output, or it is `type` and
asks for what cannot be put to the system. -/
theorem perform_stops {b : Builtin} {args : List String} {stop : Stop}
    (h : (s.perform host b args).2.ending = .error stop) :
    (b = .type ∧ ∃ r, stop = .refused r) ∨
      ∃ code < 256, stop = .leave code ∧ (s.perform host b args).2.out = "" := by
  cases b with
  | exit =>
    obtain ⟨code, hcode, hending, hout⟩ := exitReply_spec args
    have hleave : (s.perform host .exit args).2.ending = .error (.leave code) := hending
    rw [hleave] at h
    cases h
    exact .inr ⟨code, hcode, rfl, hout⟩
  | echo => cases h
  | type => exact .inl ⟨rfl, describeAll_stops h⟩
  | pwd => cases h
  | cd =>
    rcases perform_cd host s args with hok | hstays
    · rw [hok] at h
      cases h
    · rw [hstays.ending] at h
      cases h

theorem did_runBuiltin (host : Host) (s : Session) (stage : Stage) (b : Builtin)
    (channels : Channels) (last : Bool) :
    let done := s.runBuiltin host stage b channels last
    Did host s stage.name channels last (.builtin (s.perform host b stage.args).2) done.1
      done.2 := by
  intro done
  have hsilent : Silent host s (s.perform host b stage.args).1 := silent_perform s b stage.args
  apply Did.of_silent hsilent
  have hstops := @perform_stops host s b stage.args
  have hdone : done = s.runBuiltin host stage b channels last := rfl
  simp only [runBuiltin] at hdone
  generalize s.perform host b stage.args = performed at hdone hstops ⊢
  obtain ⟨after, reply⟩ := performed
  obtain ⟨hout, herr, hjournal, houtput⟩ :=
    (after.deliverError channels (Text.encode reply.err)).deliverOutput_spec channels last
      (Text.encode reply.out)
  rw [hdone]
  simp only at hstops ⊢
  constructor
  case toSettled =>
    exact (settled_deliverError after channels _).trans (settled_deliverOutput _ channels last _)
  case out =>
    simp only [hout, deliverError_out, Deed.shown]
  case reports =>
    exact (reports_deliverError host after channels _).congr rfl rfl hjournal herr
  case output =>
    intro result hresult
    obtain ⟨hanswer, -⟩ := closed_eq_ok hresult
    cases hending : reply.ending with
    | error stop =>
      rw [hending] at hanswer
      cases hanswer
    | ok status =>
      rw [hending] at hanswer
      cases hanswer
      exact houtput
  case failure =>
    intro status hstatus
    cases hstatus
  case stops =>
    intro stop hstop
    rcases closed_eq_error hstop with ⟨e, rfl, hfault⟩ | hanswer
    · exact .inr (.inr ⟨e, rfl, Channels.fault?_eq_some hfault⟩)
    · cases hending : reply.ending with
      | ok status =>
        rw [hending] at hanswer
        cases hanswer
      | error stop' =>
        rw [hending] at hanswer
        cases hanswer
        rcases hstops hending with ⟨-, hrefused⟩ | ⟨code, hcode, hleave, hnothing⟩
        · exact .inl hrefused
        · refine .inr (.inl ⟨code, hcode, hleave, ?_⟩)
          simp only [Deed.shown, hnothing]
          rfl

/-! ## Programs -/

@[simp] theorem print_nil (s : Session) : s.print [] = s := by
  change { s with out := s.out ++ [], held := s.held } = s
  rw [List.append_nil]

@[simp] theorem printError_nil (s : Session) : s.printError [] = s := by
  change { s with err := s.err ++ [], held := s.held } = s
  rw [List.append_nil]

theorem finished_out (h : s.Flushed) (order : Order) (p : Performance) :
    (s.finished host order p).out =
      s.out ++ if order.out = .terminal then p.written .out else [] := by
  have hheld : s.held.out = 0 := congrArg Held.out h
  unfold finished
  rw [noteAll_out]
  simp only [carryOut, hheld, slipIn_zero]
  split
  · rfl
  · exact (List.append_nil _).symm

theorem settled_carryOut (s : Session) (order : Order) (p : Performance) :
    Settled s (s.carryOut order p) :=
  ⟨rfl, (FileTree.grown_carry p.writes s.files _ _).grants, .inl rfl⟩

theorem settled_finished (host : Host) (s : Session) (order : Order) (p : Performance) :
    Settled s (s.finished host order p) := by
  have hspawned : Silent host s { s with tally := { s.tally with spawned := s.tally.spawned + 1 } } :=
    silent_hidden s rfl s.held _
  have hcarried := hspawned.toSettled.trans (settled_carryOut _ order p)
  have hnoted : Silent host ({ s with tally := { s.tally with spawned := s.tally.spawned + 1 } }.carryOut
      order p) (s.finished host order p) := silent_noteAll _ (ended_level order p)
  exact hcarried.trans hnoted.toSettled

/-- What a program writes to the terminal comes there before the record of its end, -/
theorem reports_finished_of_terminal (h : s.Flushed) {order : Order} (herr : order.err = .terminal)
    (p : Performance) : Reports host s [p.written .err] (s.finished host order p) := by
  have hheld : s.held.err = 0 := congrArg Held.err h
  have hcarried : Reports host s [p.written .err]
      ({ s with tally := { s.tally with spawned := s.tally.spawned + 1 } }.carryOut order p) := by
    refine (Reports.printError s _).congr rfl rfl rfl ?_
    simp only [carryOut, hheld, slipIn_zero, herr, if_true]
    rfl
  exact hcarried.trans (silent_noteAll _ (ended_level order p)).reports

/-- and nothing else does. -/
theorem reports_finished_of_ne {order : Order} (herr : order.err ≠ .terminal) (s : Session)
    (p : Performance) : Reports host s [] (s.finished host order p) := by
  have hcarried : Reports host s []
      ({ s with tally := { s.tally with spawned := s.tally.spawned + 1 } }.carryOut order p) := by
    refine (Reports.refl s).congr rfl rfl rfl ?_
    simp only [carryOut, if_neg herr]
  exact hcarried.trans (silent_noteAll _ (ended_level order p)).reports

/-- A program that starts, as a stage: the shell shows what it has caught of the output of the last
stage, and keeps what it has caught of another. -/
theorem runProgram_of_started {path : String} {input : Option Bytes} {channels : Channels}
    {last : Bool} {found : Program × List Bytes × Place} {order : Order}
    (horder : s.orderOf host stage path input channels last = order)
    (hfound : (s.flush.counted host order).started host order = .ok found) :
    s.runProgram host stage path input channels last =
      let p := (s.flush.counted host order).performance order found
      let done := ((s.flush.counted host order).finished host order p).printError
        (copied ((order.err.captured (p.written .err)).getD []))
      let caught := order.out.captured (p.written .out)
      (done.print (if last then copied (caught.getD []) else []),
        .ok ⟨stage.name, p.status, if last then none else caught⟩) := by
  unfold runProgram
  rw [horder, launch_eq, hfound]
  simp only
  cases order.out.captured _ with
  | none =>
    have hnothing : copied ((none : Option Bytes).getD []) = [] := rfl
    cases last with
    | true => simp only [hnothing, print_nil, if_true]
    | false => simp only [print_nil, Bool.false_eq_true, if_false]
  | some bytes =>
    cases last with
    | true => rfl
    | false => simp only [print_nil, Bool.false_eq_true, if_false]

theorem copied_nil : copied [] = [] := rfl

theorem orderOf_out_eq (host : Host) (s : Session) (stage : Stage) (path : String)
    (input : Option Bytes) (channels : Channels) (last : Bool) :
    (s.orderOf host stage path input channels last).out = (channels.out.map Outlet.file).getD
      (if last && host.sharesTerminal then .terminal else .pipe) := by
  unfold orderOf
  cases channels.out <;> rfl

theorem orderOf_err_eq (host : Host) (s : Session) (stage : Stage) (path : String)
    (input : Option Bytes) (channels : Channels) (last : Bool) :
    (s.orderOf host stage path input channels last).err = (channels.err.map Outlet.file).getD
      (if host.sharesTerminal then .terminal else .pipe) := by
  unfold orderOf
  cases channels.err <;> rfl

/-- What a program writes to the terminal, and what the shell copies of what it has caught of the output
of the last stage: the output of the program as it shows there, if there is no file for it. -/
theorem out_of_finished (h : s.Flushed) {order : Order} {channels : Channels} {last : Bool}
    (hout : order.out = (channels.out.map Outlet.file).getD
      (if last && host.sharesTerminal then .terminal else .pipe)) (p : Performance) :
    (s.finished host order p).out ++
        (if last then copied ((order.out.captured (p.written .out)).getD []) else []) =
      s.out ++ if last ∧ channels.out = none then host.shows (p.written .out) else [] := by
  rw [finished_out h, hout, List.append_assoc]
  congr 1
  cases channels.out with
  | some h => cases last <;> simp [Outlet.captured, copied_nil]
  | none =>
    cases last with
    | false => simp
    | true =>
      cases hshares : host.sharesTerminal with
      | true => simp [Outlet.captured, copied_nil, Host.shows, hshares]
      | false => simp [Outlet.captured, Host.shows, hshares]

/-- It is the same with the errors of any stage, among the records. -/
theorem reports_of_finished (h : s.Flushed) {order : Order} {channels : Channels}
    (herr : order.err = (channels.err.map Outlet.file).getD
      (if host.sharesTerminal then .terminal else .pipe)) (p : Performance) :
    Reports host s [if channels.err = none then host.shows (p.written .err) else []]
      ((s.finished host order p).printError
        (copied ((order.err.captured (p.written .err)).getD []))) := by
  cases hchannel : channels.err with
  | some handle =>
    have hfile : order.err = .file handle := by simp [herr, hchannel]
    have hends : Reports host s [] (s.finished host order p) :=
      reports_finished_of_ne (by simp [hfile]) s p
    simpa [hfile, Outlet.captured, copied_nil] using hends.hush
  | none =>
    cases hshares : host.sharesTerminal with
    | true =>
      have hterminal : order.err = .terminal := by simp [herr, hchannel, hshares]
      have hends : Reports host s [p.written .err] (s.finished host order p) :=
        reports_finished_of_terminal h hterminal p
      simpa [hterminal, Outlet.captured, copied_nil, Host.shows, hshares] using hends
    | false =>
      have hpipe : order.err = .pipe := by simp [herr, hchannel, hshares]
      have hends : Reports host s [] (s.finished host order p) :=
        reports_finished_of_ne (by simp [hpipe]) s p
      simpa [hpipe, Outlet.captured, Host.shows, hshares] using
        hends.trans (.printError _ (copied (p.written .err)))

theorem did_of_started {stage : Stage} {path : String} {input : Option Bytes} {channels : Channels}
    {last : Bool} {found : Program × List Bytes × Place}
    (hfound : (s.flush.counted host (s.orderOf host stage path input channels last)).started host
      (s.orderOf host stage path input channels last) = .ok found) :
    let order := s.orderOf host stage path input channels last
    let done := s.runProgram host stage path input channels last
    Did host s stage.name channels last
      (.program ((s.flush.counted host order).performance order found)) done.1 done.2 := by
  intro order done
  have hsilent : Silent host s (s.flush.counted host order) :=
    (silent_flush s).trans (silent_counted _ order)
  apply Did.of_silent hsilent
  have hdone : done = _ := runProgram_of_started rfl hfound
  have hout := orderOf_out_eq host s stage path input channels last
  have herr := orderOf_err_eq host s stage path input channels last
  have horder : order = s.orderOf host stage path input channels last := rfl
  rw [← horder] at hdone hout herr
  have hflushed : (s.flush.counted host order).Flushed := (flushed_flush s).counted order
  generalize (s.flush.counted host order).performance order found = p at hdone ⊢
  rw [hdone]
  constructor
  case toSettled => exact (settled_finished host _ order p).trans ⟨rfl, rfl, .inl rfl⟩
  case out => exact out_of_finished hflushed hout p
  case reports => exact (reports_of_finished hflushed herr p).congr rfl rfl rfl rfl
  case output =>
    intro result hresult
    cases hresult
    simp only [hout]
    cases channels.out with
    | some h => cases last <;> simp [Outlet.captured]
    | none => cases last <;> simp [Outlet.captured, Deed.output?]
  case failure =>
    intro status hstatus
    cases hstatus
  case stops =>
    intro stop hstop
    cases hstop

/-! ## Commands -/

theorem Does.did {stage : Stage} {piped : Option Bytes} {channels : Channels} {last : Bool} {deed : Deed}
    {done : Session × Except Stop StageResult} (h : Does host s stage piped channels last deed done) :
    Did host s stage.name channels last deed done.1 done.2 := by
  have hfound : Silent host s (s.findCommand host stage.name).1 := silent_findCommand s stage.name
  cases h with
  | idle hargv =>
    have hnothing : (if channels.err = none then Deed.idle.errors host stage.name else []) = [] :=
      ite_self _
    refine ⟨.refl s, by simp [Deed.shown], ?_, ?_, ?_, ?_⟩
    · rw [hnothing]
      exact (Reports.refl s).hush
    · intro result hresult
      cases hresult
      simp [Deed.output?]
    · intro status hstatus
      cases hstatus
    · intro stop hstop
      cases hstop
  | unnamed hfind =>
    rw [hfind] at hfound
    exact (did_refused _ stage.name channels last _).of_silent hfound
  | unknown hfind =>
    rw [hfind] at hfound
    exact (did_failed rfl _ channels last).of_silent hfound
  | builtin hfind =>
    rw [hfind] at hfound
    exact (did_runBuiltin host _ stage _ channels last).of_silent hfound
  | @refused found path order refusal hfind horder hstarted =>
    rw [hfind] at hfound
    have hcounted := (hfound.trans (silent_flush found)).trans (silent_counted _ order)
    exact (did_refused _ stage.name channels last refusal).of_silent hcounted
  | @unstarted found path order e about hfind horder hstarted =>
    rw [hfind] at hfound
    have hcounted := (hfound.trans (silent_flush found)).trans (silent_counted _ order)
    have hmissed := hcounted.trans (silent_missed _ order e about)
    have hnoted : Silent host s (((found.flush.counted host order).missed host order e about).note host
        (.stageAborted path e)) := hmissed.trans (silent_note _ rfl)
    exact (did_failed rfl _ channels last).of_silent hnoted
  | program hfind horder hstarted =>
    rw [hfind] at hfound
    subst horder
    exact (did_of_started hstarted).of_silent hfound

theorem did_runCommand (host : Host) (s : Session) (stage : Stage) (piped : Option Bytes)
    (channels : Channels) (last : Bool) :
    let done := s.runCommand host stage piped channels last
    Did host s stage.name channels last (s.deed host stage piped channels last) done.1 done.2 :=
  (does_runCommand host s stage piped channels last).did

end Session

end PipelineShell
