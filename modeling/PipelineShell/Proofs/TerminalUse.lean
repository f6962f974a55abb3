import PipelineShell.Proofs.InStep
import PipelineShell.Proofs.Small
import PipelineShell.Proofs.Terminal
import PipelineShell.Proofs.Utf8

/-!
# The use of the terminal

Hosts may use the terminal in different ways. Programs write to it themselves, or the shell copies what
they write; records go there or they do not. What a line does is no matter of that: on such hosts its
runs are in step, in sessions that differ only in what has been shown and noted (`inStep_sameButShown`),
and the same becomes of each command (`deed?_of_matches`). What shows is the same text where programs
share the terminal and where their output is copied (`execute_shared_copied`).
-/

namespace PipelineShell

/-- The file that records go to, and the rank of the least level that counts there. -/
def Log.file? : Log → Option (Place × Nat)
  | .file place threshold => some (place, threshold)
  | _ => none

/-- Two hosts are the same but for the use that is made of the terminal. -/
structure Host.SameButTerminal (host host' : Host) : Prop where
  installation : host'.installation = host.installation
  movesProcess : host'.movesProcess = host.movesProcess
  nesting : host'.nesting = host.nesting
  records : host'.log.file? = host.log.file?

theorem Host.SameButTerminal.refl (host : Host) : host.SameButTerminal host := ⟨rfl, rfl, rfl, rfl⟩

namespace Session

variable {host host' : Host} {s s' : Session}

/-- Two sessions are the same but for what the terminal has received, or is to receive, and what has been
noted. -/
def SameButShown (s s' : Session) : Prop :=
  ∃ out err held journal, s' = { s with out := out, err := err, held := held, journal := journal }

/-- On the two hosts programs find the same when they read from the terminal. -/
def SameFeed (host host' : Host) (s : Session) : Prop :=
  host'.sharesTerminal = host.sharesTerminal ∨ s.input = []

/-! ## Records -/

/-- Of the files a record changes the one that records go to. -/
theorem note_files (host : Host) (s : Session) (event : Event) :
    (s.note host event).files =
      match host.log.file? with
      | none => s.files
      | some (place, threshold) =>
        if threshold ≤ event.level.rank then
          ((Handle.mk place true 0).write s.files (Text.encode event.line)).1
        else s.files := by
  unfold note
  cases host.log with
  | silent => rfl
  | terminal threshold =>
    simp only [Log.file?]
    split <;> rfl
  | file place threshold =>
    simp only [Log.file?]
    split <;> rfl

namespace SameButShown

theorem refl (s : Session) : SameButShown s s := ⟨s.out, s.err, s.held, s.journal, rfl⟩

/-- Both sessions note the same. -/
theorem note (hhosts : host.SameButTerminal host') (h : SameButShown s s') (event : Event) :
    SameButShown (s.note host event) (s'.note host' event) := by
  obtain ⟨out, err, held, journal, rfl⟩ := h
  obtain ⟨files, noted, after, hnote⟩ := note_changes host s event
  obtain ⟨files', noted', after', hnote'⟩ :=
    note_changes host' { s with out := out, err := err, held := held, journal := journal } event
  have hfiles : files' = files := by
    have hleft := note_files host s event
    have hright :=
      note_files host' { s with out := out, err := err, held := held, journal := journal } event
    rw [hnote] at hleft
    rw [hnote', hhosts.records] at hright
    exact hright.trans hleft.symm
  rw [hnote, hnote', hfiles]
  exact ⟨out, noted', after', journal ++ [event], rfl⟩

theorem withFiles (h : SameButShown s s') (files : FileTree) :
    SameButShown { s with files := files } { s' with files := files } := by
  obtain ⟨out, err, held, journal, rfl⟩ := h
  exact ⟨out, err, held, journal, rfl⟩

/-- What the terminal receives makes no difference, whatever it is. -/
theorem shown (h : SameButShown s s') (out err out' err' : Bytes) (held held' : Held) :
    SameButShown { s with out := out, err := err, held := held }
      { s' with out := out', err := err', held := held' } := by
  obtain ⟨_, _, _, journal, rfl⟩ := h
  exact ⟨out', err', held', journal, rfl⟩

theorem changeDirectory (hhosts : host.SameButTerminal host') (h : SameButShown s s')
    (path : String) :
    SameAnswer SameButShown (s.changeDirectory host path) (s'.changeDirectory host' path) := by
  have hsame := h
  obtain ⟨out, err, held, journal, rfl⟩ := h
  apply changeDirectory_sameAnswer hsame hhosts.movesProcess rfl rfl (fun _ => rfl) (fun _ => rfl)
  exact fun directory place => ⟨out, err, held, journal, rfl⟩

theorem openOutput (hhosts : host.SameButTerminal host') (h : SameButShown s s') (stage : Stage)
    (stream : Stream) :
    SameAnswer SameButShown (s.openOutput host stage stream) (s'.openOutput host' stage stream) := by
  have hsame := h
  obtain ⟨out, err, held, journal, rfl⟩ := h
  unfold Session.openOutput
  simp only [resolvePath, hhosts.nesting]
  split
  · exact ⟨rfl, hsame⟩
  · split
    · exact ⟨rfl, hsame.withFiles _⟩
    · split
      · exact ⟨rfl, hsame.withFiles _⟩
      · exact ⟨rfl, (hsame.withFiles _).note hhosts _⟩

end SameButShown

theorem transparent_sameButShown (hhosts : host.SameButTerminal host') :
    Transparent host host' SameButShown where
  directory := by
    rintro s s' ⟨out, err, held, journal, rfl⟩
    rfl
  environment := by
    rintro s s' ⟨out, err, held, journal, rfl⟩
    rfl
  isExecutable := by
    rintro s s' ⟨out, err, held, journal, rfl⟩ path
    rfl
  note h event _ := h.note hhosts event

/-! ## Programs -/

variable {order order' : Order}

/-- Two orders are the same but for the streams that are on the terminal or in pipes. -/
structure SameOrder (order order' : Order) : Prop where
  path : order'.path = order.path
  argv : order'.argv = order.argv
  directory : order'.directory = order.directory
  environment : order'.environment = order.environment
  out : order'.out.handle? = order.out.handle?
  err : order'.err.handle? = order.err.handle?

theorem sameOrder_orderOf (h : SameButShown s s') (stage : Stage) (path : String)
    (input : Option Bytes) (channels : Channels) (last : Bool) :
    SameOrder (s.orderOf host stage path input channels last)
      (s'.orderOf host' stage path input channels last) := by
  obtain ⟨out, err, held, journal, rfl⟩ := h
  refine ⟨rfl, rfl, rfl, rfl, ?_, ?_⟩
  · rw [orderOf_out, orderOf_out]
  · rw [orderOf_err, orderOf_err]

/-- The places that are open for writing are the same. -/
theorem busyPlaces_sameOrder (hhosts : host.SameButTerminal host') (ho : SameOrder order order') :
    busyPlaces host' order' = busyPlaces host order := by
  have hrecords := hhosts.records
  unfold busyPlaces
  rw [ho.out, ho.err]
  generalize host.log = log at hrecords ⊢
  generalize host'.log = log' at hrecords ⊢
  cases log <;> cases log' <;> first | rfl | cases hrecords <;> rfl

theorem started_sameButShown (hhosts : host.SameButTerminal host') (h : SameButShown s s')
    (ho : SameOrder order order') : s'.started host' order' = s.started host order := by
  obtain ⟨out, err, held, journal, rfl⟩ := h
  have hrefusal : order'.refusal? = order.refusal? := by
    simp only [Order.refusal?, ho.path, ho.argv, ho.directory, ho.environment]
  simp only [started, hrefusal, FileTree.executable, FileTree.launchPaths, FileTree.handed,
    busyPlaces_sameOrder hhosts ho, hhosts.installation, ho.path, ho.argv, ho.directory, ho.environment]

/-- What a program finds on its input. -/
theorem feedBytes_orderOf (host : Host) (s u : Session) (stage : Stage) (path : String)
    (input : Option Bytes) (channels : Channels) (last : Bool) :
    u.feedBytes (s.orderOf host stage path input channels last).feed =
      input.getD (if host.sharesTerminal then u.input else []) := by
  unfold orderOf
  cases input with
  | some bytes => rfl
  | none => cases host.sharesTerminal <;> rfl

variable {stage : Stage} {path : String} {input : Option Bytes} {channels : Channels} {last : Bool}
  {u u' : Session}

/-- A program does the same. -/
theorem performance_sameButShown (h : SameButShown s s') (hu : SameButShown u u')
    (hfeed : SameFeed host host' u) (found : Program × List Bytes × Place) :
    u'.performance (s'.orderOf host' stage path input channels last) found =
      u.performance (s.orderOf host stage path input channels last) found := by
  have ho : SameOrder (s.orderOf host stage path input channels last)
      (s'.orderOf host' stage path input channels last) := sameOrder_orderOf h stage path input channels last
  have hinput : u'.input = u.input := by
    obtain ⟨out, err, held, journal, rfl⟩ := hu
    rfl
  have hbytes : u'.feedBytes (s'.orderOf host' stage path input channels last).feed =
      u.feedBytes (s.orderOf host stage path input channels last).feed := by
    rw [feedBytes_orderOf, feedBytes_orderOf, hinput]
    rcases hfeed with hshares | hnothing
    · rw [hshares]
    · simp only [hnothing, ite_self]
  unfold performance
  rw [ho.environment, hbytes]

/-- A program leaves the same, but for what it shows. -/
theorem carryOut_sameButShown (h : SameButShown s s') (hu : SameButShown u u')
    (hfeed : SameFeed host host' u) (p : Performance) :
    SameButShown (u.carryOut (s.orderOf host stage path input channels last) p)
      (u'.carryOut (s'.orderOf host' stage path input channels last) p) := by
  have ho : SameOrder (s.orderOf host stage path input channels last)
      (s'.orderOf host' stage path input channels last) := sameOrder_orderOf h stage path input channels last
  have hleft : ∀ (host : Host) (s v : Session),
      (v.carryOut (s.orderOf host stage path input channels last) p).input =
        if input = none ∧ host.sharesTerminal then v.input.drop p.taken else v.input := by
    intro host s v
    unfold orderOf carryOut
    cases input with
    | some bytes => simp
    | none => cases host.sharesTerminal <;> simp
  obtain ⟨out, err, held, journal, rfl⟩ := hu
  let order := s.orderOf host stage path input channels last
  let after' := Session.carryOut { u with out := out, err := err, held := held, journal := journal }
    (s'.orderOf host' stage path input channels last) p
  have hfiles : after'.files = (u.carryOut order p).files := by
    simp only [after', carryOut, order, ho.out, ho.err]
  have hinput : after'.input = (u.carryOut order p).input := by
    simp only [after', order, hleft]
    rcases hfeed with hshares | hnothing
    · rw [hshares]
    · simp only [hnothing, List.drop_nil, ite_self]
  refine ⟨after'.out, after'.err, held, journal, ?_⟩
  calc after' = { u.carryOut order p with
          files := after'.files
          out := after'.out
          err := after'.err
          held := held
          input := after'.input
          journal := journal } := rfl
    _ = _ := by rw [hfiles, hinput]

/-! ## Runs -/

/-- What the shell itself does takes nothing from the terminal. -/
theorem advance_input (host : Host) : Advance host fun s s' => s'.input = s.input where
  refl _ := rfl
  trans h h' := h'.trans h
  note s event _ := note_input host s event

theorem finished_input (host : Host) (order : Order) (p : Performance) (h : u.input = []) :
    (u.finished host order p).input = [] := by
  have hnoted := (advance_input host).noteAll
    ({ u with tally := { u.tally with spawned := u.tally.spawned + 1 } }.carryOut order p)
    (ended_level order p)
  refine hnoted.trans ?_
  simp only [carryOut, h, List.drop_nil, ite_self]

/-- What the shell catches of the output of a stage that is not the last one. -/
theorem captured_orderOf (host : Host) (s : Session) (stage : Stage) (path : String)
    (input : Option Bytes) (channels : Channels) (bytes : Bytes) :
    (s.orderOf host stage path input channels false).out.captured bytes =
      if channels.out = none then some bytes else none := by
  rw [orderOf_out_eq]
  cases channels.out <;> rfl

theorem SameFeed.of_input (h : SameFeed host host' s) (hinput : s'.input = s.input) :
    SameFeed host host' s' := h.imp_right hinput.trans

/-- The sessions of two runs that are in step. -/
def Alongside (host host' : Host) (s s' : Session) : Prop :=
  SameButShown s s' ∧ SameFeed host host' s

namespace Alongside

theorem note (hhosts : host.SameButTerminal host') (h : Alongside host host' s s') (event : Event) :
    Alongside host host' (s.note host event) (s'.note host' event) :=
  ⟨h.1.note hhosts event, h.2.of_input (note_input host s event)⟩

theorem print (h : Alongside host host' s s') (text text' : Bytes) :
    Alongside host host' (s.print text) (s'.print text') :=
  ⟨h.1.shown _ _ _ _ _ _, h.2⟩

theorem printError (h : Alongside host host' s s') (text text' : Bytes) :
    Alongside host host' (s.printError text) (s'.printError text') :=
  ⟨h.1.shown _ _ _ _ _ _, h.2⟩

theorem flush (h : Alongside host host' s s') : Alongside host host' s.flush s'.flush :=
  ⟨h.1.shown _ _ _ _ _ _, h.2⟩

theorem writeFile (h : Alongside host host' s s') (handle : Handle) (bytes : Bytes) :
    Alongside host host' (s.writeFile handle bytes) (s'.writeFile handle bytes) := by
  obtain ⟨⟨out, err, held, journal, rfl⟩, hfeed⟩ := h
  exact ⟨⟨out, err, held, journal, rfl⟩, hfeed⟩

theorem withTally (h : Alongside host host' s s') (count : Tally → Tally) :
    Alongside host host' { s with tally := count s.tally } { s' with tally := count s'.tally } := by
  obtain ⟨⟨out, err, held, journal, rfl⟩, hfeed⟩ := h
  exact ⟨⟨out, err, held, journal, rfl⟩, hfeed⟩

theorem counted (hhosts : host.SameButTerminal host') (h : Alongside host host' s s')
    (ho : SameOrder order order') :
    Alongside host host' (s.counted host order) (s'.counted host' order') := by
  unfold Session.counted
  rw [ho.path, ho.argv]
  exact (h.withTally fun tally => { tally with total := tally.total + 1 }).note hhosts _

theorem missed (hhosts : host.SameButTerminal host') (h : Alongside host host' s s')
    (ho : SameOrder order order') (e : SystemError) (about : String) :
    Alongside host host' (s.missed host order e about) (s'.missed host' order' e about) := by
  unfold Session.missed
  rw [ho.path]
  exact (h.withTally fun tally => { tally with failed := tally.failed + 1 }).note hhosts _

theorem finished (hhosts : host.SameButTerminal host') (h : Alongside host host' s s')
    (hu : Alongside host host' u u') (p : Performance) :
    Alongside host host' (u.finished host (s.orderOf host stage path input channels last) p)
      (u'.finished host' (s'.orderOf host' stage path input channels last) p) := by
  obtain ⟨hspawned, hfeed⟩ := hu.withTally fun tally => { tally with spawned := tally.spawned + 1 }
  have ho : SameOrder (s.orderOf host stage path input channels last)
      (s'.orderOf host' stage path input channels last) :=
    sameOrder_orderOf h.1 stage path input channels last
  refine ⟨?_, hu.2.imp_right (finished_input host _ p)⟩
  unfold Session.finished
  rw [ho.argv]
  exact (transparent_sameButShown hhosts).noteAll (carryOut_sameButShown h.1 hspawned hfeed p)
    (ended_level _ p)

theorem grants (h : Alongside host host' s s') : s'.files.grants = s.files.grants := by
  obtain ⟨⟨out, err, held, journal, rfl⟩, -⟩ := h
  rfl

theorem giveUp (h : Alongside host host' s s') (stage : Stage) (channels : Channels) (status : Int) :
    SameAnswer (Alongside host host') (s.giveUp stage channels status)
      (s'.giveUp stage channels status) := by
  have hdelivered := deliverError_related h.writeFile (fun text => h.printError text text) channels
    (Text.encode (Diagnosis.unknownCommand stage.name).line)
  refine ⟨?_, hdelivered⟩
  simp only [Session.giveUp, channels.fault?_congr h.grants]

/-- What a stage does with a program. Of what the program writes it catches the same, unless the stage is
the last one. -/
theorem runProgram (hhosts : host.SameButTerminal host') (h : Alongside host host' s s')
    (stage : Stage) (path : String) (input : Option Bytes) (channels : Channels) (last : Bool) :
    SameAnswer (Alongside host host') (s.runProgram host stage path input channels last)
      (s'.runProgram host' stage path input channels last) := by
  have ho : SameOrder (s.orderOf host stage path input channels last)
      (s'.orderOf host' stage path input channels last) :=
    sameOrder_orderOf h.1 stage path input channels last
  have hcounted := h.flush.counted hhosts ho
  have hstarted := started_sameButShown hhosts hcounted.1 ho
  cases hfound : (s.flush.counted host (s.orderOf host stage path input channels last)).started host
      (s.orderOf host stage path input channels last) with
  | error failure =>
    rw [hfound] at hstarted
    cases failure with
    | refused r =>
      rw [runProgram_of_refused rfl hfound, runProgram_of_refused rfl hstarted]
      exact ⟨rfl, hcounted⟩
    | system e about =>
      rw [runProgram_of_missed rfl hfound, runProgram_of_missed rfl hstarted]
      exact ((hcounted.missed hhosts ho e about).note hhosts (.stageAborted path e)).giveUp stage
        channels notStartedStatus
  | ok found =>
    rw [hfound] at hstarted
    rw [runProgram_of_started rfl hfound, runProgram_of_started rfl hstarted,
      performance_sameButShown h.1 hcounted.1 hcounted.2 found]
    generalize (s.flush.counted host _).performance _ found = p
    refine ⟨?_, ((h.finished hhosts hcounted p).printError _ _).print _ _⟩
    cases last with
    | true => rfl
    | false => simp only [captured_orderOf, Bool.false_eq_true, if_false]

end Alongside

/-- Whatever use two hosts make of the terminal, their runs are in step. -/
theorem inStep_sameButShown (hhosts : host.SameButTerminal host') :
    InStep host host' (fun _ _ => True) (Alongside host host') where
  directory h := (transparent_sameButShown hhosts).directory h.1
  environment h := (transparent_sameButShown hhosts).environment h.1
  isExecutable h := (transparent_sameButShown hhosts).isExecutable h.1
  note h event _ := h.note hhosts event
  changeDirectory := by
    rintro s s' ⟨h, hfeed⟩ path
    obtain ⟨hanswer, hafter⟩ := h.changeDirectory hhosts path
    refine ⟨hanswer, hafter, hfeed.of_input ?_⟩
    obtain ⟨e, hstays⟩ | ⟨place, -, hmoved⟩ := changeDirectory_cases host s path
    · rw [hstays]
    · rw [hmoved]
  grants h := h.grants
  openChannels := by
    intro s s' h stage _
    have hopens : ∀ {s s'}, Alongside host host' s s' → ∀ stream,
        SameAnswer (Alongside host host') (s.openOutput host stage stream)
          (s'.openOutput host' stage stream) := by
      rintro s s' ⟨h, hfeed⟩ stream
      obtain ⟨hanswer, hafter⟩ := h.openOutput hhosts stage stream
      refine ⟨hanswer, hafter, hfeed.of_input ?_⟩
      exact (advance_input host).openOutput s (fun _ _ => rfl) fun _ _ _ _ _ => rfl
    have hinput : s'.readInput stage = s.readInput stage := by
      obtain ⟨⟨out, err, held, journal, rfl⟩, -⟩ := h
      simp only [readInput, resolvePath]
    exact openChannels_sameAnswer hinput h (hopens h .stdout)
      fun _ _ _ _ hopened => hopens hopened .stderr
  print h text := h.print text text
  printError h text := h.printError text text
  writeFile h handle bytes := h.writeFile handle bytes
  runProgram h stage path input channels last := h.runProgram hhosts stage path input channels last

/-- A line comes to matching stages, with the same results and the same answer. -/
theorem Alongside.line (hhosts : host.SameButTerminal host') (h : Alongside host host' s s')
    (line : String) :
    (s'.runLine host' line).2 = (s.runLine host line).2 ∧
      List.Forall₂ (Arrival.Matches host host' (Alongside host host')) (s.lineArrivals host line)
        (s'.lineArrivals host' line) ∧
      SameAnswer SameButShown (s.execute host line) (s'.execute host' line) := by
  have hR := inStep_sameButShown hhosts
  obtain ⟨⟨hresults, -⟩, hmatches⟩ := hR.runLine h fun a _ => trivial
  obtain ⟨hanswer, hafter, -⟩ := hR.execute h fun a _ => trivial
  exact ⟨hresults, hmatches, hanswer, hafter⟩

/-! ## What becomes of commands -/

/-- The same becomes of a command. -/
theorem deed_alongside (hhosts : host.SameButTerminal host') (h : Alongside host host' s s')
    (stage : Stage) (piped : Option Bytes) (channels : Channels) (last : Bool) :
    s'.deed host' stage piped channels last = s.deed host stage piped channels last := by
  have hR := inStep_sameButShown hhosts
  unfold deed
  split
  · rfl
  · obtain ⟨found, found', answer, hfound, hfound', hafter⟩ := (hR.findCommand h stage.name).exists
    rw [hfound, hfound']
    cases answer with
    | error r => rfl
    | ok command =>
      cases command with
      | unknown => rfl
      | builtin b => exact congrArg Deed.builtin (hR.perform hafter b stage.args).1
      | program path =>
        have ho : SameOrder
            (found.orderOf host stage path (channels.input.or piped) channels last)
            (found'.orderOf host' stage path (channels.input.or piped) channels last) :=
          sameOrder_orderOf hafter.1 stage path _ channels last
        have hcounted := hafter.flush.counted hhosts ho
        simp only [started_sameButShown hhosts hcounted.1 ho,
          performance_sameButShown hafter.1 hcounted.1 hcounted.2]

end Session

namespace Arrival

open Session

variable {host host' : Host} {a a' : Arrival}

/-- At stages that two runs in step come to, the same becomes of the command. -/
theorem deed?_of_matches (hhosts : host.SameButTerminal host')
    (h : a.Matches host host' (Alongside host host') a') : a'.deed? host' = a.deed? host := by
  have hopen : SameAnswer (Alongside host host') (a.session.openChannels host a.stage)
      (a'.session.openChannels host' a.stage) :=
    (inStep_sameButShown hhosts).openChannels h.session trivial
  obtain ⟨ready, ready', answer, hready, hready', hafter⟩ := hopen.exists
  unfold deed?
  rw [h.stage, hready, hready']
  cases answer with
  | error stop => rfl
  | ok channels => simp only [h.piped, h.last, deed_alongside hhosts hafter]

end Arrival

/-! ## What shows -/

theorem Host.shows_of_shares {host host' : Host} (h : host'.sharesTerminal = host.sharesTerminal) :
    host'.shows = host.shows := by
  unfold shows
  rw [h]

theorem Host.decode_shows (host : Host) (bytes : Bytes) :
    Text.decode (host.shows bytes) = Text.decode bytes := by
  unfold shows
  split
  · rfl
  · exact Session.decode_copied bytes

theorem Host.shows_of_encoded (host : Host) {bytes : Bytes} (h : Text.Encoded bytes) :
    host.shows bytes = bytes := by
  unfold shows
  split
  · rfl
  · exact Session.copied_of_encoded h

namespace Arrival

open Session

variable {host host' : Host} {a a' : Arrival}

/-- What the program of the stage writes to the error stream, if it shows on the terminal, is text. -/
def ErrorsEncoded (host : Host) (a : Arrival) : Prop :=
  a.stage.redirection? .stderr = none →
    ∀ p, a.deed? host = some (.program p) → Text.Encoded (p.written .err)

theorem decode_shown (hhosts : host.SameButTerminal host')
    (h : a.Matches host host' (Alongside host host') a') :
    Text.decode (a'.shown host') = Text.decode (a.shown host) := by
  unfold shown
  rw [h.last, h.stage, deed?_of_matches hhosts h]
  split
  · cases a.deed? host with
    | none => rfl
    | some deed =>
      cases deed with
      | program p => exact (host'.decode_shows _).trans (host.decode_shows _).symm
      | _ => rfl
  · rfl

/-- Where programs use the terminal in one way, the bytes are the same too. -/
theorem shown_of_matches (hhosts : host.SameButTerminal host')
    (hshares : host'.sharesTerminal = host.sharesTerminal)
    (h : a.Matches host host' (Alongside host host') a') : a'.shown host' = a.shown host := by
  have hdeed : Deed.shown host' = Deed.shown host := by
    funext deed
    cases deed with
    | program p => exact congrFun (Host.shows_of_shares hshares) _
    | _ => rfl
  unfold shown
  rw [h.last, h.stage, deed?_of_matches hhosts h, hdeed]

theorem errors_of_shares (hhosts : host.SameButTerminal host')
    (hshares : host'.sharesTerminal = host.sharesTerminal)
    (h : a.Matches host host' (Alongside host host') a') : a'.errors host' = a.errors host := by
  have hdeed : Deed.errors host' = Deed.errors host := by
    funext name deed
    cases deed with
    | program p => exact congrFun (Host.shows_of_shares hshares) _
    | _ => rfl
  unfold errors
  rw [h.stage, deed?_of_matches hhosts h, hdeed]

theorem errors_of_matches (hhosts : host.SameButTerminal host')
    (h : a.Matches host host' (Alongside host host') a') (hencoded : a.ErrorsEncoded host) :
    a'.errors host' = a.errors host := by
  unfold errors
  rw [h.stage, deed?_of_matches hhosts h]
  split
  · next hr =>
    have hprogram := hencoded hr
    cases hdeed : a.deed? host with
    | none => rfl
    | some deed =>
      cases deed with
      | program p =>
        have hp := hprogram p hdeed
        exact (host'.shows_of_encoded hp).trans (host.shows_of_encoded hp).symm
      | _ => rfl
  · rfl

end Arrival

namespace Session

variable {host host' : Host} {s : Session} {line : String}

/-- Lines that end alike report the same if their stages do. -/
theorem said_congr {s' : Session} (hresults : (s'.runLine host' line).2 = (s.runLine host line).2)
    (htold : told host' (s'.lineArrivals host' line) = told host (s.lineArrivals host line)) :
    s'.said host' line = s.said host line := by
  unfold said
  rw [hresults, htold]

/-- A line does the same on two hosts, and shows the same text on either stream of the terminal. -/
structure ShowsAlike (host host' : Host) (s : Session) (line : String) : Prop where
  results : (s.runLine host' line).2 = (s.runLine host line).2
  answer : (s.execute host' line).2 = (s.execute host line).2
  session : SameButShown (s.execute host line).1 (s.execute host' line).1
  out : ∃ text text', (s.execute host line).1.out = s.out ++ text ∧
    (s.execute host' line).1.out = s.out ++ text' ∧ Text.decode text' = Text.decode text
  /-- The error stream receives the same texts in the same order. Only records stand between them. -/
  reports : ∃ texts, Reports host s texts (s.execute host line).1 ∧
    Reports host' s texts (s.execute host' line).1
  /-- Without records there it receives the same. -/
  err : ¬host.ShowsRecords → ¬host'.ShowsRecords →
    (s.execute host' line).1.err = (s.execute host line).1.err

/-- What a line shows is what the last stage shows that it comes to. -/
theorem execute_out_getLast? (host : Host) (s : Session) (line : String) :
    (s.execute host line).1.out =
      s.out ++ ((s.lineArrivals host line).getLast?.map (Arrival.shown host)).getD [] := by
  rw [execute_out, runLine_out]
  have hlength := (map_stage_lineArrivals host s line).length_le
  have hlast : ∀ i a, (s.lineArrivals host line)[i]? = some a →
      a.last = decide (i + 1 = (Pipeline.ofLine line).stages.length) := fun i a => last_lineArrivals
  rw [List.length_map] at hlength
  generalize s.lineArrivals host line = reached at hlength hlast ⊢
  rcases List.eq_nil_or_concat reached with rfl | ⟨before, final, rfl⟩
  · rfl
  · have hbefore : before.flatMap (Arrival.shown host) = [] := by
      rw [List.flatMap_eq_nil_iff]
      intro a ha
      obtain ⟨i, hi⟩ := List.mem_iff_getElem?.1 ha
      have hbound := (List.getElem?_eq_some_iff.1 hi).1
      have hthere : (before ++ [final])[i]? = some a := by rw [List.getElem?_append_left hbound, hi]
      rw [List.concat_eq_append, List.length_append, List.length_singleton] at hlength
      apply Arrival.shown_of_not_last
      rw [List.concat_eq_append] at hlast
      rw [hlast i a hthere, decide_eq_false_iff_not]
      omega
    simp [hbefore]

/-- Programs may share the terminal, or the shell may copy what they write: where nothing comes from the
terminal, and what programs show of their errors is text, no line tells the difference. -/
theorem execute_showsAlike (hhosts : host.SameButTerminal host') (s : Session) (line : String)
    (hinput : s.input = [])
    (hencoded : ∀ a ∈ s.lineArrivals host line, a.ErrorsEncoded host) :
    ShowsAlike host host' s line := by
  have hsame : Alongside host host' s s := ⟨.refl s, .inr hinput⟩
  obtain ⟨hresults, hmatches, hanswer, hafter⟩ := hsame.line hhosts line
  have hshown := congrArg List.getLast? (map_of_matches hmatches fun a _ a' h =>
    Arrival.decode_shown hhosts h)
  have htold : told host' (s.lineArrivals host' line) = told host (s.lineArrivals host line) :=
    flatMap_of_matches hmatches fun a ha a' h => by
      simp only [h.stage, Arrival.errors_of_matches hhosts h (hencoded a ha)]
  have hreports := reports_execute host s line
  have hreports' := reports_execute host' s line
  rw [said_congr hresults htold] at hreports'
  refine ⟨hresults, hanswer, hafter, ?_, ⟨_, hreports, hreports'⟩, ?_⟩
  · refine ⟨_, _, execute_out_getLast? host s line, execute_out_getLast? host' s line, ?_⟩
    have hdecode : ∀ text : Option Bytes,
        Text.decode (text.getD []) = (text.map Text.decode).getD "" := by
      intro text
      cases text <;> rfl
    rw [List.getLast?_map, List.getLast?_map] at hshown
    rw [hdecode, hdecode, Option.map_map, Option.map_map]
    exact congrArg (Option.getD · "") hshown
  · intro hshows hshows'
    rw [hreports.err hshows, hreports'.err hshows']

/-- Where programs use the terminal in one way, a line shows the same whatever is recorded between, and
whatever the terminal has received before. -/
theorem execute_shows (hhosts : host.SameButTerminal host')
    (hshares : host'.sharesTerminal = host.sharesTerminal) {s' : Session} (h : SameButShown s s')
    (line : String) :
    SameAnswer SameButShown (s.execute host line) (s'.execute host' line) ∧
      (∃ texts, Reports host s texts (s.execute host line).1 ∧
        Reports host' s' texts (s'.execute host' line).1) ∧
      ∃ out, (s.execute host line).1.out = s.out ++ out ∧
        (s'.execute host' line).1.out = s'.out ++ out := by
  have hsame : Alongside host host' s s' := ⟨h, .inl hshares⟩
  obtain ⟨hresults, hmatches, hanswer, hafter⟩ := hsame.line hhosts line
  have hshown : (s'.lineArrivals host' line).map (Arrival.shown host') =
      (s.lineArrivals host line).map (Arrival.shown host) :=
    map_of_matches hmatches fun a _ a' h => Arrival.shown_of_matches hhosts hshares h
  have htold : told host' (s'.lineArrivals host' line) = told host (s.lineArrivals host line) :=
    flatMap_of_matches hmatches fun a _ a' h => by
      simp only [h.stage, Arrival.errors_of_shares hhosts hshares h]
  have hreports := reports_execute host' s' line
  rw [said_congr hresults htold] at hreports
  refine ⟨⟨hanswer, hafter⟩, ⟨_, reports_execute host s line, hreports⟩,
    (s.lineArrivals host line).flatMap (Arrival.shown host), ?_, ?_⟩
  · rw [execute_out, runLine_out]
  · rw [execute_out, runLine_out, List.flatMap_def, List.flatMap_def, hshown]

/-- The last byte of the file is no text: the terminal receives it from the program, or the shell puts a
replacement in its place. -/
theorem execute_showsAlike_upper :
    let line := "/cat < /in | /upper"
    let shared := { Small.host with sharesTerminal := true }
    ShowsAlike shared Small.host Small.session line ∧
      (Small.session.execute shared line).1.out = [72, 73, 255] ∧
      (Small.session.execute Small.host line).1.out = [72, 73, 239, 191, 189] := by
  intro line shared
  refine ⟨?_, by decide +kernel, by decide +kernel⟩
  have hsilent : ∀ a ∈ Small.session.lineArrivals shared line, a.errors shared = [] := by
    decide +kernel
  have hhosts : shared.SameButTerminal Small.host := ⟨rfl, rfl, rfl, rfl⟩
  refine execute_showsAlike hhosts Small.session line rfl ?_
  intro a ha hstderr p hp
  have hwritten := hsilent a ha
  rw [Arrival.errors, if_pos hstderr, hp] at hwritten
  exact ⟨"", hwritten⟩

/-- A program writes to the error stream, which receives records, too: the text of a program that shares
the terminal is there before the record of its end, and text that the shell copies comes after it. -/
theorem execute_shows_unlike :
    let recording : Host := { Small.showingHost with installation := fun _ => some Stock.emit }
    let shared := { recording with sharesTerminal := true }
    let line := "/cat e:x"
    (∀ a ∈ Small.session.lineArrivals shared line, a.errors shared = Text.encode "x\n") ∧
      (Small.session.execute recording line).1.err ≠ (Small.session.execute shared line).1.err := by
  decide +kernel

end Session

end PipelineShell
