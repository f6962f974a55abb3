import PipelineShell.Proofs.Likeness

/-!
# Runs of like sessions

A stage opens its redirections and then runs its command, a run does so for one stage after the
other, and what a stage opens or makes is there for the next. `runTrail` are the places that the
lookups of a whole run look at. Sessions that are alike along it run the same (`runFrom_alike`).
-/

namespace PipelineShell.Session

variable {X : Place → Prop} {added : Place → Option Entry} {s s' : Session} {host : Host}

/-! ## Channels -/

/-- The files that a stage has open for writing are at places of `X`. -/
structure Opened (X : Place → Prop) (channels : Channels) : Prop where
  out : ∀ h ∈ channels.out, X h.place
  err : ∀ h ∈ channels.err, X h.place

/-- The places that `openChannels` looks at. -/
def channelsTrail (host : Host) (s : Session) (stage : Stage) : List Place :=
  s.inputTrail stage ++ s.outputTrail host stage .stdout ++
    (s.openOutput host stage .stdout).1.outputTrail host stage .stderr

theorem openChannels_alike (hquiet : host.Quiet) (h : Alike X added s s') {stage : Stage}
    (htrail : ∀ p ∈ s.channelsTrail host stage, X p) :
    SameAnswer (Alike X added) (s.openChannels host stage) (s'.openChannels host stage) := by
  simp only [channelsTrail, List.mem_append] at htrail
  refine openChannels_sameAnswer ?_ h ?_ ?_
  · exact readInput_alike h fun p hp => htrail p (.inl (.inl hp))
  · exact openOutput_alike hquiet h fun p hp => htrail p (.inl (.inr hp))
  · intro opened opened' out hopened hfirst
    rw [hopened] at htrail
    exact openOutput_alike hquiet hfirst fun p hp => htrail p (.inr hp)

theorem openOutput_none (host : Host) (s : Session) {stage : Stage} {stream : Stream}
    (h : stage.redirection? stream = none) : s.openOutput host stage stream = (s, .ok none) := by
  unfold openOutput
  rw [h]

theorem opened_openChannels {stage : Stage} {ready : Session} {channels : Channels}
    (htrail : ∀ p ∈ s.channelsTrail host stage, X p)
    (h : s.openChannels host stage = (ready, .ok channels)) : Opened X channels := by
  simp only [channelsTrail, List.mem_append] at htrail
  obtain ⟨-, opened, hout, herr⟩ := openChannels_ok h
  rw [hout] at htrail
  refine ⟨?_, ?_⟩
  · intro handle hhandle
    rw [Option.mem_def] at hhandle
    rw [hhandle] at hout
    exact htrail _ (.inl (.inr (place_mem_outputTrail hout)))
  · intro handle hhandle
    rw [Option.mem_def] at hhandle
    rw [hhandle] at herr
    exact htrail _ (.inr (place_mem_outputTrail herr))

/-! ## Launching programs -/

/-- A session with one more program that was asked for. -/
def counted (host : Host) (s : Session) (order : Order) : Session :=
  { s with tally := { s.tally with total := s.tally.total + 1 } }.note host
    (.starting order.path order.argv)

/-- Nothing is held back. -/
def Flushed (s : Session) : Prop := s.held = ⟨0, 0⟩

theorem flushed_flush (s : Session) : s.flush.Flushed := rfl

/-- A record is not held back. -/
theorem Flushed.note (h : s.Flushed) (event : Event) : (s.note host event).Flushed := by
  have hout : s.held.out = 0 := congrArg Held.out h
  unfold Session.note
  cases host.log with
  | silent => exact h
  | terminal threshold =>
    simp only
    split
    · simp only [Flushed, flushError, printError, hout]
    · exact h
  | file place threshold =>
    simp only
    split
    · exact h
    · exact h

theorem Flushed.counted (h : s.Flushed) (order : Order) : (s.counted host order).Flushed := by
  have hcount : Flushed { s with tally := { s.tally with total := s.tally.total + 1 } } := h
  exact hcount.note _

/-- Where nothing is held back, what comes to the terminal comes after what is there. -/
theorem slipIn_zero (text bytes : Bytes) : slipIn text 0 bytes = text ++ bytes := by
  simp [slipIn]

/-- The program that an order starts, or why it starts none. -/
def started (host : Host) (s : Session) (order : Order) :
    Except LaunchFailure (Program × List Bytes × Place) :=
  match order.refusal? with
  | some r => .error (.refused r)
  | none =>
    match s.files.executable host.installation (busyPlaces host order) s.processPlace order with
    | .error (e, about) => .error (.system e about)
    | .ok found => .ok found

/-- A session in which a program did not start. -/
def missed (host : Host) (s : Session) (order : Order) (e : SystemError) (about : String) :
    Session :=
  { s with tally := { s.tally with failed := s.tally.failed + 1 } }.note host
    (.startFailed order.path e about)

/-- A session in which a program has started and done its work. -/
def finished (host : Host) (s : Session) (order : Order) (p : Performance) : Session :=
  ({ s with tally := { s.tally with spawned := s.tally.spawned + 1 } }.carryOut order p).noteAll
    host (order.argv.head?.toList.map (.ended · p.status))

/-- What a program does that an order starts. -/
def performance (s : Session) (order : Order) (found : Program × List Bytes × Place) :
    Performance :=
  found.1 ⟨found.2.1, order.environment, Place.text found.2.2, s.feedBytes order.feed⟩

/-- A launch as one case distinction on what is started. -/
theorem launch_eq (host : Host) (s : Session) (order : Order) :
    s.launch host order =
      match (s.counted host order).started host order with
      | .error (.refused r) => (s.counted host order, .error (.refused r))
      | .error (.system e about) =>
        ((s.counted host order).missed host order e about, .error (.system e about))
      | .ok found =>
        let p := (s.counted host order).performance order found
        ((s.counted host order).finished host order p,
          .ok ⟨p.status, order.out.captured (p.written .out),
            order.err.captured (p.written .err)⟩) := by
  simp only [launch, started, counted]
  cases order.refusal? with
  | some r => rfl
  | none =>
    simp only
    split
    · next hfailed =>
      rw [hfailed]
      rfl
    · next hfound =>
      rw [hfound]
      rfl

/-- What is started in like sessions: the same, or nothing for reasons that may differ. -/
inductive StartedAlike : Except LaunchFailure (Program × List Bytes × Place) →
    Except LaunchFailure (Program × List Bytes × Place) → Prop
  | refused (r : Refusal) : StartedAlike (.error (.refused r)) (.error (.refused r))
  | failed (e e' : SystemError) (about about' : String) :
    StartedAlike (.error (.system e about)) (.error (.system e' about'))
  | found (found : Program × List Bytes × Place) : StartedAlike (.ok found) (.ok found)

theorem started_alike (h : Alike X added s s') {order order' : Order}
    (hbusy : FileTree.AgreeBusy X (busyPlaces host order) (busyPlaces host order'))
    (hpath : order'.path = order.path) (hargv : order'.argv = order.argv)
    (hdirectory : order'.directory = order.directory)
    (henvironment : order'.environment = order.environment) :
    StartedAlike (s.started host order) (s'.started host order') := by
  have hrefusal : order'.refusal? = order.refusal? := by
    simp only [Order.refusal?, hpath, hargv, hdirectory, henvironment]
  have hexecutable : FileTree.Matching
      (s.files.executable host.installation (busyPlaces host order) s.processPlace order)
      (s'.files.executable host.installation (busyPlaces host order') s.processPlace order') :=
    FileTree.executable_agree h.files hbusy hpath hargv hdirectory henvironment s.processPlace
  rw [started, started, hrefusal, h.processPlace]
  cases order.refusal? with
  | some r => exact .refused r
  | none =>
    simp only
    generalize s.files.executable _ _ _ order = r at hexecutable ⊢
    generalize s'.files.executable _ _ _ order' = r' at hexecutable ⊢
    cases hexecutable with
    | ok found => exact .found found
    | error failure failure' => exact .failed _ _ _ _

theorem Alike.counted (hquiet : host.Quiet) (h : Alike X added s s') {order order' : Order} :
    Alike X added (s.counted host order) (s'.counted host order') := by
  refine Alike.note ?_ hquiet rfl rfl
  refine ⟨h.files, h.directory, h.processPlace, h.environment, h.out, h.err, h.held, h.input, ?_⟩
  simp only [h.tally]

theorem Alike.missed (hquiet : host.Quiet) (h : Alike X added s s') (order order' : Order)
    (e e' : SystemError) (about about' : String) :
    Alike X added (s.missed host order e about) (s'.missed host order' e' about') := by
  refine Alike.note ?_ hquiet rfl rfl
  refine ⟨h.files, h.directory, h.processPlace, h.environment, h.out, h.err, h.held, h.input, ?_⟩
  simp only [h.tally]

theorem Alike.feedBytes (h : Alike X added s s') (feed : Feed) : s'.feedBytes feed = s.feedBytes feed := by
  cases feed with
  | nothing => rfl
  | bytes input => rfl
  | terminal => exact h.input

theorem ended_level (order : Order) (p : Performance) :
    ∀ event ∈ order.argv.head?.toList.map (Event.ended · p.status), event.level = .debug := by
  intro event hevent
  obtain ⟨name, _, rfl⟩ := List.mem_map.1 hevent
  rfl

theorem Alike.finished (hquiet : host.Quiet) (h : Alike X added s s') {order : Order}
    (hout : ∀ o ∈ order.out.handle?, X o.place) (herr : ∀ e ∈ order.err.handle?, X e.place)
    (p : Performance) : Alike X added (s.finished host order p) (s'.finished host order p) := by
  unfold Session.finished
  rw [noteAll_of_quiet hquiet (ended_level order p), noteAll_of_quiet hquiet (ended_level order p)]
  refine ⟨FileTree.carry_agree h.files hout herr p.writes, h.directory, h.processPlace,
    h.environment, ?_, ?_, h.held, ?_, ?_⟩
  · simp only [carryOut, h.out, h.held]
  · simp only [carryOut, h.err, h.held]
  · simp only [carryOut, h.input]
  · simp only [carryOut, h.tally]

theorem performance_alike (h : Alike X added s s') {order order' : Order}
    (henvironment : order'.environment = order.environment) (hfeed : order'.feed = order.feed)
    (found : Program × List Bytes × Place) :
    s'.performance order' found = s.performance order found := by
  rw [performance, performance, henvironment, hfeed, h.feedBytes]

/-- What launches in like sessions come to. Where the program does not start the reasons may
differ. -/
inductive LaunchAlike (X : Place → Prop) (added : Place → Option Entry) :
    Session × Except LaunchFailure Outcome → Session × Except LaunchFailure Outcome → Prop
  | refused {done done' : Session} (r : Refusal) (h : Alike X added done done') :
    LaunchAlike X added (done, .error (.refused r)) (done', .error (.refused r))
  | failed {done done' : Session} (e e' : SystemError) (about about' : String)
    (h : Alike X added done done') :
    LaunchAlike X added (done, .error (.system e about)) (done', .error (.system e' about'))
  | ended {done done' : Session} (outcome : Outcome) (h : Alike X added done done') :
    LaunchAlike X added (done, .ok outcome) (done', .ok outcome)

theorem launch_alike (hquiet : host.Quiet) (h : Alike X added s s') {order : Order}
    (hout : ∀ o ∈ order.out.handle?, X o.place) (herr : ∀ e ∈ order.err.handle?, X e.place) :
    LaunchAlike X added (s.launch host order) (s'.launch host order) := by
  have hcounted : Alike X added (s.counted host order) (s'.counted host order) := h.counted hquiet
  have hstarted : StartedAlike ((s.counted host order).started host order)
      ((s'.counted host order).started host order) :=
    started_alike hcounted (fun _ _ => Iff.rfl) rfl rfl rfl rfl
  rw [launch_eq, launch_eq]
  generalize (s.counted host order).started host order = r at hstarted ⊢
  generalize (s'.counted host order).started host order = r' at hstarted ⊢
  cases hstarted with
  | refused r => exact .refused r hcounted
  | failed e e' about about' => exact .failed e e' about about' (hcounted.missed hquiet _ _ _ _ _ _)
  | found found =>
    simp only
    rw [performance_alike hcounted rfl rfl]
    exact .ended _ (hcounted.finished hquiet hout herr _)

/-! ## Stages -/

theorem deliverError_alike (h : Alike X added s s') {channels : Channels} (hopened : Opened X channels)
    (text : Bytes) : Alike X added (s.deliverError channels text) (s'.deliverError channels text) := by
  unfold deliverError
  split
  · next handle herr => exact h.writeFile (hopened.err handle herr) text
  · exact h.printError text

theorem deliverOutput_alike (h : Alike X added s s') {channels : Channels} (hopened : Opened X channels)
    (last : Bool) (text : Bytes) :
    SameAnswer (Alike X added) (s.deliverOutput channels last text)
      (s'.deliverOutput channels last text) := by
  unfold deliverOutput
  split
  · next handle hout => exact ⟨rfl, h.writeFile (hopened.out handle hout) text⟩
  · split
    · exact ⟨rfl, h.print text⟩
    · exact ⟨rfl, h⟩

theorem runBuiltin_alike (hquiet : host.Quiet) (h : Alike X added s s') {stage : Stage} {b : Builtin}
    {channels : Channels} (hopened : Opened X channels) (last : Bool)
    (htrail : ∀ p ∈ s.performTrail host b stage.args, X p) :
    SameAnswer (Alike X added) (s.runBuiltin host stage b channels last)
      (s'.runBuiltin host stage b channels last) := by
  obtain ⟨done, done', reply, hdone, hdone', hafter⟩ := (perform_alike hquiet h htrail).exists
  have herror := deliverError_alike hafter hopened (Text.encode reply.err)
  obtain ⟨hanswer, houtput⟩ := deliverOutput_alike herror hopened last (Text.encode reply.out)
  simp only [runBuiltin, hdone, hdone']
  refine ⟨?_, houtput⟩
  simp only [hanswer, channels.fault?_congr hafter.files.grants]

theorem giveUp_alike (h : Alike X added s s') {stage : Stage} {channels : Channels}
    (hopened : Opened X channels) (status : Int) :
    SameAnswer (Alike X added) (s.giveUp stage channels status) (s'.giveUp stage channels status) := by
  unfold giveUp
  refine ⟨?_, deliverError_alike h hopened _⟩
  simp only [channels.fault?_congr h.files.grants]

theorem Alike.flush (h : Alike X added s s') : Alike X added s.flush s'.flush :=
  ⟨h.files, h.directory, h.processPlace, h.environment, h.out, h.err, rfl, h.input, h.tally⟩

theorem orderOf_alike (h : Alike X added s s') (stage : Stage) (path : String) (input : Option Bytes)
    (channels : Channels) (last : Bool) :
    s'.orderOf host stage path input channels last = s.orderOf host stage path input channels last
    := by
  simp only [orderOf, h.directory, h.environment]

theorem orderOf_out (host : Host) (s : Session) (stage : Stage) (path : String)
    (input : Option Bytes) (channels : Channels) (last : Bool) :
    (s.orderOf host stage path input channels last).out.handle? = channels.out := by
  unfold orderOf
  cases channels.out with
  | some handle => rfl
  | none =>
    simp only
    split <;> rfl

theorem orderOf_err (host : Host) (s : Session) (stage : Stage) (path : String)
    (input : Option Bytes) (channels : Channels) (last : Bool) :
    (s.orderOf host stage path input channels last).err.handle? = channels.err := by
  unfold orderOf
  cases channels.err with
  | some handle => rfl
  | none =>
    simp only
    split <;> rfl

theorem runProgram_alike (hquiet : host.Quiet) (h : Alike X added s s') {stage : Stage}
    {path : String} {input : Option Bytes} {channels : Channels} (hopened : Opened X channels)
    (last : Bool) :
    SameAnswer (Alike X added) (s.runProgram host stage path input channels last)
      (s'.runProgram host stage path input channels last) := by
  have hlaunch : LaunchAlike X added
      (s.flush.launch host (s.orderOf host stage path input channels last))
      (s'.flush.launch host (s.orderOf host stage path input channels last)) := by
    refine launch_alike hquiet h.flush ?_ ?_
    · rw [orderOf_out]
      exact hopened.out
    · rw [orderOf_err]
      exact hopened.err
  simp only [runProgram, orderOf_alike h]
  generalize s.flush.launch host _ = r at hlaunch ⊢
  generalize s'.flush.launch host _ = r' at hlaunch ⊢
  cases hlaunch with
  | refused r hafter => exact ⟨rfl, hafter⟩
  | @failed done done' e e' about about' hafter =>
    have hnoted : Alike X added (done.note host (.stageAborted path e))
        (done'.note host (.stageAborted path e')) := hafter.note hquiet rfl rfl
    exact giveUp_alike hnoted hopened _
  | ended outcome hafter =>
    have herror := hafter.printError (copied (outcome.err.getD []))
    simp only
    split
    · exact ⟨rfl, herror.print _⟩
    · exact ⟨rfl, herror⟩

/-- The places that the builtin of a stage looks at. -/
def builtinTrail (host : Host) (s : Session) (stage : Stage) : List Place :=
  match s.findCommand host stage.name with
  | (s, .ok (.builtin b)) => s.performTrail host b stage.args
  | _ => []

theorem runCommand_alike (hquiet : host.Quiet) (h : Alike X added s s') {stage : Stage}
    {piped : Option Bytes} {channels : Channels} (hopened : Opened X channels) (last : Bool)
    (htrail : ∀ p ∈ s.builtinTrail host stage, X p) :
    SameAnswer (Alike X added) (s.runCommand host stage piped channels last)
      (s'.runCommand host stage piped channels last) := by
  unfold builtinTrail at htrail
  unfold runCommand
  split
  · exact ⟨rfl, h⟩
  · obtain ⟨found, found', answer, hfound, hfound', hafter⟩ :=
      ((transparent_alike hquiet).findCommand h stage.name).exists
    rw [hfound] at htrail
    rw [hfound, hfound']
    cases answer with
    | error r => exact ⟨rfl, hafter⟩
    | ok command =>
      cases command with
      | builtin b => exact runBuiltin_alike hquiet hafter hopened last htrail
      | unknown => exact giveUp_alike hafter hopened _
      | program path => exact runProgram_alike hquiet hafter hopened last

/-- The places that `runStage` looks at. -/
def stageTrail (host : Host) (s : Session) (stage : Stage) : List Place :=
  s.channelsTrail host stage ++
    match s.openChannels host stage with
    | (_, .error _) => []
    | (s, .ok _) => s.builtinTrail host stage

theorem runStage_alike (hquiet : host.Quiet) (h : Alike X added s s') {stage : Stage}
    {piped : Option Bytes} {last : Bool} (htrail : ∀ p ∈ s.stageTrail host stage, X p) :
    SameAnswer (Alike X added) (s.runStage host stage piped last) (s'.runStage host stage piped last) := by
  simp only [stageTrail, List.mem_append] at htrail
  have hchannels : ∀ p ∈ s.channelsTrail host stage, X p := fun p hp => htrail p (.inl hp)
  obtain ⟨ready, ready', answer, hready, hready', hafter⟩ :=
    (openChannels_alike hquiet h hchannels).exists
  rw [hready] at htrail
  simp only [runStage, hready, hready']
  cases answer with
  | error stop => exact ⟨rfl, hafter⟩
  | ok channels =>
    exact runCommand_alike hquiet hafter (opened_openChannels hchannels hready) last
      fun p hp => htrail p (.inr hp)

/-! ## Runs -/

/-- A session that has come to a stage, and has reported what is wrong with its words. -/
def announced (host : Host) (position total : Nat) (s : Session) (stage : Stage) : Session :=
  ((stage.diagnostics.map Diagnosis.ofDangling).foldl report
    (s.note host (.stage position total .pending stage))).note host
      (.stage position total .running stage)

/-- A run of at least one stage as one case distinction on what becomes of the first. -/
theorem runFrom_cons (host : Host) (total position : Nat) (s : Session) (piped : Option Bytes)
    (stage : Stage) (rest : List Stage) :
    runFrom host total position s piped (stage :: rest) =
      match (announced host position total s stage).runStage host stage piped (rest = []) with
      | (s, .error stop) => (s, .error stop)
      | (s, .ok result) =>
        match runFrom host total (position + 1)
            (s.note host (.stage position total .completed stage))
            (some (result.output.getD [])) rest with
        | (s, .error stop) => (s, .error stop)
        | (s, .ok results) => (s, .ok (result :: results)) := rfl

theorem Alike.announced (hquiet : host.Quiet) (h : Alike X added s s')
    {position position' total total' : Nat} {stage stage' : Stage}
    (hdiagnostics : stage'.diagnostics = stage.diagnostics) :
    Alike X added (announced host position total s stage)
      (announced host position' total' s' stage') := by
  refine Alike.note ?_ hquiet rfl rfl
  rw [hdiagnostics]
  have hnoted : Alike X added (s.note host (.stage position total .pending stage))
      (s'.note host (.stage position' total' .pending stage')) := h.note hquiet rfl rfl
  generalize s.note host (.stage position total .pending stage) = a at hnoted ⊢
  generalize s'.note host (.stage position' total' .pending stage') = a' at hnoted ⊢
  induction stage.diagnostics.map Diagnosis.ofDangling generalizing a a' with
  | nil => exact hnoted
  | cons d rest ih => exact ih _ _ (hnoted.printError (Text.encode d.line))

/-- The places that a run looks at. -/
def runTrail (host : Host) (total : Nat) :
    Nat → Session → Option Bytes → List Stage → List Place
  | _, _, _, [] => []
  | position, s, piped, stage :: rest =>
    let s := announced host position total s stage
    s.stageTrail host stage ++
      match s.runStage host stage piped (rest = []) with
      | (_, .error _) => []
      | (s, .ok result) =>
        runTrail host total (position + 1) (s.note host (.stage position total .completed stage))
          (some (result.output.getD [])) rest

theorem runTrail_cons (host : Host) (total position : Nat) (s : Session) (piped : Option Bytes)
    (stage : Stage) (rest : List Stage) :
    runTrail host total position s piped (stage :: rest) =
      (announced host position total s stage).stageTrail host stage ++
        match (announced host position total s stage).runStage host stage piped (rest = []) with
        | (_, .error _) => []
        | (s, .ok result) =>
          runTrail host total (position + 1) (s.note host (.stage position total .completed stage))
            (some (result.output.getD [])) rest := rfl

/-- Runs are alike if their first stages are, and the rest whenever these come to an end. -/
theorem runFrom_alike_of_first (hquiet : host.Quiet) {total total' position position' : Nat}
    {piped piped' : Option Bytes} {stage stage' : Stage} {rest : List Stage}
    (hfirst : SameAnswer (Alike X added)
      ((announced host position total s stage).runStage host stage piped (rest = []))
      ((announced host position' total' s' stage').runStage host stage' piped' (rest = [])))
    (hrest : ∀ (done done' : Session) (result : StageResult),
      (announced host position total s stage).runStage host stage piped (rest = []) =
        (done, .ok result) →
      Alike X added (done.note host (.stage position total .completed stage))
        (done'.note host (.stage position' total' .completed stage')) →
      SameAnswer (Alike X added)
        (runFrom host total (position + 1) (done.note host (.stage position total .completed stage))
          (some (result.output.getD [])) rest)
        (runFrom host total' (position' + 1)
          (done'.note host (.stage position' total' .completed stage'))
          (some (result.output.getD [])) rest)) :
    SameAnswer (Alike X added) (runFrom host total position s piped (stage :: rest))
      (runFrom host total' position' s' piped' (stage' :: rest)) := by
  obtain ⟨done, done', answer, hdone, hdone', hafter⟩ := hfirst.exists
  rw [runFrom_cons, runFrom_cons, hdone, hdone']
  cases answer with
  | error stop => exact ⟨rfl, hafter⟩
  | ok result =>
    obtain ⟨last, last', results, hlast, hlast', hend⟩ :=
      (hrest done done' result hdone (hafter.note hquiet rfl rfl)).exists
    simp only [hlast, hlast']
    cases results with
    | error stop => exact ⟨rfl, hend⟩
    | ok results => exact ⟨rfl, hend⟩

/-- Sessions that are alike along a run run the same and stay alike. -/
theorem runFrom_alike (hquiet : host.Quiet) {total total' position : Nat} (position' : Nat)
    (h : Alike X added s s') {piped : Option Bytes} {stages : List Stage}
    (htrail : ∀ p ∈ runTrail host total position s piped stages, X p) :
    SameAnswer (Alike X added) (runFrom host total position s piped stages)
      (runFrom host total' position' s' piped stages) := by
  induction stages generalizing s s' position position' piped with
  | nil => exact ⟨rfl, h⟩
  | cons stage rest ih =>
    simp only [runTrail_cons, List.mem_append] at htrail
    refine runFrom_alike_of_first hquiet ?_ ?_
    · exact runStage_alike hquiet (h.announced hquiet rfl) fun p hp => htrail p (.inl hp)
    · intro done done' result hdone hnoted
      rw [hdone] at htrail
      exact ih (position' + 1) hnoted fun p hp => htrail p (.inr hp)

end PipelineShell.Session
