import PipelineShell.Proofs.FileTree.Vacancy
import PipelineShell.Proofs.FileTree.Writing
import PipelineShell.Proofs.Beside
import PipelineShell.Proofs.Small
import PipelineShell.Proofs.Told

/-!
# Relays

A pipe between two stages does what a file between two pipelines does: the first half of the line
writes the file, and the second half reads it. The two runs are alike but for the file, stage after
stage. At the stage before the pipe, what one run keeps for the next stage is what the other writes
into the file (`runStage_relay`), and at the stage after it the two inputs are the same
(`runStage_redirected_read`).
-/

namespace PipelineShell

/-! ## Stages with one more redirection -/

namespace Stage

/-- A stage with one more redirection at its end. -/
def redirected (stage : Stage) (r : Redirection) : Stage :=
  { stage with redirections := stage.redirections ++ [r] }

variable {stage : Stage} {r : Redirection} {stream : Stream}

theorem redirection?_redirected_self (h : r.operator.stream = stream) :
    (stage.redirected r).redirection? stream = some r := by
  simp [redirection?, redirected, h]

theorem redirection?_redirected_of_ne (h : r.operator.stream ≠ stream) :
    (stage.redirected r).redirection? stream = stage.redirection? stream := by
  simp [redirection?, redirected, h]

end Stage

namespace Session

open FileTree (AgreeBut AtEnd)

/-! ## Sessions that differ in one object -/

/-- `s'` is as `s` but for its journal and the object at one place. -/
abbrev AlikeBut (place : Place) (object : Option Entry) (s s' : Session) : Prop :=
  Alike (· ≠ place) (fun _ => object) s s'

variable {s s' : Session} {place : Place} {object : Option Entry} {host : Host} {stage : Stage}
  {path : Path} {tmp : String}

theorem AlikeBut.withFiles (h : AlikeBut place object s s') {object' : Option Entry} {t : FileTree}
    (hfiles : AgreeBut place object' s.files t) :
    AlikeBut place object' s { s' with files := t } :=
  ⟨hfiles, h.directory, h.processPlace, h.environment, h.out, h.err, h.held, h.input, h.tally⟩

/-- The file of a relay with the output of the first half in it. -/
abbrev relayFile (bytes : Bytes) : Option Entry := some (.file bytes FileTree.newFileMode)

theorem newFileMode_idle : Entry.someoneExecutes FileTree.newFileMode = false := by decide

/-- A relay can have its file at the place: what is written there arrives, and may be read. -/
structure Spare (t : FileTree) (path : Path) (place : Place) : Prop extends t.Vacant path place where
  takes : t.Takes place FileTree.newFileMode
  reads : (t.grant place).reads = true

theorem Spare.of_grown {t t' : FileTree} (h : Spare t path place) (hgrown : t.Grown t')
    (hnone : t'.find? place = none) : Spare t' path place := by
  refine ⟨h.toVacant.of_grown hgrown hnone, h.takes.congr hgrown.grants, ?_⟩
  rw [FileTree.grant_congr hgrown.grants, h.reads]

/-! ## The stage before the pipe -/

/-- What the first half of a relay has made of the file when its redirections are open. -/
theorem openOutput_vacant (hquiet : host.Quiet) (h : AlikeBut place none s s')
    (hvacant : s'.files.Vacant path place) (hpath : s'.resolvePath tmp = path)
    {ready' : Session} {out : Option Handle}
    (hopen : s'.openOutput host (stage.redirected ⟨.write, tmp⟩) .stdout = (ready', .ok out)) :
    hasNul path.text = false ∧ out = some ⟨place, false, 0⟩ ∧
      AlikeBut place (relayFile []) s ready' := by
  have hwrite : (stage.redirected ⟨.write, tmp⟩).redirection? .stdout = some ⟨.write, tmp⟩ :=
    Stage.redirection?_redirected_self rfl
  unfold openOutput at hopen
  simp only [hwrite, hpath] at hopen
  split at hopen
  · cases hopen
  · next made hparents =>
    split at hopen
    · cases hopen
    · next made' handle hfile =>
      obtain ⟨hnul, hmade, hhandle⟩ := hvacant.opens hparents hfile
      cases hopen
      refine ⟨hnul, ?_, ?_⟩
      · rw [hhandle]
        rfl
      · have hinsert : AgreeBut place (relayFile []) s.files made' := by
          rw [hmade]
          exact AgreeBut.insert h.files [] newFileMode_idle
        exact (h.withFiles hinsert).noted hquiet rfl

theorem stopAt_redirected (r : Redirection) : stopAt (stage.redirected r) = stopAt stage := by
  funext failed failure
  cases failure <;> rfl

theorem readInput_redirected (s : Session) {r : Redirection} (h : r.operator.stream ≠ .stdin) :
    s.readInput (stage.redirected r) = s.readInput stage := by
  unfold readInput
  simp only [Stage.redirection?_redirected_of_ne h, stopAt_redirected]

theorem openOutput_redirected (host : Host) (s : Session) {r : Redirection} {stream : Stream}
    (h : r.operator.stream ≠ stream) :
    s.openOutput host (stage.redirected r) stream = s.openOutput host stage stream := by
  unfold openOutput
  simp only [Stage.redirection?_redirected_of_ne h, stopAt_redirected]

/-- The stage before the pipe and its counterpart have the same channels but for the output. -/
theorem openChannels_relay (hquiet : host.Quiet) (h : AlikeBut place none s s')
    (hvacant : s'.files.Vacant path place) (hpath : s'.resolvePath tmp = path)
    (hout : stage.redirection? .stdout = none)
    (htrail : ∀ p ∈ s.channelsTrail host stage, p ≠ place) {ready' : Session} {channels' : Channels}
    (hopen : s'.openChannels host (stage.redirected ⟨.write, tmp⟩) = (ready', .ok channels')) :
    hasNul path.text = false ∧
      ∃ ready input err, s.openChannels host stage = (ready, .ok ⟨input, none, err⟩) ∧
        channels' = ⟨input, some ⟨place, false, 0⟩, err⟩ ∧
          AlikeBut place (relayFile []) ready ready' := by
  simp only [channelsTrail, openOutput_none host s hout, List.mem_append] at htrail
  have hinput : s'.readInput (stage.redirected ⟨.write, tmp⟩) = s.readInput stage := by
    rw [readInput_redirected s' (by simp [Operator.stream])]
    exact readInput_alike h fun p hp => htrail p (.inl (.inl hp))
  unfold openChannels at hopen ⊢
  rw [hinput] at hopen
  rw [openOutput_none host s hout]
  cases hread : s.readInput stage with
  | error stop =>
    rw [hread] at hopen
    cases hopen
  | ok input =>
    rw [hread] at hopen
    simp only at hopen ⊢
    split at hopen
    · cases hopen
    · next opened' out hopened =>
      obtain ⟨hnul, rfl, halike⟩ := openOutput_vacant hquiet h hvacant hpath hopened
      rw [openOutput_redirected host opened' (by simp [Operator.stream])] at hopen
      obtain ⟨ready, ready'', answer, hready, hready', hafter⟩ :=
        (openOutput_alike hquiet halike fun p hp => htrail p (.inr hp)).exists
      rw [hready'] at hopen
      rw [hready]
      cases answer with
      | error stop => cases hopen
      | ok err =>
        cases hopen
        exact ⟨hnul, ready, input, err, rfl, rfl, hafter⟩

/-- What the stage before the pipe and its counterpart come to: the same ending, and the output in
the one answer and in the file of the other. -/
inductive Relayed (place : Place) :
    Session × Except Stop StageResult → Session × Except Stop StageResult → Prop
  | intro {done done' : Session} (name : String) (status : Int) (output : Option Bytes)
    (h : AlikeBut place (relayFile (output.getD [])) done done') :
    Relayed place (done, .ok ⟨name, status, output⟩) (done', .ok ⟨name, status, none⟩)

/-- The output of the counterpart goes to the end of the file, which is empty. -/
theorem AlikeBut.writeFile (h : AlikeBut place (relayFile []) s s')
    (htakes : s'.files.Takes place FileTree.newFileMode) (bytes : Bytes) :
    AlikeBut place (relayFile bytes) s (s'.writeFile ⟨place, false, 0⟩ bytes) := by
  have hfound : s'.files.find? place = some (.file [] FileTree.newFileMode) :=
    AgreeBut.found h.files
  have hwrite : (Handle.write ⟨place, false, 0⟩ s'.files bytes).1 =
      s'.files.insert place (.file bytes FileTree.newFileMode) := by
    have hstart : FileTree.AtEnd ⟨place, false, 0⟩ [] := .inr rfl
    have hatEnd := (FileTree.write_atEnd hfound hstart bytes).1
    rwa [htakes.arriving, htakes.modeAfter, List.nil_append] at hatEnd
  have hinsert : AgreeBut place (relayFile bytes) s.files
      (Handle.write ⟨place, false, 0⟩ s'.files bytes).1 := by
    rw [hwrite]
    exact AgreeBut.insert h.files bytes newFileMode_idle
  exact h.withFiles hinsert

variable {input : Option Bytes} {err : Option Handle}

/-- Where the counterpart arrives at its end, the errors of the stage arrive. -/
theorem fault?_relay {t t' : FileTree} (hgrants : t'.grants = t.grants) {out errors : Bytes}
    (h : Channels.fault? ⟨input, some ⟨place, false, 0⟩, err⟩ t' out errors = none) :
    Channels.fault? ⟨input, none, err⟩ t out errors = none := by
  rw [Channels.fault?_congr hgrants] at h
  exact (Option.or_eq_none_iff.1 h).2

theorem runBuiltin_relay (hquiet : host.Quiet) (h : AlikeBut place (relayFile []) s s')
    (htakes : s'.files.Takes place FileTree.newFileMode) {b : Builtin}
    (herr : ∀ e ∈ err, e.place ≠ place)
    (htrail : ∀ p ∈ s.performTrail host b stage.args, p ≠ place)
    {done' : Session} {result' : StageResult}
    (hrun : s'.runBuiltin host (stage.redirected ⟨.write, tmp⟩) b
      ⟨input, some ⟨place, false, 0⟩, err⟩ true = (done', .ok result')) :
    Relayed place (s.runBuiltin host stage b ⟨input, none, err⟩ false) (done', .ok result') := by
  obtain ⟨done, made', reply, hdone, hdone', hafter⟩ := (perform_alike hquiet h htrail).exists
  have hopened : Opened (· ≠ place) ⟨input, none, err⟩ := ⟨by rintro _ ⟨⟩, herr⟩
  have herror := deliverError_alike hafter hopened (Text.encode reply.err)
  have hgrants : (made'.deliverError ⟨input, none, err⟩ (Text.encode reply.err)).files.grants =
      s'.files.grants := by
    have hperformed : Silent host s' (s'.perform host b stage.args).1 := silent_perform s' b stage.args
    rw [hdone'] at hperformed
    exact (hperformed.toSettled.trans (settled_deliverError made' _ _)).grants
  have houtput := AlikeBut.writeFile herror (htakes.congr hgrants) (Text.encode reply.out)
  have hargs : (stage.redirected ⟨.write, tmp⟩).args = stage.args := rfl
  have hanswer := congrArg Prod.snd hrun
  simp only [runBuiltin, hargs, hdone'] at hanswer
  obtain ⟨hending', hfault'⟩ := closed_eq_ok hanswer
  have hfault := fault?_relay hafter.files.grants hfault'
  rw [← hrun]
  simp only [runBuiltin, hargs, hdone, hdone', hfault, hfault'] at hrun ⊢
  cases hending : reply.ending with
  | error stop =>
    rw [hending] at hending'
    cases hending'
  | ok status => exact .intro stage.name status (some (Text.encode reply.out)) houtput

/-- A command that cannot be run leaves nothing in the pipe, and nothing in the file. -/
theorem giveUp_relay (h : AlikeBut place (relayFile []) s s') (herr : ∀ e ∈ err, e.place ≠ place)
    {status : Int} {done' : Session} {result' : StageResult}
    (hrun : s'.giveUp (stage.redirected ⟨.write, tmp⟩) ⟨input, some ⟨place, false, 0⟩, err⟩ status =
      (done', .ok result')) :
    Relayed place (s.giveUp stage ⟨input, none, err⟩ status) (done', .ok result') := by
  have hopened : Opened (· ≠ place) ⟨input, none, err⟩ := ⟨by rintro _ ⟨⟩, herr⟩
  have hname : (stage.redirected ⟨.write, tmp⟩).name = stage.name := rfl
  have hfault' := (closed_eq_ok (congrArg Prod.snd hrun)).2
  have hfault := fault?_relay h.files.grants hfault'
  rw [← hrun]
  simp only [giveUp, hname] at hfault hfault' ⊢
  rw [hfault, hfault']
  exact .intro stage.name status none (deliverError_alike h hopened _)

/-- What a launch with a pipe and its counterpart with the file come to. -/
inductive LaunchRelayed (place : Place) :
    Session × Except LaunchFailure Outcome → Session × Except LaunchFailure Outcome → Prop
  | refused {done done' : Session} (r : Refusal) (h : AlikeBut place (relayFile []) done done') :
    LaunchRelayed place (done, .error (.refused r)) (done', .error (.refused r))
  | failed {done done' : Session} (e e' : SystemError) (about about' : String)
    (h : AlikeBut place (relayFile []) done done') :
    LaunchRelayed place (done, .error (.system e about)) (done', .error (.system e' about'))
  | ended {done done' : Session} (status : Int) (bytes : Bytes) (err : Option Bytes)
    (h : AlikeBut place (relayFile bytes) done done') :
    LaunchRelayed place (done, .ok ⟨status, some bytes, err⟩) (done', .ok ⟨status, none, err⟩)

/-- An order with the file of a relay in place of the pipe. -/
def toRelay (place : Place) (order : Order) : Order := { order with out := .file ⟨place, false, 0⟩ }

theorem finished_relay (hquiet : host.Quiet) (h : AlikeBut place (relayFile []) s s')
    (htakes : s'.files.Takes place FileTree.newFileMode) {order : Order}
    (hout : order.out = .pipe) (herr : ∀ e ∈ order.err.handle?, e.place ≠ place) (p : Performance) :
    AlikeBut place (relayFile (p.written .out)) (s.finished host order p)
      (s'.finished host (toRelay place order) p) := by
  have hlevel := ended_level order p
  unfold finished
  rw [noteAll_of_quiet hquiet hlevel, noteAll_of_quiet hquiet (ended_level (toRelay place order) p)]
  have hfiles : AgreeBut place (relayFile ([] ++ FileTree.writtenTo .out p.writes))
      (s.files.carry none order.err.handle? p.writes)
      (s'.files.carry (some ⟨place, false, 0⟩) order.err.handle? p.writes) := by
    refine FileTree.carry_agreeBut ?_ h.files (htakes.congr h.files.grants.symm) newFileMode_idle ?_ herr
      p.writes
    · rfl
    · exact .inr rfl
  refine ⟨?_, h.directory, h.processPlace, h.environment, ?_, ?_, h.held, ?_, ?_⟩
  · simp only [carryOut, toRelay, hout]
    exact hfiles
  · simpa [carryOut, toRelay, hout] using h.out
  · simp only [carryOut, toRelay, h.err, h.held]
  · simp only [carryOut, toRelay, h.input]
  · simp only [carryOut, h.tally]

theorem launch_relay (hquiet : host.Quiet) (h : AlikeBut place (relayFile []) s s')
    (htakes : s'.files.Takes place FileTree.newFileMode) {order : Order}
    (hout : order.out = .pipe) (herr : ∀ e ∈ order.err.handle?, e.place ≠ place) :
    LaunchRelayed place (s.launch host order) (s'.launch host (toRelay place order)) := by
  have hcounted : AlikeBut place (relayFile []) (s.counted host order)
      (s'.counted host (toRelay place order)) := h.counted hquiet
  -- that the file is open for writing makes no difference to what is started
  have hbusy : FileTree.AgreeBusy (· ≠ place) (busyPlaces host order)
      (busyPlaces host (toRelay place order)) := by
    intro p hp
    simp [busyPlaces, toRelay, hout, Outlet.handle?, hp]
  have hstarted : StartedAlike ((s.counted host order).started host order)
      ((s'.counted host (toRelay place order)).started host (toRelay place order)) :=
    started_alike hcounted hbusy rfl rfl rfl rfl
  rw [launch_eq, launch_eq]
  generalize (s.counted host order).started host order = r at hstarted ⊢
  generalize (s'.counted host (toRelay place order)).started host (toRelay place order) = r'
    at hstarted ⊢
  cases hstarted with
  | refused r => exact .refused r hcounted
  | failed e e' about about' => exact .failed e e' about about' (hcounted.missed hquiet _ _ _ _ _ _)
  | found found =>
    have hperformance : (s'.counted host (toRelay place order)).performance (toRelay place order)
        found = (s.counted host order).performance order found :=
      performance_alike hcounted rfl rfl found
    simp only
    rw [hperformance]
    generalize (s.counted host order).performance order found = p
    have hsilent : Silent host s' (s'.counted host (toRelay place order)) :=
      silent_counted s' (toRelay place order)
    have hgrants := hsilent.grants
    have hfinished := finished_relay hquiet hcounted (htakes.congr hgrants) hout herr p
    have hpipe : order.out.captured (p.written .out) = some (p.written .out) := by
      rw [hout]
      rfl
    rw [hpipe]
    exact .ended p.status (p.written .out) _ hfinished

theorem runProgram_relay (hquiet : host.Quiet) (h : AlikeBut place (relayFile []) s s')
    (htakes : s'.files.Takes place FileTree.newFileMode) {name : String} {fed : Option Bytes}
    (herr : ∀ e ∈ err, e.place ≠ place)
    {done' : Session} {result' : StageResult}
    (hrun : s'.runProgram host (stage.redirected ⟨.write, tmp⟩) name fed
      ⟨input, some ⟨place, false, 0⟩, err⟩ true = (done', .ok result')) :
    Relayed place (s.runProgram host stage name fed ⟨input, none, err⟩ false)
      (done', .ok result') := by
  have horder : s'.orderOf host (stage.redirected ⟨.write, tmp⟩) name fed
      ⟨input, some ⟨place, false, 0⟩, err⟩ true =
        toRelay place (s.orderOf host stage name fed ⟨input, none, err⟩ false) := by
    simp only [orderOf, toRelay, h.directory, h.environment]
    rfl
  have hlaunch : LaunchRelayed place
      (s.flush.launch host (s.orderOf host stage name fed ⟨input, none, err⟩ false))
      (s'.flush.launch host
        (toRelay place (s.orderOf host stage name fed ⟨input, none, err⟩ false))) := by
    refine launch_relay hquiet h.flush htakes rfl ?_
    rw [orderOf_err]
    exact herr
  rw [← hrun]
  simp only [runProgram, horder] at hrun ⊢
  generalize s.flush.launch host _ = r at hlaunch ⊢
  generalize s'.flush.launch host _ = r' at hlaunch hrun ⊢
  cases hlaunch with
  | refused r hafter => cases hrun
  | @failed done done' e e' about about' hafter =>
    have hnoted : AlikeBut place (relayFile []) (done.note host (.stageAborted name e))
        (done'.note host (.stageAborted name e')) := hafter.note hquiet rfl rfl
    simp only at hrun ⊢
    rw [hrun]
    exact giveUp_relay hnoted herr hrun
  | ended status bytes errors hafter =>
    exact .intro stage.name status (some bytes) (hafter.printError (copied (errors.getD [])))

theorem runCommand_relay (hquiet : host.Quiet) (h : AlikeBut place (relayFile []) s s')
    (htakes : s'.files.Takes place FileTree.newFileMode) {piped : Option Bytes}
    (herr : ∀ e ∈ err, e.place ≠ place)
    (htrail : ∀ p ∈ s.builtinTrail host stage, p ≠ place)
    {done' : Session} {result' : StageResult}
    (hrun : s'.runCommand host (stage.redirected ⟨.write, tmp⟩) piped
      ⟨input, some ⟨place, false, 0⟩, err⟩ true = (done', .ok result')) :
    Relayed place (s.runCommand host stage piped ⟨input, none, err⟩ false)
      (done', .ok result') := by
  have hargv : (stage.redirected ⟨.write, tmp⟩).argv = stage.argv := rfl
  have hname : (stage.redirected ⟨.write, tmp⟩).name = stage.name := rfl
  unfold builtinTrail at htrail
  unfold runCommand at hrun ⊢
  rw [hargv, hname] at hrun
  by_cases hempty : stage.argv = []
  · rw [if_pos hempty] at hrun ⊢
    cases hrun
    exact .intro "" 0 none h
  · rw [if_neg hempty] at hrun ⊢
    obtain ⟨found, found', answer, hfound, hfound', hafter⟩ :=
      ((transparent_alike hquiet).findCommand h stage.name).exists
    have hgrants : found'.files.grants = s'.files.grants := by
      have hsilent : Silent host s' (s'.findCommand host stage.name).1 := silent_findCommand s' stage.name
      rw [hfound'] at hsilent
      exact hsilent.grants
    replace htakes := htakes.congr hgrants
    rw [hfound] at htrail ⊢
    rw [hfound'] at hrun
    cases answer with
    | error r => cases hrun
    | ok command =>
      cases command with
      | builtin b => exact runBuiltin_relay hquiet hafter htakes herr htrail hrun
      | unknown => exact giveUp_relay hafter herr hrun
      | program path => exact runProgram_relay hquiet hafter htakes herr hrun

/-- The stage before the pipe and its counterpart that writes into the file end alike. -/
theorem runStage_relay (hquiet : host.Quiet) (h : AlikeBut place none s s')
    (hspare : Spare s'.files path place) (hpath : s'.resolvePath tmp = path)
    (hout : stage.redirection? .stdout = none) {piped : Option Bytes}
    (htrail : ∀ p ∈ s.stageTrail host stage, p ≠ place)
    {done' : Session} {result' : StageResult}
    (hrun : s'.runStage host (stage.redirected ⟨.write, tmp⟩) piped true = (done', .ok result')) :
    hasNul path.text = false ∧
      Relayed place (s.runStage host stage piped false) (done', .ok result') := by
  simp only [stageTrail, List.mem_append] at htrail
  have hchannels : ∀ p ∈ s.channelsTrail host stage, p ≠ place := fun p hp => htrail p (.inl hp)
  unfold runStage at hrun ⊢
  split at hrun
  · cases hrun
  · next ready' channels' hopen =>
    obtain ⟨hnul, ready, input, err, hready, rfl, hafter⟩ :=
      openChannels_relay hquiet h hspare.toVacant hpath hout hchannels hopen
    have hopened := opened_openChannels hchannels hready
    have hgrants : ready'.files.grants = s'.files.grants := by
      have hsilent : Silent host s' (s'.openChannels host (stage.redirected ⟨.write, tmp⟩)).1 :=
        silent_openChannels s' _
      rw [hopen] at hsilent
      exact hsilent.grants
    rw [hready] at htrail ⊢
    exact ⟨hnul, runCommand_relay hquiet hafter (hspare.takes.congr hgrants) hopened.err
      (fun p hp => htrail p (.inr hp)) hrun⟩

/-! ## The stage after the pipe -/

/-- A stage that reads a file runs as one that is handed what is in the file. -/
theorem runStage_redirected_read (host : Host) (s : Session) {bytes : Bytes} (last : Bool)
    (hin : stage.redirection? .stdin = none)
    (hread : s.files.read s.processPlace (s.resolvePath tmp).text = .ok bytes) :
    s.runStage host (stage.redirected ⟨.read, tmp⟩) none last =
      s.runStage host stage (some bytes) last := by
  have htarget : (stage.redirected ⟨.read, tmp⟩).redirection? .stdin = some ⟨.read, tmp⟩ :=
    Stage.redirection?_redirected_self rfl
  have hinput : s.readInput (stage.redirected ⟨.read, tmp⟩) = .ok (some bytes) := by
    unfold readInput
    simp only [htarget, hread]
  have hnone : s.readInput stage = .ok none := by
    unfold readInput
    rw [hin]
  have hout : ∀ u : Session, u.openOutput host (stage.redirected ⟨.read, tmp⟩) .stdout =
      u.openOutput host stage .stdout :=
    fun u => openOutput_redirected host u (by simp [Operator.stream])
  have herr : ∀ u : Session, u.openOutput host (stage.redirected ⟨.read, tmp⟩) .stderr =
      u.openOutput host stage .stderr :=
    fun u => openOutput_redirected host u (by simp [Operator.stream])
  unfold runStage openChannels
  simp only [hinput, hnone, hout, herr]
  generalize s.openOutput host stage .stdout = r
  obtain ⟨opened, out⟩ := r
  cases out with
  | error stop => rfl
  | ok out =>
    simp only
    generalize opened.openOutput host stage .stderr = r
    obtain ⟨ready, err⟩ := r
    cases err with
    | error stop => rfl
    | ok err => rfl

/-- The second half of a relay runs as the line does from the pipe on. -/
theorem runFrom_fed (hquiet : host.Quiet) {bytes : Bytes}
    (h : AlikeBut place (relayFile bytes) s s') {t : FileTree} (hspare : Spare t path place)
    (hgrown : t.Grown s'.files) (hnul : hasNul path.text = false)
    (hpath : ∀ u : Session, u.resolvePath tmp = path) (hin : stage.redirection? .stdin = none)
    {rest : List Stage} {total total' position position' : Nat}
    (htrail : ∀ p ∈ runTrail host total position s (some bytes) (stage :: rest), p ≠ place) :
    SameAnswer (AlikeBut place (relayFile bytes))
      (runFrom host total position s (some bytes) (stage :: rest))
      (runFrom host total' position' s' none (stage.redirected ⟨.read, tmp⟩ :: rest)) := by
  simp only [runTrail_cons, List.mem_append] at htrail
  refine runFrom_alike_of_first hquiet ?_ ?_
  · have hannounced : AlikeBut place (relayFile bytes) (announced host position total s stage)
        (announced host position' total' s' (stage.redirected ⟨.read, tmp⟩)) :=
      h.announced hquiet rfl
    rw [runStage_redirected_read host _ _ hin]
    · exact runStage_alike hquiet hannounced fun p hp => htrail p (.inl hp)
    · rw [hpath]
      have hafter := hgrown.trans
        (grown_announced host position' total' s' (stage.redirected ⟨.read, tmp⟩))
      refine hspare.toVacant.read hafter ?_ (AgreeBut.found hannounced.files) hnul _
      rw [FileTree.grant_congr hafter.grants, hspare.reads]
  · intro done done' result hdone hnoted
    rw [hdone] at htrail
    exact runFrom_alike hquiet (position' + 1) hnoted fun p hp => htrail p (.inr hp)

/-! ## Pipes and relays -/

/-- What is seen of the stages that a run has come to: their names and statuses. -/
def reported (results : List StageResult) : List (String × Int) :=
  results.map fun result => (result.name, result.status)

/-- What the second half of a relay comes to, after a first half with the given results, beside
what the whole line comes to. -/
structure SameEnd (place : Place) (first : List StageResult)
    (piped relayed : Session × Except Stop (List StageResult)) : Prop where
  answer : piped.2.map reported = relayed.2.map fun results => reported (first ++ results)
  alike : ∃ object, AlikeBut place object piped.1 relayed.1

theorem SameEnd.of_sameAnswer {piped relayed : Session × Except Stop (List StageResult)}
    (h : SameAnswer (AlikeBut place object) piped relayed) : SameEnd place [] piped relayed := by
  refine ⟨?_, object, h.2⟩
  rw [h.1]
  rfl

/-- One more stage before the halves are run. -/
theorem SameEnd.cons {first : List StageResult} {result result' : StageResult}
    {piped relayed : Session × Except Stop (List StageResult)} (hname : result'.name = result.name)
    (hstatus : result'.status = result.status) :
    SameEnd place first piped relayed →
      SameEnd place (result' :: first)
        (match piped with
          | (s, .error stop) => (s, .error stop)
          | (s, .ok results) => (s, .ok (result :: results)))
        relayed := by
  rintro ⟨hanswer, halike⟩
  obtain ⟨s, answer⟩ := piped
  obtain ⟨s', answer'⟩ := relayed
  refine ⟨?_, ?_⟩
  · cases answer with
    | error stop =>
      cases answer' with
      | error stop' => exact hanswer
      | ok results' => cases hanswer
    | ok results =>
      cases answer' with
      | error stop' => cases hanswer
      | ok results' =>
        simp only [Except.map, reported, Except.ok.injEq] at hanswer ⊢
        simp only [List.map_cons, List.cons_append, hanswer, hname, hstatus]
  · cases answer <;> exact halike

/-- The stage before the pipe leaves in the file what the pipe hands on. -/
theorem runFrom_pipe (hquiet : host.Quiet) {p q : Stage} {qs : List Stage}
    (hout : p.redirection? .stdout = none) (hin : q.redirection? .stdin = none)
    (hpath : ∀ u : Session, u.resolvePath tmp = path)
    {total total' total'' position position' position'' : Nat} {piped : Option Bytes}
    (h : AlikeBut place none s s') (hspare : Spare s'.files path place)
    (htrail : ∀ x ∈ runTrail host total position s piped (p :: q :: qs), x ≠ place)
    {s₁ : Session} {first : List StageResult}
    (hrun : runFrom host total' position' s' piped [p.redirected ⟨.write, tmp⟩] = (s₁, .ok first)) :
    SameEnd place first (runFrom host total position s piped (p :: q :: qs))
      (runFrom host total'' position'' s₁ none (q.redirected ⟨.read, tmp⟩ :: qs)) := by
  have hmore : decide (q :: qs = []) = false := by simp
  have hend : decide (([] : List Stage) = []) = true := by simp
  rw [runTrail_cons, hmore] at htrail
  rw [runFrom_cons, hend] at hrun
  rw [runFrom_cons, hmore]
  simp only [List.mem_append] at htrail
  have hannounced : AlikeBut place none (announced host position total s p)
      (announced host position' total' s' (p.redirected ⟨.write, tmp⟩)) := h.announced hquiet rfl
  have hready := hspare.of_grown (grown_announced host position' total' s' _)
    (AgreeBut.found hannounced.files)
  have hgrown := grown_runStage host
    (announced host position' total' s' (p.redirected ⟨.write, tmp⟩))
    (p.redirected ⟨.write, tmp⟩) piped true
  cases hlast : (announced host position' total' s' (p.redirected ⟨.write, tmp⟩)).runStage host
      (p.redirected ⟨.write, tmp⟩) piped true with
  | mk done' answer' =>
    rw [hlast] at hrun hgrown
    cases answer' with
    | error stop => cases hrun
    | ok result' =>
      cases hrun
      obtain ⟨hnul, hrelayed⟩ := runStage_relay hquiet hannounced hready (hpath _) hout
        (fun x hx => htrail x (.inl hx)) hlast
      generalize (announced host position total s p).runStage host p piped false = r
        at htrail hrelayed ⊢
      cases hrelayed with
      | @intro done _ name status output hafter =>
        have hnoted : AlikeBut place (relayFile (output.getD []))
            (done.note host (.stage position total .completed p))
            (done'.note host (.stage position' total' .completed (p.redirected ⟨.write, tmp⟩))) :=
          hafter.note hquiet rfl rfl
        have hkept := hgrown.trans (grown_note host done'
          (.stage position' total' .completed (p.redirected ⟨.write, tmp⟩)))
        exact SameEnd.cons rfl rfl (SameEnd.of_sameAnswer
          (runFrom_fed hquiet hnoted hready hkept hnul hpath hin fun x hx => htrail x (.inr hx)))

/-- The stages before it do the same in both runs. -/
theorem runFrom_relay (hquiet : host.Quiet) {p q : Stage} {qs : List Stage}
    (hout : p.redirection? .stdout = none) (hin : q.redirection? .stdin = none)
    (hpath : ∀ u : Session, u.resolvePath tmp = path) {total total' total'' : Nat} (ps : List Stage)
    {position position' position'' : Nat} {piped : Option Bytes} (h : AlikeBut place none s s')
    (hspare : Spare s'.files path place)
    (htrail : ∀ x ∈ runTrail host total position s piped (ps ++ p :: q :: qs), x ≠ place)
    {s₁ : Session} {first : List StageResult}
    (hrun : runFrom host total' position' s' piped (ps ++ [p.redirected ⟨.write, tmp⟩]) =
      (s₁, .ok first)) :
    SameEnd place first (runFrom host total position s piped (ps ++ p :: q :: qs))
      (runFrom host total'' position'' s₁ none (q.redirected ⟨.read, tmp⟩ :: qs)) := by
  induction ps generalizing s s' position position' piped first with
  | nil =>
    rw [List.nil_append] at htrail hrun ⊢
    exact runFrom_pipe hquiet hout hin hpath h hspare htrail hrun
  | cons stage rest ih =>
    have hmore : decide (rest ++ p :: q :: qs = []) = false := by simp
    have hmore' : decide (rest ++ [p.redirected ⟨.write, tmp⟩] = []) = false := by simp
    rw [List.cons_append, runTrail_cons, hmore] at htrail
    rw [List.cons_append, runFrom_cons, hmore'] at hrun
    rw [List.cons_append, runFrom_cons, hmore]
    simp only [List.mem_append] at htrail
    have hannounced : AlikeBut place none (announced host position total s stage)
        (announced host position' total' s' stage) := h.announced hquiet rfl
    have hgrown := (grown_announced host position' total' s' stage).trans
      (grown_runStage host (announced host position' total' s' stage) stage piped false)
    obtain ⟨done, done', answer, hdone, hdone', hafter⟩ :=
      (runStage_alike hquiet hannounced fun x hx => htrail x (.inl hx)).exists
    rw [hdone] at htrail ⊢
    rw [hdone'] at hrun hgrown
    cases answer with
    | error stop => cases hrun
    | ok result =>
      have hnoted : AlikeBut place none (done.note host (.stage position total .completed stage))
          (done'.note host (.stage position' total' .completed stage)) :=
        hafter.note hquiet rfl rfl
      have hready := hspare.of_grown (hgrown.trans (grown_note host done' _))
        (AgreeBut.found hnoted.files)
      simp only at hrun
      split at hrun
      · cases hrun
      · next last results hrest =>
        cases hrun
        exact SameEnd.cons rfl rfl
          (ih hnoted hready (fun x hx => htrail x (.inr hx)) hrest)

/-- The places that a pipeline looks at for its redirections and changes of directory. -/
def pipelineTrail (host : Host) (s : Session) (pipeline : Pipeline) : List Place :=
  runTrail host pipeline.stages.length 1 s none pipeline.stages

/-! ## Records -/

/-- A run looks at what its stages look at. -/
theorem runTrail_eq_flatMap (host : Host) (total position : Nat) (s : Session) (piped : Option Bytes)
    (stages : List Stage) :
    runTrail host total position s piped stages =
      (arrivals host total position s piped stages).flatMap fun a => a.session.stageTrail host a.stage := by
  induction position, s, piped, stages using runFrom_induction host total with
  | nil => rfl
  | stopped position s piped stage rest done stop hrun =>
    have hstage : (announced host position total s stage).runStage host stage piped (rest = []) =
        (done, .error stop) := hrun
    rw [runTrail_cons, (runFrom_of_stopped hrun).2, hstage, List.flatMap_singleton, List.append_nil]
    rfl
  | passed position s piped stage rest done result hrun ih =>
    have hstage : (announced host position total s stage).runStage host stage piped (rest = []) =
        (done, .ok result) := hrun
    rw [runTrail_cons, (runFrom_of_passed hrun).2, hstage, List.flatMap_cons, ← ih]
    rfl

variable {host' : Host} {before before' : Bytes}

theorem Beside.lookupTrail (h : Beside host before before' s s') (path : String) :
    s'.lookupTrail path = s.lookupTrail path := by
  rw [Session.lookupTrail, Session.lookupTrail, h.processPlace, FileTree.trail_rewritten h.files]

theorem Beside.resolvePath (h : Beside host before before' s s') (path : String) :
    s'.resolvePath path = s.resolvePath path := by
  rw [Session.resolvePath, Session.resolvePath, h.directory]

theorem Beside.outputTrail (hmutes : host.Mutes host') (h : Beside host before before' s s')
    (stage : Stage) (stream : Stream) :
    s'.outputTrail host' stage stream = s.outputTrail host stage stream := by
  have hmade : ∀ path, (s.files.ensureParents host.nesting s.processPlace path).1.Rewritten host.Records
      (s'.files.ensureParents host.nesting s.processPlace path).1 :=
    fun path => (FileTree.ensureParents_rewritten h.files host.nesting s.processPlace path).2
  simp only [Session.outputTrail, h.processPlace, h.resolvePath, hmutes.nesting,
    FileTree.parentsTrail_rewritten h.files, FileTree.trail_rewritten (hmade _)]

theorem Beside.builtinTrail (hmutes : host.Mutes host') (h : Beside host before before' s s')
    (stage : Stage) : s'.builtinTrail host' stage = s.builtinTrail host stage := by
  obtain ⟨found, found', answer, hfound, hfound', hafter⟩ :=
    ((unseen_beside hmutes before before').findCommand h stage.name).exists
  simp only [Session.builtinTrail, hfound, hfound']
  cases answer with
  | error refusal => rfl
  | ok command =>
    cases command with
    | program path => rfl
    | unknown => rfl
    | builtin b =>
      cases b with
      | cd =>
        have hnoted : Beside host before before' (found.note host (.builtin Builtin.cd.name stage.args))
            (found'.note host' (.builtin Builtin.cd.name stage.args)) := hafter.note hmutes rfl rfl
        have htarget : (found'.note host' (.builtin Builtin.cd.name stage.args)).moveTarget stage.args =
            (found.note host (.builtin Builtin.cd.name stage.args)).moveTarget stage.args := by
          simp only [moveTarget, expandHome, home, hnoted.environment]
        simp only [performTrail, moveTrail, htarget, hnoted.resolvePath, hnoted.lookupTrail]
      | exit => rfl
      | echo => rfl
      | type => rfl
      | pwd => rfl

/-- What a stage looks at is no matter of records. -/
theorem Beside.stageTrail (hmutes : host.Mutes host') (h : Beside host before before' s s')
    {stage : Stage} (hclear : s.ReadsNoRecords host stage) :
    s'.stageTrail host' stage = s.stageTrail host stage := by
  have hinput : s'.inputTrail stage = s.inputTrail stage := by
    simp only [inputTrail, h.lookupTrail, h.resolvePath]
  have herrors := (h.openOutput hmutes stage .stdout).2.outputTrail hmutes stage .stderr
  obtain ⟨ready, ready', answer, hready, hready', hafter⟩ :=
    ((unseen_beside hmutes before before').openChannels h hclear).exists
  simp only [Session.stageTrail, channelsTrail, hinput, h.outputTrail hmutes, herrors, hready, hready']
  cases answer with
  | error stop => rfl
  | ok channels => simp only [hafter.builtinTrail hmutes]

/-- What a run looks at is no matter of records. -/
theorem flatMap_stageTrail (hmutes : host.Mutes host') {stops stops' : List Arrival}
    (h : List.Forall₂ (Arrival.Matches host host' (Recorded host before)) stops stops')
    (hclear : ∀ a ∈ stops, a.session.ReadsNoRecords host a.stage) :
    (stops'.flatMap fun a => a.session.stageTrail host' a.stage) =
      stops.flatMap fun a => a.session.stageTrail host a.stage :=
  flatMap_of_matches h fun a ha a' hmatches => by
    rw [hmatches.stage, hmatches.session.1.stageTrail hmutes (hclear a ha)]

/-! ## Pipes as relays -/

/-- On a host that records nothing a pipe is a relay. -/
theorem sameEnd_of_quiet (hquiet : host.Quiet) {s₁ : Session} {ps qs : List Stage} {p q : Stage}
    {first : List StageResult} (hout : p.redirection? .stdout = none)
    (hin : q.redirection? .stdin = none) (habsolute : Path.isAbsolute tmp = true)
    (hfree : s.files.locate .newFile s.processPlace (s.resolvePath tmp).text = .ok (.free place))
    (htakes : s.files.Takes place FileTree.newFileMode) (hreads : (s.files.grant place).reads = true)
    (haway : place ∉ s.pipelineTrail host ⟨ps ++ p :: q :: qs⟩)
    (hfirst : s.runPipeline host ⟨ps ++ [p.redirected ⟨.write, tmp⟩]⟩ = (s₁, .ok first)) :
    SameEnd place first (s.runPipeline host ⟨ps ++ p :: q :: qs⟩)
      (s₁.runPipeline host ⟨q.redirected ⟨.read, tmp⟩ :: qs⟩) := by
  have hpath : ∀ u : Session, u.resolvePath tmp = Path.normalise tmp :=
    fun u => Path.resolve_of_isAbsolute habsolute u.directory
  have hslashes := Path.slashes_normalise habsolute
  rw [hpath] at hfree
  have hvacant : s.files.Vacant (Path.normalise tmp) place := by
    refine ⟨hslashes, Path.proper_normalise tmp, ?_⟩
    rw [← hfree]
    refine FileTree.locate_of_isAbsolute ?_ [] s.processPlace
    rw [Path.text, if_neg (by simp [hslashes])]
    exact Path.isAbsolute_spell hslashes _
  have hsame : AlikeBut place none s s :=
    ⟨AgreeBut.of_none hvacant.find?_eq, rfl, rfl, rfl, rfl, rfl, rfl, rfl, rfl⟩
  have htrail : ∀ x ∈ s.pipelineTrail host ⟨ps ++ p :: q :: qs⟩, x ≠ place := by
    rintro x hx rfl
    exact haway hx
  exact runFrom_relay hquiet hout hin hpath ps hsame ⟨hvacant, htakes, hreads⟩ htrail hfirst

/-- What a run tells is told on a host without its records as well, and there it is all that the error
stream of the terminal receives. -/
theorem err_runPipeline_hushed {s' : Session} {stages : List Stage}
    (hmatches : List.Forall₂ (Arrival.Matches host host.hushed (Recorded host before))
      (s.reached host ⟨stages⟩) (s'.reached host.hushed ⟨stages⟩))
    (hclear : ∀ a ∈ s.reached host ⟨stages⟩, a.session.ReadsNoRecords host a.stage) :
    (s'.runPipeline host.hushed ⟨stages⟩).1.err =
      s'.err ++ (told host (s.reached host ⟨stages⟩)).flatten := by
  have htold := (unseen_recorded host.mutes_hushed before).told_of_matches hmatches hclear
  rw [← htold]
  exact (reports_runPipeline host.hushed s' stages).err host.quiet_hushed.not_showsRecords

/-- A pipe is a relay through a file. Let `tmp` be an absolute path that names a free place in a
directory that exists, let a file at that place take what is written to it and give it back, and let no
redirection and no change of directory in the line look at that place. If the first half of the line,
its output sent to `tmp`, runs to its end, then the second half, its input taken from `tmp`, continues
as the whole line does: with the same stages or the same stop, and with sessions that are the same in
all but the journal and what is at that place. The records of a stage tell its number and its
redirections, so the file that they go to, which no stage is to read, is another one in the end. Where
they go to the error stream, it receives the same text between them. -/
theorem pipe_eq_relay (s s₁ : Session) (ps qs : List Stage) (p q : Stage)
    (tmp : String) (place : Place) (first : List StageResult)
    (hout : p.redirection? .stdout = none) (hin : q.redirection? .stdin = none)
    (habsolute : Path.isAbsolute tmp = true)
    (hfree : s.files.locate .newFile s.processPlace (s.resolvePath tmp).text = .ok (.free place))
    (htakes : s.files.Takes place FileTree.newFileMode) (hreads : (s.files.grant place).reads = true)
    (haway : place ∉ s.pipelineTrail host ⟨ps ++ p :: q :: qs⟩)
    (hfirst : s.runPipeline host ⟨ps ++ [p.redirected ⟨.write, tmp⟩]⟩ = (s₁, .ok first))
    (hclear : ∀ a ∈ s.reached host ⟨ps ++ p :: q :: qs⟩, a.session.ReadsNoRecords host a.stage)
    (hclear₁ : ∀ a ∈ s.reached host ⟨ps ++ [p.redirected ⟨.write, tmp⟩]⟩,
      a.session.ReadsNoRecords host a.stage)
    (hclear₂ : ∀ a ∈ s₁.reached host ⟨q.redirected ⟨.read, tmp⟩ :: qs⟩,
      a.session.ReadsNoRecords host a.stage) :
    let piped := s.runPipeline host ⟨ps ++ p :: q :: qs⟩
    let relayed := s₁.runPipeline host ⟨q.redirected ⟨.read, tmp⟩ :: qs⟩
    piped.2.map reported = relayed.2.map (fun results => reported (first ++ results)) ∧
      relayed.1.out = piped.1.out ∧
      (∃ texts texts', Reports host s texts piped.1 ∧ Reports host s texts' relayed.1 ∧
        texts'.flatten = texts.flatten) ∧
      (¬host.ShowsRecords → relayed.1.err = piped.1.err) ∧
      relayed.1.directory = piped.1.directory ∧ relayed.1.processPlace = piped.1.processPlace ∧
      relayed.1.environment = piped.1.environment ∧ relayed.1.input = piped.1.input ∧
      relayed.1.tally = piped.1.tally ∧
      ∀ x, x ≠ place → ¬host.Records x → relayed.1.files.find? x = piped.1.files.find? x := by
  intro piped relayed
  have hmutes := host.mutes_hushed
  have hstep := (unseen_recorded hmutes s.err).inStep
  -- the three runs again, on a host that keeps the records back
  obtain ⟨hpiped, hmatches⟩ := hstep.runFrom (.refl s) (ps ++ p :: q :: qs).length 1 none _ hclear
  obtain ⟨hhalf, hmatches₁⟩ := hstep.runFrom (.refl s) (ps ++ [p.redirected ⟨.write, tmp⟩]).length 1
    none _ hclear₁
  obtain ⟨s₁', hfirst', hs₁⟩ := hhalf.of_eq hfirst
  obtain ⟨hrelayed, hmatches₂⟩ := hstep.runFrom hs₁ (q.redirected ⟨.read, tmp⟩ :: qs).length 1 none _
    hclear₂
  have haway' : place ∉ s.pipelineTrail host.hushed ⟨ps ++ p :: q :: qs⟩ := by
    unfold pipelineTrail at haway ⊢
    rw [runTrail_eq_flatMap] at haway ⊢
    rw [flatMap_stageTrail hmutes hmatches hclear]
    exact haway
  obtain ⟨hanswer, object, halike⟩ := sameEnd_of_quiet host.quiet_hushed hout hin habsolute hfree htakes
    hreads haway' hfirst'
  obtain ⟨hpipedAnswer, hpipedEnd, hpipedTally⟩ := hpiped
  obtain ⟨hrelayedAnswer, hrelayedEnd, hrelayedTally⟩ := hrelayed
  have hreports := reports_runPipeline host s (ps ++ p :: q :: qs)
  have hreports₁ := reports_runPipeline host s (ps ++ [p.redirected ⟨.write, tmp⟩])
  rw [hfirst] at hreports₁
  have hreports₂ := hreports₁.trans
    (reports_runPipeline host s₁ (q.redirected ⟨.read, tmp⟩ :: qs))
  -- what is told is what the error stream receives where no records are
  have htold : (told host (s.reached host ⟨ps ++ [p.redirected ⟨.write, tmp⟩]⟩) ++
        told host (s₁.reached host ⟨q.redirected ⟨.read, tmp⟩ :: qs⟩)).flatten =
      (told host (s.reached host ⟨ps ++ p :: q :: qs⟩)).flatten := by
    have herr := err_runPipeline_hushed hmatches hclear
    have herr₁ := err_runPipeline_hushed hmatches₁ hclear₁
    have herr₂ := err_runPipeline_hushed hmatches₂ hclear₂
    rw [show (s.runPipeline host.hushed _).1 = s₁' from congrArg Prod.fst hfirst'] at herr₁
    rw [herr₁, List.append_assoc, ← List.flatten_append] at herr₂
    exact List.append_cancel_left (herr₂.symm.trans (halike.err.trans herr))
  refine ⟨?_, ?_, ⟨_, _, hreports, hreports₂, htold⟩, ?_, ?_, ?_, ?_, ?_, ?_, ?_⟩
  · rw [show piped.2 = _ from hpipedAnswer.symm, show relayed.2 = _ from hrelayedAnswer.symm]
    exact hanswer
  · exact hrelayedEnd.out.symm.trans (halike.out.trans hpipedEnd.out)
  · intro hshows
    exact (hreports₂.err hshows).trans ((congrArg (s.err ++ ·) htold).trans (hreports.err hshows).symm)
  · exact hrelayedEnd.directory.symm.trans (halike.directory.trans hpipedEnd.directory)
  · exact hrelayedEnd.processPlace.symm.trans (halike.processPlace.trans hpipedEnd.processPlace)
  · exact hrelayedEnd.environment.symm.trans (halike.environment.trans hpipedEnd.environment)
  · exact hrelayedEnd.input.symm.trans (halike.input.trans hpipedEnd.input)
  · exact hrelayedTally.symm.trans (halike.tally.trans hpipedTally)
  · intro x hx hrecords
    have hsame := halike.files.inside x hx
    exact (hrelayedEnd.files.outside x hrecords).symm.trans
      (hsame.trans (hpipedEnd.files.outside x hrecords))

/-- `echo a | /upper`, and its halves by way of `/t`. -/
theorem pipe_eq_relay_echo_upper :
    let first := Small.session.runPipeline Small.host ⟨[Small.echo.redirected ⟨.write, "/t"⟩]⟩
    let piped := Small.session.runPipeline Small.host ⟨[Small.echo, Small.upper]⟩
    let relayed := first.1.runPipeline Small.host ⟨[Small.upper.redirected ⟨.read, "/t"⟩]⟩
    piped.1.out = [65, 10] ∧ relayed.1.out = piped.1.out ∧
      piped.2.map reported =
        relayed.2.map (fun results => reported ([⟨"echo", 0, none⟩] ++ results)) := by
  have hstatus : (Small.session.runPipeline Small.host
      ⟨[Small.echo.redirected ⟨.write, "/t"⟩]⟩).2 = .ok [⟨"echo", 0, none⟩] := rfl
  have haway : ["t"] ∉ Small.session.pipelineTrail Small.host ⟨[Small.echo, Small.upper]⟩ := by
    decide +kernel
  have hout : (Small.session.runPipeline Small.host ⟨[Small.echo, Small.upper]⟩).1.out =
      [65, 10] := by
    decide +kernel
  intro first piped relayed
  have hfirst : first = (first.1, .ok [⟨"echo", 0, none⟩]) :=
    (Prod.eta first).symm.trans (congrArg (Prod.mk first.1) hstatus)
  have hquiet : Small.host.Quiet := trivial
  have hclear : ∀ (u : Session) (stage : Stage), u.ReadsNoRecords Small.host stage :=
    fun u stage r _ place entry _ => hquiet.not_records place
  have hrelay := pipe_eq_relay Small.session first.1 [] [] Small.echo Small.upper "/t" ["t"]
    [⟨"echo", 0, none⟩] rfl rfl rfl rfl ⟨rfl, rfl⟩ rfl haway hfirst (fun a _ => hclear _ _)
    (fun a _ => hclear _ _) (fun a _ => hclear _ _)
  exact ⟨hout, hrelay.2.1, hrelay.1⟩

end Session

namespace Small

/-- Two stages without words, joined by a pipe. -/
def piped (host : Host) : Session :=
  (lone.runPipeline host ⟨[⟨[], [], []⟩, ⟨[], [], []⟩]⟩).1

/-- The first of them alone, with `/t` as its output. -/
def firstHalf (host : Host) : Session :=
  (lone.runPipeline host ⟨[⟨[], [⟨.write, "/t"⟩], []⟩]⟩).1

/-- The second of them, with `/t` as its input. -/
def secondHalf (host : Host) (s : Session) : Session :=
  (s.runPipeline host ⟨[⟨[], [⟨.read, "/t"⟩], []⟩]⟩).1

theorem firstHalf_showingHost :
    firstHalf showingHost = { firstHalf showingHost with
      files := ⟨[(["in"], .file [] 0o644), (["t"], .file [] 0o644)], []⟩ } := by
  have hfiles : (firstHalf showingHost).files =
      ⟨[(["in"], .file [] 0o644), (["t"], .file [] 0o644)], []⟩ := by
    decide +kernel
  rw [← hfiles]

theorem records_secondHalf_ne :
    (secondHalf recordingHost (firstHalf recordingHost)).files.find? ["in"] ≠
      (piped recordingHost).files.find? ["in"] := by
  decide +kernel

theorem err_secondHalf_ne :
    (secondHalf showingHost (firstHalf showingHost)).err ≠
      (piped showingHost).err := by
  rw [firstHalf_showingHost]
  decide +kernel

end Small

namespace Session

/-- The records of the halves are others than those of the pipeline: the file that they go to is another
one in the end, and so is the error stream where they are shown. -/
theorem pipe_ne_relay_records :
    Small.lone.files.locate .newFile [] "/t" = .ok (.free ["t"]) ∧
      ["t"] ∉ Small.lone.pipelineTrail Small.recordingHost ⟨[⟨[], [], []⟩, ⟨[], [], []⟩]⟩ ∧
      (Small.secondHalf Small.recordingHost (Small.firstHalf Small.recordingHost)).files.find? ["in"] ≠
        (Small.piped Small.recordingHost).files.find? ["in"] ∧
      (Small.secondHalf Small.showingHost (Small.firstHalf Small.showingHost)).err ≠
        (Small.piped Small.showingHost).err :=
  ⟨rfl, by decide +kernel, Small.records_secondHalf_ne, Small.err_secondHalf_ne⟩

end Session

end PipelineShell
