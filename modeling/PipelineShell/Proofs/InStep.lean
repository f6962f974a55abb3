import PipelineShell.Proofs.Progress

/-!
# Runs in step

Two runs of the same stages can be in different sessions, and on different hosts. They go the same way if
no operation of a run tells the two apart. `InStep` says so operation by operation, down to what a stage
does with a program, and then whole runs are in step (`InStep.runFrom`, `InStep.execute`).
-/

namespace PipelineShell

/-- Two runs have come to the same stage, in sessions that are related by `R`, and it goes the same
way. -/
structure Arrival.Matches (host host' : Host) (R : Session → Session → Prop) (a a' : Arrival) :
    Prop where
  session : R a.session a'.session
  stage : a'.stage = a.stage
  piped : a'.piped = a.piped
  last : a'.last = a.last
  run : (a'.run host').2 = (a.run host).2

namespace Session

variable {host host' : Host} {Clear : Session → Stage → Prop} {R : Session → Session → Prop}
  {s s' : Session}

/-- What is not ended by a write to a file, nor by one to the error stream of the terminal, is not ended
by the errors of a stage. -/
theorem deliverError_related
    (hwrite : ∀ handle bytes, R (s.writeFile handle bytes) (s'.writeFile handle bytes))
    (hprint : ∀ text, R (s.printError text) (s'.printError text)) (channels : Channels) (text : Bytes) :
    R (s.deliverError channels text) (s'.deliverError channels text) := by
  unfold Session.deliverError
  split
  · exact hwrite _ text
  · exact hprint text

/-- Sessions that are related by `R` look the same to a run on either host, and stay related. The
redirections of a stage are opened only if the stage is `Clear`. -/
structure InStep (host host' : Host) (Clear : Session → Stage → Prop)
    (R : Session → Session → Prop) : Prop
    extends Transparent host host' R where
  grants : ∀ {s s'}, R s s' → s'.files.grants = s.files.grants
  changeDirectory : ∀ {s s'}, R s s' → ∀ path,
    SameAnswer R (s.changeDirectory host path) (s'.changeDirectory host' path)
  openChannels : ∀ {s s'}, R s s' → ∀ {stage}, Clear s stage →
    SameAnswer R (s.openChannels host stage) (s'.openChannels host' stage)
  print : ∀ {s s'}, R s s' → ∀ text, R (s.print text) (s'.print text)
  printError : ∀ {s s'}, R s s' → ∀ text, R (s.printError text) (s'.printError text)
  writeFile : ∀ {s s'}, R s s' → ∀ handle bytes,
    R (s.writeFile handle bytes) (s'.writeFile handle bytes)
  runProgram : ∀ {s s'}, R s s' → ∀ stage path input channels last,
    SameAnswer R (s.runProgram host stage path input channels last)
      (s'.runProgram host' stage path input channels last)

namespace InStep

/-! ## Builtins -/

theorem enter (hR : InStep host host' Clear R) (h : R s s') (path : String) :
    SameAnswer R (s.enter host path) (s'.enter host' path) := by
  unfold Session.enter
  split
  · exact ⟨rfl, h⟩
  · obtain ⟨moved, moved', answer, hdone, hdone', hafter⟩ := (hR.changeDirectory h path).exists
    rw [hdone, hdone']
    cases answer with
    | some e => exact ⟨rfl, hafter⟩
    | none =>
      simp only [hR.directory hafter]
      exact ⟨rfl, hR.note hafter _ rfl⟩

theorem moveTo (hR : InStep host host' Clear R) (h : R s s') (args : List String) :
    SameAnswer R (s.moveTo host args) (s'.moveTo host' args) := by
  have htarget : s'.moveTarget args = s.moveTarget args := by
    unfold moveTarget expandHome home
    rw [hR.environment h]
  match args with
  | [] =>
    rw [moveTo_eq host s (by simp), moveTo_eq host' s' (by simp), htarget]
    exact hR.enter h _
  | [arg] =>
    rw [moveTo_eq host s (by simp), moveTo_eq host' s' (by simp), htarget]
    exact hR.enter h _
  | _ :: _ :: _ => exact ⟨rfl, h⟩

theorem describeAll (hR : InStep host host' Clear R) (h : R s s') (names : List String) :
    SameAnswer R (s.describeAll host names) (s'.describeAll host' names) := by
  induction names generalizing s s' with
  | nil => exact ⟨rfl, h⟩
  | cons name rest ih =>
    obtain ⟨found, found', answer, hfound, hfound', hafter⟩ :=
      (hR.findCommand h name).exists
    simp only [Session.describeAll, hfound, hfound']
    cases answer with
    | error r => exact ⟨rfl, hafter⟩
    | ok command =>
      obtain ⟨hanswer, hlast⟩ := ih hafter
      refine ⟨?_, hlast⟩
      simp only [hanswer]

theorem perform (hR : InStep host host' Clear R) (h : R s s') (b : Builtin) (args : List String) :
    SameAnswer R (s.perform host b args) (s'.perform host' b args) := by
  have hnoted := hR.note h (.builtin b.name args) rfl
  cases b with
  | exit => exact ⟨rfl, hnoted⟩
  | echo => exact ⟨rfl, hnoted⟩
  | type => exact hR.describeAll hnoted args
  | pwd =>
    refine ⟨?_, hnoted⟩
    simp only [Session.perform, hR.directory hnoted]
  | cd => exact hR.moveTo hnoted args

/-! ## Stages -/

theorem deliverError (hR : InStep host host' Clear R) (h : R s s') (channels : Channels)
    (text : Bytes) : R (s.deliverError channels text) (s'.deliverError channels text) :=
  deliverError_related (hR.writeFile h) (hR.printError h) channels text

theorem deliverOutput (hR : InStep host host' Clear R) (h : R s s') (channels : Channels)
    (last : Bool) (text : Bytes) :
    SameAnswer R (s.deliverOutput channels last text) (s'.deliverOutput channels last text) := by
  unfold Session.deliverOutput
  split
  · exact ⟨rfl, hR.writeFile h _ text⟩
  · split
    · exact ⟨rfl, hR.print h text⟩
    · exact ⟨rfl, h⟩

theorem runBuiltin (hR : InStep host host' Clear R) (h : R s s') (stage : Stage) (b : Builtin)
    (channels : Channels) (last : Bool) :
    SameAnswer R (s.runBuiltin host stage b channels last)
      (s'.runBuiltin host' stage b channels last) := by
  obtain ⟨done, done', reply, hdone, hdone', hafter⟩ := (hR.perform h b stage.args).exists
  have herror := hR.deliverError hafter channels (Text.encode reply.err)
  obtain ⟨hanswer, houtput⟩ := hR.deliverOutput herror channels last (Text.encode reply.out)
  simp only [Session.runBuiltin, hdone, hdone']
  refine ⟨?_, houtput⟩
  simp only [hanswer, channels.fault?_congr (hR.grants hafter)]

theorem giveUp (hR : InStep host host' Clear R) (h : R s s') (stage : Stage) (channels : Channels)
    (status : Int) :
    SameAnswer R (s.giveUp stage channels status) (s'.giveUp stage channels status) := by
  refine ⟨?_, hR.deliverError h channels _⟩
  simp only [Session.giveUp, channels.fault?_congr (hR.grants h)]

theorem runCommand (hR : InStep host host' Clear R) (h : R s s') (stage : Stage)
    (piped : Option Bytes) (channels : Channels) (last : Bool) :
    SameAnswer R (s.runCommand host stage piped channels last)
      (s'.runCommand host' stage piped channels last) := by
  unfold Session.runCommand
  split
  · exact ⟨rfl, h⟩
  · obtain ⟨found, found', answer, hfound, hfound', hafter⟩ :=
      (hR.findCommand h stage.name).exists
    rw [hfound, hfound']
    cases answer with
    | error r => exact ⟨rfl, hafter⟩
    | ok command =>
      cases command with
      | builtin b => exact hR.runBuiltin hafter stage b channels last
      | unknown => exact hR.giveUp hafter stage channels _
      | program path => exact hR.runProgram hafter stage path _ channels last

theorem runStage (hR : InStep host host' Clear R) (h : R s s') {stage : Stage}
    (hclear : Clear s stage) (piped : Option Bytes) (last : Bool) :
    SameAnswer R (s.runStage host stage piped last) (s'.runStage host' stage piped last) := by
  obtain ⟨ready, ready', answer, hready, hready', hafter⟩ := (hR.openChannels h hclear).exists
  simp only [Session.runStage, hready, hready']
  cases answer with
  | error stop => exact ⟨rfl, hafter⟩
  | ok channels => exact hR.runCommand hafter stage piped channels last

/-! ## Runs -/

theorem announced (hR : InStep host host' Clear R) (h : R s s') (position total : Nat)
    (stage : Stage) :
    R (announced host position total s stage) (announced host' position total s' stage) := by
  unfold Session.announced
  rw [foldl_report, foldl_report]
  exact hR.note (hR.printError (hR.note h _ rfl) _) _ rfl

/-- Two runs go the same way, and come to the same stages, if the stages of one are clear. -/
theorem runFrom (hR : InStep host host' Clear R) (h : R s s') (total position : Nat)
    (piped : Option Bytes) (stages : List Stage)
    (hclear : ∀ a ∈ arrivals host total position s piped stages, Clear a.session a.stage) :
    SameAnswer R (runFrom host total position s piped stages)
        (runFrom host' total position s' piped stages) ∧
      List.Forall₂ (Arrival.Matches host host' R) (arrivals host total position s piped stages)
        (arrivals host' total position s' piped stages) := by
  induction position, s, piped, stages using runFrom_induction host total generalizing s' with
  | nil => exact ⟨⟨rfl, h⟩, .nil⟩
  | stopped position s piped stage rest done stop hrun =>
    obtain ⟨hruns, harrivals⟩ := runFrom_of_stopped hrun
    rw [harrivals] at hclear
    have hhere := hR.announced h position total stage
    have hstage := hR.runStage hhere (hclear _ List.mem_cons_self) piped (rest = [])
    obtain ⟨done', hrun', hafter⟩ := hstage.of_eq hrun
    obtain ⟨hruns', harrivals'⟩ := runFrom_of_stopped hrun'
    rw [hruns, hruns', harrivals, harrivals']
    exact ⟨⟨rfl, hafter⟩, .cons ⟨hhere, rfl, rfl, rfl, hstage.1⟩ .nil⟩
  | passed position s piped stage rest done result hrun ih =>
    obtain ⟨hruns, harrivals⟩ := runFrom_of_passed hrun
    rw [harrivals] at hclear
    have hhere := hR.announced h position total stage
    have hstage := hR.runStage hhere (hclear _ List.mem_cons_self) piped (rest = [])
    obtain ⟨done', hrun', hafter⟩ := hstage.of_eq hrun
    obtain ⟨hruns', harrivals'⟩ := runFrom_of_passed hrun'
    obtain ⟨⟨hanswer, hend⟩, hmatches⟩ :=
      ih (hR.note hafter _ rfl) fun a ha => hclear a (List.mem_cons_of_mem _ ha)
    rw [hruns, hruns', harrivals, harrivals']
    exact ⟨⟨congrArg (Except.map (result :: ·)) hanswer, hend⟩,
      .cons ⟨hhere, rfl, rfl, rfl, hstage.1⟩ hmatches⟩

/-! ## Lines -/

variable {line : String}

theorem runLine (hR : InStep host host' Clear R) (h : R s s')
    (hclear : ∀ a ∈ s.lineArrivals host line, Clear a.session a.stage) :
    SameAnswer R (s.runLine host line) (s'.runLine host' line) ∧
      List.Forall₂ (Arrival.Matches host host' R) (s.lineArrivals host line)
        (s'.lineArrivals host' line) :=
  hR.runFrom (hR.noteAll h (readingEvents_level line)) _ 1 none _ hclear

/-- Lines whose stages go the same way do so themselves. -/
theorem concluded (hR : InStep host host' Clear R) {line' : String}
    (h : SameAnswer R (s.runLine host line) (s'.runLine host' line')) :
    SameAnswer R (s.execute host line) (s'.execute host' line') := by
  obtain ⟨done, done', answer, hdone, hdone', hafter⟩ := h.exists
  rw [execute_eq, execute_eq, hdone, hdone']
  cases answer with
  | ok results => exact ⟨rfl, hafter⟩
  | error stop =>
    cases stop with
    | leave code => exact ⟨rfl, hafter⟩
    | unwritten e => exact ⟨rfl, hafter⟩
    | refused r => exact ⟨rfl, hafter⟩
    | badRedirection command target e => exact ⟨rfl, hR.printError (hR.note hafter _ rfl) _⟩

/-- Two lines go the same way, if the stages that one comes to are clear. -/
theorem execute (hR : InStep host host' Clear R) (h : R s s')
    (hclear : ∀ a ∈ s.lineArrivals host line, Clear a.session a.stage) :
    SameAnswer R (s.execute host line) (s'.execute host' line) :=
  hR.concluded (hR.runLine h hclear).1

end InStep

/-- Runs that are in step agree in what they agree in stage by stage. -/
theorem map_of_matches {α : Type} {R : Session → Session → Prop} {f g : Arrival → α}
    {reached reached' : List Arrival} (h : List.Forall₂ (Arrival.Matches host host' R) reached reached')
    (hagree : ∀ a ∈ reached, ∀ a', a.Matches host host' R a' → g a' = f a) :
    reached'.map g = reached.map f := by
  induction h with
  | nil => rfl
  | cons hmatches _ ih =>
    obtain ⟨hfirst, hrest⟩ := List.forall_mem_cons.1 hagree
    rw [List.map_cons, List.map_cons, hfirst _ hmatches, ih hrest]

theorem flatMap_of_matches {α : Type} {R : Session → Session → Prop} {f g : Arrival → List α}
    {reached reached' : List Arrival} (h : List.Forall₂ (Arrival.Matches host host' R) reached reached')
    (hagree : ∀ a ∈ reached, ∀ a', a.Matches host host' R a' → g a' = f a) :
    reached'.flatMap g = reached.flatMap f := by
  rw [List.flatMap_def, List.flatMap_def, map_of_matches h hagree]

end Session

end PipelineShell
