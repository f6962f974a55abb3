import PipelineShell.Proofs.Composition
import PipelineShell.Proofs.Rewording
import PipelineShell.Proofs.Utf8

/-!
# Programs that copy

What a stage writes is shown on the terminal if the stage is the last one, and goes into a pipe if it is
not. The two ways carry the same text: if a program that copies its input stands after the last stage, it
shows what the stage would have shown (`handed_runStage`), and between two stages it hands on what it is
given (`runStage_copier`).
-/

namespace PipelineShell

/-- A program writes what it reads, and nothing else. Its status may be any. -/
def Copies (program : Bytes → Performance) : Prop :=
  ∀ input, (program input).written .out = input ∧ (program input).written .err = []

/-- A stage has no redirections, and nothing is wrong with its words. -/
structure Stage.Plain (stage : Stage) : Prop where
  redirections : stage.redirections = []
  diagnostics : stage.diagnostics = []

theorem Stage.Plain.redirection? {stage : Stage} (h : stage.Plain) (stream : Stream) :
    stage.redirection? stream = none := by
  rw [Stage.redirection?, h.redirections]
  rfl

namespace Session

variable {host : Host} {before before' : Bytes} {s s' u : Session} {stage copier : Stage}
  {program : Bytes → Performance}

-- ---------------------------------------------------------------------------
-- Sessions
-- ---------------------------------------------------------------------------

theorem note_print (host : Host) (s : Session) (text : Bytes) (event : Event) :
    (s.print text).note host event = (s.note host event).print text := by
  unfold note
  split
  · rfl
  · split <;> rfl
  · split <;> rfl

/-- A session that is the same as the second one is beside the first one, too. -/
theorem Beside.followed (h : Beside host before before u s) (h' : Beside host s.err s.err s s') :
    Beside host before before u s' := by
  refine h.trans { h' with err := fun hshows => ?_ }
  obtain ⟨text, -, herr⟩ := h.err hshows
  obtain ⟨added, hsame, herr'⟩ := h'.err hshows
  exact ⟨text, herr, by rw [herr', ← hsame, herr]⟩

theorem Beside.sameWorld (h : Beside host before before' s s') : SameWorld host s s' :=
  ⟨h.files, h.directory, h.processPlace, h.environment⟩

-- ---------------------------------------------------------------------------
-- The stage that copies
-- ---------------------------------------------------------------------------

theorem openChannels_plain (h : stage.Plain) (host : Host) (s : Session) :
    s.openChannels host stage = (s, .ok ⟨none, none, none⟩) := by
  simp only [openChannels, readInput, openOutput, h.redirection?]

/-- What a stage without redirections starts it starts everywhere in the same world. -/
theorem Starts.of_sameWorld (hstarts : s.Starts host stage program) (hplain : stage.Plain)
    (h : SameWorld host s s') : s'.Starts host stage program := by
  obtain ⟨ready, channels, path, found, hopen, hcommand, hfound, hprogram⟩ := hstarts
  rw [openChannels_plain hplain] at hopen
  cases hopen
  refine ⟨s', _, path, found, openChannels_plain hplain host s', ?_, ?_, ?_⟩
  · rw [((transparent_sameWorld host).findCommand h stage.name).1, hcommand]
  · rw [orderOf_sameWorld h, started_sameWorld h, hfound]
  · intro input
    rw [hprogram, h.environment]

/-- A program that is fed by one pipe and writes to others changes nothing itself. -/
theorem carryOut_pipes {order : Order} {bytes : Bytes} (hfeed : order.feed = .bytes bytes)
    (hout : order.out = .pipe) (herr : order.err = .pipe) (s : Session) (p : Performance) :
    s.carryOut order p = s := by
  simp [carryOut, hfeed, hout, herr, Outlet.handle?, FileTree.carry_none]

/-- A stage that copies what it is given shows that, or hands it on, and does nothing else. -/
theorem runStage_copier (hshares : host.sharesTerminal = false) (hplain : copier.Plain)
    (hcopies : Copies program) (hstarts : s.Starts host copier program) (bytes : Bytes)
    (last : Bool) :
    ∃ done, s.runStage host copier (some bytes) last =
        (done.print (if last then copied bytes else []),
          .ok ⟨copier.name, (program bytes).status, if last then none else some bytes⟩) ∧
      Beside host s.err s.err s done := by
  obtain ⟨ready, channels, path, found, hopen, hcommand, hfound, hprogram⟩ := hstarts
  rw [openChannels_plain hplain] at hopen
  cases hopen
  have hargv := ne_nil_of_findCommand hcommand
  obtain ⟨events, hnotes, hlevel⟩ := findCommand_notes host s copier.name
  have hlooked : Beside host s.err s.err s (s.findCommand host copier.name).1 := by
    rw [hnotes]
    exact ((Beside.refl s).notedAll hlevel).symm
  cases hfind : s.findCommand host copier.name with
  | mk looked answer =>
    rw [hfind] at hlooked hcommand
    obtain rfl : answer = .ok (.program path) := hcommand
    have horder := (unseen_beside (.refl host) s.err s.err).orderOf hlooked copier path (some bytes)
      ⟨none, none, none⟩ last
    rw [started_orderOf host s copier path none (some bytes) ⟨none, none, none⟩ true last] at hfound
    have hfeed : (s.orderOf host copier path (some bytes) ⟨none, none, none⟩ last).feed = .bytes bytes :=
      rfl
    have hout := orderOf_out_eq host s copier path (some bytes) ⟨none, none, none⟩ last
    have herr := orderOf_err_eq host s copier path (some bytes) ⟨none, none, none⟩ last
    have henvironment :
        (s.orderOf host copier path (some bytes) ⟨none, none, none⟩ last).environment = s.environment :=
      rfl
    simp only [hshares, Bool.and_false, Bool.false_eq_true, if_false, Option.map_none,
      Option.getD_none] at hout herr
    generalize s.orderOf host copier path (some bytes) ⟨none, none, none⟩ last = order
      at horder hfound hfeed hout herr henvironment
    have hcounted : Beside host s.err s.err s (looked.flush.counted host order) :=
      ((hlooked.symm.flushed.tallied _).noted (.refl host) rfl).symm
    have hstarted := ((unseen_beside (.refl host) s.err s.err).started hcounted order).trans hfound
    have hperformance : (looked.flush.counted host order).performance order found = program bytes := by
      rw [performance, hfeed, henvironment, hprogram]
      rfl
    have hfinished : Beside host s.err s.err s
        ((looked.flush.counted host order).finished host order (program bytes)) := by
      rw [finished, carryOut_pipes hfeed hout herr]
      exact ((hcounted.symm.tallied _).notedAll (ended_level order _)).symm
    obtain ⟨hcopy, hquiet⟩ := hcopies bytes
    refine ⟨_, ?_, hfinished⟩
    simp only [runStage, openChannels_plain hplain, runCommand, if_neg hargv, hfind, Option.none_or]
    rw [runProgram_of_started horder hstarted]
    simp only [hperformance, hout, herr, Outlet.captured, if_true, hcopy, hquiet, Option.getD_some,
      copied_nil, printError_nil]

-- ---------------------------------------------------------------------------
-- The stage before it
-- ---------------------------------------------------------------------------

/-- A stage that is run before others, and the same stage run as the last one. -/
inductive HandedOn : Session × Except Stop StageResult → Session × Except Stop StageResult → Prop
  /-- What is in the pipe is shown in the other case. -/
  | passed (s : Session) (result : StageResult) :
    HandedOn (s, .ok result)
      (s.print (copied (result.output.getD [])), .ok { result with output := none })
  | stopped (s : Session) (stop : Stop) : HandedOn (s, .error stop) (s, .error stop)
  /-- What is written before something is refused, or does not arrive, is shown by the last stage only. -/
  | cut (s : Session) (text : Bytes) {stop : Stop} (hstop : ¬stop.Regular) :
    HandedOn (s, .error stop) (s.print text, .error stop)

/-- A stage that leaves nothing in its pipe. -/
theorem HandedOn.empty (s : Session) (name : String) (status : Int) :
    HandedOn (s, .ok ⟨name, status, none⟩) (s, .ok ⟨name, status, none⟩) := by
  have hhanded := HandedOn.passed s ⟨name, status, none⟩
  rw [Option.getD_none, copied_nil, print_nil] at hhanded
  exact hhanded

/-- A stage that leaves nothing in its pipe, or is stopped as its files are closed. -/
theorem HandedOn.closed (s : Session) (name : String) (status : Int) (fault : Option SystemError) :
    HandedOn (s, Session.closed (.ok ⟨name, status, none⟩) fault)
      (s, Session.closed (.ok ⟨name, status, none⟩) fault) := by
  cases fault with
  | none => exact .empty s name status
  | some e => exact .stopped s _

theorem handed_runBuiltin (host : Host) (s : Session) (stage : Stage) (b : Builtin)
    (channels : Channels) :
    HandedOn (s.runBuiltin host stage b channels false) (s.runBuiltin host stage b channels true) := by
  have hstops : ∀ stop, (s.perform host b stage.args).2.ending = .error stop → _ :=
    fun stop h => perform_stops h
  unfold runBuiltin
  generalize s.perform host b stage.args = r at hstops ⊢
  obtain ⟨done, reply⟩ := r
  simp only at hstops ⊢
  generalize done.deliverError channels (Text.encode reply.err) = reported
  generalize channels.fault? done.files _ _ = fault
  unfold deliverOutput
  cases channels.out with
  | some handle =>
    cases reply.ending with
    | error stop =>
      cases fault with
      | none => exact .stopped _ stop
      | some e => exact .stopped _ _
    | ok status => exact .closed _ stage.name status fault
  | none =>
    cases fault with
    | some e => exact .cut reported _ not_false
    | none =>
      cases hending : reply.ending with
      | ok status =>
        have hhanded := HandedOn.passed reported ⟨stage.name, status, some (Text.encode reply.out)⟩
        rw [Option.getD_some, copied_of_encoded ⟨reply.out, rfl⟩] at hhanded
        exact hhanded
      | error stop =>
        rcases hstops stop hending with ⟨-, refusal, rfl⟩ | ⟨code, -, rfl, hout⟩
        · exact .cut reported _ not_false
        · have hnothing : Text.encode reply.out = [] := by
            rw [hout]
            rfl
          simp only [hnothing, if_true, print_nil]
          exact .stopped _ _

theorem handed_runProgram (hshares : host.sharesTerminal = false) (s : Session) (stage : Stage)
    (path : String) (input : Option Bytes) (channels : Channels) :
    HandedOn (s.runProgram host stage path input channels false)
      (s.runProgram host stage path input channels true) := by
  have horder : s.orderOf host stage path input channels true =
      s.orderOf host stage path input channels false := by
    simp only [orderOf, hshares, Bool.and_false]
  unfold runProgram
  rw [horder]
  generalize s.flush.launch host (s.orderOf host stage path input channels false) = r
  obtain ⟨done, answer⟩ := r
  cases answer with
  | error failure =>
    cases failure with
    | refused refusal => exact .stopped _ _
    | system e about => exact .closed _ _ _ _
  | ok outcome =>
    simp only
    cases outcome.out with
    | none => exact .empty _ _ _
    | some bytes => exact .passed _ ⟨stage.name, outcome.status, some bytes⟩

/-- A stage does the same before others and as the last one, but for what becomes of its output. -/
theorem handed_runStage (hshares : host.sharesTerminal = false) (s : Session) (stage : Stage)
    (piped : Option Bytes) :
    HandedOn (s.runStage host stage piped false) (s.runStage host stage piped true) := by
  unfold runStage
  generalize s.openChannels host stage = r
  obtain ⟨ready, answer⟩ := r
  cases answer with
  | error stop => exact .stopped _ _
  | ok channels =>
    simp only
    unfold runCommand
    split
    · exact .empty _ _ _
    · generalize ready.findCommand host stage.name = r
      obtain ⟨found, answer⟩ := r
      cases answer with
      | error refusal => exact .stopped _ _
      | ok command =>
        cases command with
        | builtin b => exact handed_runBuiltin host found stage b channels
        | unknown => exact .closed _ _ _ _
        | program path => exact handed_runProgram hshares found stage path _ channels

-- ---------------------------------------------------------------------------
-- Runs
-- ---------------------------------------------------------------------------

theorem run_arrival_of_ne {rest : List Stage} (h : rest ≠ []) (total position : Nat) (s : Session)
    (piped : Option Bytes) (stage : Stage) :
    (arrival host total position s piped stage rest).run host =
      (announced host position total s stage).runStage host stage piped false := by
  simp only [arrival, Arrival.run, h, decide_false]

theorem runFrom_ne_nil {rest : List Stage} {total position : Nat} {piped : Option Bytes}
    {results : List StageResult}
    (h : (runFrom host total position s piped (stage :: rest)).2 = .ok results) : results ≠ [] := by
  rintro rfl
  have hcourse := course_runFrom host total position s piped (stage :: rest)
  rw [h] at hcourse
  have hlength := hcourse.results.length_eq
  simp [arrivals] at hlength

/-- The first stage of two runs that go on with different stages. -/
theorem beside_run_first (h : Beside host before before s s') {rest rest' : List Stage} (hrest : rest ≠ [])
    (hrest' : rest' ≠ []) {total position : Nat} (total' position' : Nat) {piped : Option Bytes}
    (hclear : ∀ a ∈ arrivals host total position s piped (stage :: rest),
      a.session.ReadsNoRecords host a.stage) :
    SameAnswer (Beside host before before) ((arrival host total position s piped stage rest).run host)
      ((arrival host total' position' s' piped stage rest').run host) := by
  have hhere : Beside host before before (announced host position total s stage)
      (announced host position' total' s' stage) :=
    h.announced _ _ _ _ _
  have hreads : (announced host position total s stage).ReadsNoRecords host stage :=
    hclear (arrival host total position s piped stage rest)
      (by simp only [arrivals, List.mem_cons, true_or])
  rw [run_arrival_of_ne hrest, run_arrival_of_ne hrest']
  exact (unseen_beside (.refl host) before before).inStep.runStage hhere hreads piped false

/-- A run goes on as another one does that starts at a later stage. -/
def GoesOn (r later : Session × Except Stop (List StageResult)) : Prop :=
  ∃ first, r = (later.1, later.2.map (first ++ ·))

theorem GoesOn.refl (r : Session × Except Stop (List StageResult)) : GoesOn r r := by
  refine ⟨[], ?_⟩
  obtain ⟨s, answer⟩ := r
  cases answer <;> rfl

theorem GoesOn.cons {r later : Session × Except Stop (List StageResult)} (result : StageResult)
    (h : GoesOn r later) : GoesOn (r.1, r.2.map (result :: ·)) later := by
  obtain ⟨first, rfl⟩ := h
  refine ⟨result :: first, ?_⟩
  obtain ⟨s, answer⟩ := later
  cases answer <;> rfl

/-- Runs of the same stages up to a point, after which different stages follow, are related as their ends
are, if what relates them does not depend on what comes before and holds of runs that are stopped. -/
theorem runFrom_tails {R : Nat → Session × Except Stop (List StageResult) →
      Session × Except Stop (List StageResult) → Prop}
    (hstopped : ∀ {k s s'} (stop : Stop), Beside host before before s s' →
      R k (s, .error stop) (s', .error stop))
    (hpassed : ∀ {k r r'} (result : StageResult), R k r r' →
      R (k + 1) (r.1, r.2.map (result :: ·)) (r'.1, r'.2.map (result :: ·)))
    {tail tail' : List Stage} (htail : tail ≠ []) (htail' : tail' ≠ []) {total total' : Nat}
    (stages : List Stage) {position position' : Nat} {piped : Option Bytes}
    (h : Beside host before before s s')
    (hclear : ∀ a ∈ arrivals host total position s piped (stages ++ tail),
      a.session.ReadsNoRecords host a.stage)
    (hends : ∀ {u u' piped'}, Beside host before before u u' →
      arrivals host total (position + stages.length) u piped' tail =
        (arrivals host total position s piped (stages ++ tail)).drop stages.length →
      GoesOn (runFrom host total position s piped (stages ++ tail))
        (runFrom host total (position + stages.length) u piped' tail) →
      R 0 (runFrom host total (position + stages.length) u piped' tail)
        (runFrom host total' (position' + stages.length) u' piped' tail')) :
    R stages.length (runFrom host total position s piped (stages ++ tail))
      (runFrom host total' position' s' piped (stages ++ tail')) := by
  induction stages generalizing position position' s s' piped with
  | nil => exact hends h rfl (.refl _)
  | cons stage rest ih =>
    have hmore : rest ++ tail ≠ [] := by simp [htail]
    have hmore' : rest ++ tail' ≠ [] := by simp [htail']
    have hposition : ∀ p, p + (stage :: rest).length = p + 1 + rest.length := by
      intro p
      rw [List.length_cons]
      omega
    simp only [List.cons_append] at hclear ⊢
    have hgoes := beside_run_first h hmore hmore' total' position' hclear
    obtain ⟨done, done', answer, hrun, hrun', hafter⟩ := hgoes.exists
    cases answer with
    | error stop =>
      rw [(runFrom_of_stopped hrun).1, (runFrom_of_stopped hrun').1]
      exact hstopped stop hafter
    | ok result =>
      obtain ⟨hruns, harrivals⟩ := runFrom_of_passed hrun
      rw [harrivals] at hclear
      rw [List.cons_append, harrivals, hruns] at hends
      rw [hruns, (runFrom_of_passed hrun').1]
      have hnoted : Beside host before before (done.note host (.stage position total .completed stage))
          (done'.note host (.stage position' total' .completed stage)) := hafter.note (.refl host) rfl rfl
      refine hpassed result (ih hnoted (fun a ha => hclear a (List.mem_cons_of_mem _ ha)) ?_)
      intro u u' piped' hbeside hdrop hgoes
      have hend := @hends u u' piped' hbeside
      rw [hposition, hposition] at hend
      exact hend hdrop (hgoes.cons result)

-- ---------------------------------------------------------------------------
-- A copier after the last stage
-- ---------------------------------------------------------------------------

theorem announced_plain (h : stage.Plain) (position total : Nat) (s : Session) :
    announced host position total s stage =
      s.noteAll host [.stage position total .pending stage, .stage position total .running stage] := by
  rw [announced, h.diagnostics]
  rfl

/-- How a run ends whose last stage comes after `k` others, and how it ends if a copier follows. -/
inductive Appended (host : Host) (before : Bytes) (copier : Stage) (program : Bytes → Performance)
    (k : Nat) : Session × Except Stop (List StageResult) →
      Session × Except Stop (List StageResult) → Prop
  /-- The copier is given what the last stage would have shown, and shows it. -/
  | passed {s s' : Session} (h : Beside host before before s s') (first : List StageResult)
    (hfirst : first.length = k) (result : StageResult) :
    Appended host before copier program k (s, .ok (first ++ [{ result with output := none }]))
      (s', .ok (first ++
        [result, ⟨copier.name, (program (result.output.getD [])).status, none⟩]))
  | stopped {s s' : Session} (h : Beside host before before s s') (stop : Stop) :
    Appended host before copier program k (s, .error stop) (s', .error stop)
  /-- Something is refused or does not arrive, and what the last stage has written before is lost in the
  pipe. -/
  | cut {s s' : Session} (text : Bytes) (h : Beside host before before s (s'.print text)) {stop : Stop}
    (hstop : ¬stop.Regular) :
    Appended host before copier program k (s, .error stop) (s', .error stop)

theorem Appended.cons {k : Nat} {r r' : Session × Except Stop (List StageResult)}
    (result : StageResult) (h : Appended host before copier program k r r') :
    Appended host before copier program (k + 1) (r.1, r.2.map (result :: ·))
      (r'.1, r'.2.map (result :: ·)) := by
  cases h with
  | passed h first hfirst last => exact .passed h (result :: first) (by simp [hfirst]) last
  | stopped h stop => exact .stopped h stop
  | cut text h hstop => exact .cut text h hstop

theorem appended_last (hshares : host.sharesTerminal = false) (hplain : copier.Plain)
    (hcopies : Copies program) (h : Beside host before before s s') {last : Stage}
    {total position : Nat} (total' position' : Nat) {piped : Option Bytes}
    (hclear : (announced host position total s last).ReadsNoRecords host last)
    (hstarts : ∀ results, (runFrom host total position s piped [last]).2 = .ok results →
      (runFrom host total position s piped [last]).1.Starts host copier program) :
    Appended host before copier program 0 (runFrom host total position s piped [last])
      (runFrom host total' position' s' piped [last, copier]) := by
  have hhere : Beside host before before (announced host position total s last)
      (announced host position' total' s' last) :=
    h.announced _ _ _ _ _
  have hgoes := (unseen_beside (.refl host) before before).inStep.runStage hhere hclear piped true
  have hhanded := handed_runStage hshares (announced host position' total' s' last) last piped
  obtain ⟨done, shown, answer, hrun, hshown, hafter⟩ := hgoes.exists
  rw [hshown] at hhanded
  have hrun : (arrival host total position s piped last []).run host = (done, answer) := hrun
  generalize hhand : (announced host position' total' s' last).runStage host last piped false = r
    at hhanded
  rw [← run_arrival_of_ne (List.cons_ne_nil copier [])] at hhand
  cases hhanded with
  | stopped _ stop =>
    rw [(runFrom_of_stopped hrun).1, (runFrom_of_stopped hhand).1]
    exact .stopped hafter stop
  | cut left text hstop =>
    rw [(runFrom_of_stopped hrun).1, (runFrom_of_stopped hhand).1]
    exact .cut text hafter hstop
  | passed left result =>
    rw [(runFrom_of_passed hrun).1] at hstarts ⊢
    rw [(runFrom_of_passed hhand).1]
    have hstarts := hstarts _ rfl
    have hready : Beside host before before (done.note host (.stage position total .completed last))
        ((announced host (position' + 1) total'
          (left.note host (.stage position' total' .completed last)) copier).print
            (copied (result.output.getD []))) := by
      rw [announced_plain hplain]
      simp only [noteAll, List.foldl_cons, List.foldl_nil, ← note_print]
      exact ((((hafter.noted (.refl host) rfl).symm.noted (.refl host) rfl).noted (.refl host) rfl).noted
        (.refl host) rfl).symm
    have hstart : (announced host (position' + 1) total'
        (left.note host (.stage position' total' .completed last)) copier).Starts host copier program :=
      hstarts.of_sameWorld hplain (hready.sameWorld.trans ⟨.refl _, rfl, rfl, rfl⟩)
    obtain ⟨ended, hcopier, hended⟩ :=
      runStage_copier hshares hplain hcopies hstart (result.output.getD []) true
    have hcopier : (arrival host total' (position' + 1)
        (left.note host (.stage position' total' .completed last)) (some (result.output.getD []))
          copier []).run host = _ := hcopier
    rw [(runFrom_of_passed hcopier).1]
    have hend := hready.followed (hended.print (copied (result.output.getD [])))
    exact .passed (hend.symm.noted (.refl host) rfl).symm [] rfl result

-- ---------------------------------------------------------------------------
-- A copier between two stages
-- ---------------------------------------------------------------------------

/-- How a run ends, and how it ends if a copier comes after the stage that follows the first `k`: in the
same way, and if it is not stopped, with one result more. -/
inductive Inserted (host : Host) (before : Bytes) (copier : Stage) (program : Bytes → Performance)
    (k : Nat) : Session × Except Stop (List StageResult) →
      Session × Except Stop (List StageResult) → Prop
  | passed {s s' : Session} (h : Beside host before before s s') (first : List StageResult)
    (hfirst : first.length = k) (result : StageResult) {second : List StageResult}
    (hsecond : second ≠ []) :
    Inserted host before copier program k (s, .ok (first ++ result :: second))
      (s', .ok (first ++ result ::
        ⟨copier.name, (program (result.output.getD [])).status, some (result.output.getD [])⟩ ::
          second))
  | stopped {s s' : Session} (h : Beside host before before s s') (stop : Stop) :
    Inserted host before copier program k (s, .error stop) (s', .error stop)

theorem Inserted.cons {k : Nat} {r r' : Session × Except Stop (List StageResult)}
    (result : StageResult) (h : Inserted host before copier program k r r') :
    Inserted host before copier program (k + 1) (r.1, r.2.map (result :: ·))
      (r'.1, r'.2.map (result :: ·)) := by
  cases h with
  | passed h first hfirst last hsecond =>
    exact .passed h (result :: first) (by simp [hfirst]) last hsecond
  | stopped h stop => exact .stopped h stop

theorem inserted_before (hshares : host.sharesTerminal = false) (hplain : copier.Plain)
    (hcopies : Copies program) (h : Beside host before before s s') {next : Stage}
    {rest : List Stage} {total position : Nat} (total' position' : Nat) {piped : Option Bytes}
    (hclear : ∀ a ∈ arrivals host total position s piped (stage :: next :: rest),
      a.session.ReadsNoRecords host a.stage)
    (hstarts : ∀ a, (arrivals host total position s piped (stage :: next :: rest))[1]? = some a →
      a.session.Starts host copier program) :
    Inserted host before copier program 0
      (runFrom host total position s piped (stage :: next :: rest))
      (runFrom host total' position' s' piped (stage :: copier :: next :: rest)) := by
  have hgoes := beside_run_first h (List.cons_ne_nil next rest) (List.cons_ne_nil copier (next :: rest))
    total' position' hclear
  obtain ⟨done, done', answer, hrun, hrun', hafter⟩ := hgoes.exists
  cases answer with
  | error stop =>
    rw [(runFrom_of_stopped hrun).1, (runFrom_of_stopped hrun').1]
    exact .stopped hafter stop
  | ok result =>
    obtain ⟨hruns, harrivals⟩ := runFrom_of_passed hrun
    rw [harrivals] at hclear hstarts
    rw [hruns, (runFrom_of_passed hrun').1]
    have hready : Beside host before before (done.note host (.stage position total .completed stage))
        (announced host (position' + 1) total'
          (done'.note host (.stage position' total' .completed stage)) copier) := by
      rw [announced_plain hplain]
      exact (((hafter.noted (.refl host) rfl).symm.noted (.refl host) rfl).notedAll
        (by simp [Event.level])).symm
    have hcome : (announced host (position + 1) total
        (done.note host (.stage position total .completed stage)) next).Starts host copier program :=
      hstarts (arrival host total (position + 1) (done.note host (.stage position total .completed stage))
        (some (result.output.getD [])) next rest) (by simp [arrivals])
    have hworld := (sameWorld_announced host (position + 1) total
      (done.note host (.stage position total .completed stage)) next).symm.trans hready.sameWorld
    have hstart := hcome.of_sameWorld hplain hworld
    obtain ⟨ended, hcopier, hended⟩ :=
      runStage_copier hshares hplain hcopies hstart (result.output.getD []) false
    simp only [Bool.false_eq_true, if_false, print_nil] at hcopier
    rw [← run_arrival_of_ne (List.cons_ne_nil next rest)] at hcopier
    rw [(runFrom_of_passed hcopier).1]
    have hend : Beside host before before (done.note host (.stage position total .completed stage))
        (ended.note host (.stage (position' + 1) total' .completed copier)) :=
      Beside.symm (Beside.noted (.refl host) (hready.followed hended).symm rfl)
    have hsame : List.Forall₂ Stage.Equivalent (next :: rest) (next :: rest) :=
      List.forall₂_same.2 fun stage _ => .refl stage
    have hrest : SameAnswer (Beside host before before) (runFrom host total (position + 1) _ _ _)
        (runFrom host total' (position' + 1 + 1) _ _ _) :=
      (unrecorded_beside host before before).runFrom hsame hend _
        fun a ha => hclear a (List.mem_cons_of_mem _ ha)
    obtain ⟨left, left', answer, hruns, hruns', hleft⟩ := hrest.exists
    simp only [hruns, hruns', Option.getD_some]
    cases answer with
    | error stop => exact .stopped hleft stop
    | ok second =>
      have hsecond : second ≠ [] := runFrom_ne_nil (congrArg Prod.snd hruns)
      exact .passed hleft [] rfl result hsecond

-- ---------------------------------------------------------------------------
-- Pipelines
-- ---------------------------------------------------------------------------

theorem appended_runPipeline (hshares : host.sharesTerminal = false) (s : Session) (hplain : copier.Plain)
    (hcopies : Copies program) {stages : List Stage} (hstages : stages ≠ [])
    (hclear : ∀ a ∈ s.reached host ⟨stages⟩, a.session.ReadsNoRecords host a.stage)
    (hstarts : ∀ results, (s.runPipeline host ⟨stages⟩).2 = .ok results →
      (s.runPipeline host ⟨stages⟩).1.Starts host copier program) :
    Appended host s.err copier program (stages.length - 1) (s.runPipeline host ⟨stages⟩)
      (s.runPipeline host ⟨stages ++ [copier]⟩) := by
  obtain ⟨before, last, rfl⟩ : ∃ before last, stages = before ++ [last] :=
    ⟨_, _, (List.dropLast_append_getLast hstages).symm⟩
  have hcount : (before ++ [last]).length - 1 = before.length := by simp
  unfold reached at hclear
  unfold runPipeline at hstarts ⊢
  rw [hcount, List.append_assoc]
  refine runFrom_tails (fun stop h => .stopped h stop) (fun result h => h.cons result)
    (List.cons_ne_nil last []) (List.cons_ne_nil last [copier]) before (.refl s) hclear ?_
  intro u u' piped hbeside hdrop hgoes
  have hmem : arrival host (before ++ [last]).length (1 + before.length) u piped last [] ∈
      arrivals host (before ++ [last]).length (1 + before.length) u piped [last] := by
    simp only [arrivals, List.mem_cons, true_or]
  rw [hdrop] at hmem
  refine appended_last hshares hplain hcopies hbeside _ _ (hclear _ (List.mem_of_mem_drop hmem)) ?_
  intro results hresults
  obtain ⟨firsts, hwhole⟩ := hgoes
  rw [hresults] at hwhole
  simp only [hwhole] at hstarts
  exact hstarts _ rfl

theorem inserted_runPipeline (hshares : host.sharesTerminal = false) (s : Session) (hplain : copier.Plain)
    (hcopies : Copies program) {first second : List Stage} (hfirst : first ≠ []) (hsecond : second ≠ [])
    (hclear : ∀ a ∈ s.reached host ⟨first ++ second⟩, a.session.ReadsNoRecords host a.stage)
    (hstarts : ∀ a, (s.reached host ⟨first ++ second⟩)[first.length]? = some a →
      a.session.Starts host copier program) :
    Inserted host s.err copier program (first.length - 1) (s.runPipeline host ⟨first ++ second⟩)
      (s.runPipeline host ⟨first ++ copier :: second⟩) := by
  obtain ⟨before, stage, rfl⟩ : ∃ before stage, first = before ++ [stage] :=
    ⟨_, _, (List.dropLast_append_getLast hfirst).symm⟩
  obtain ⟨next, rest, rfl⟩ := List.exists_cons_of_ne_nil hsecond
  have hcount : (before ++ [stage]).length = before.length + 1 := by simp
  unfold reached at hclear hstarts
  unfold runPipeline
  rw [hcount] at hstarts ⊢
  simp only [List.append_assoc, List.singleton_append, Nat.add_sub_cancel] at hclear hstarts ⊢
  refine runFrom_tails (fun stop h => .stopped h stop) (fun result h => h.cons result)
    (List.cons_ne_nil stage _) (List.cons_ne_nil stage _) before (.refl s) hclear ?_
  intro u u' piped hbeside hdrop _
  refine inserted_before hshares hplain hcopies hbeside _ _ ?_ ?_
  · rw [hdrop]
    exact fun a ha => hclear a (List.mem_of_mem_drop ha)
  · intro a ha
    rw [hdrop, List.getElem?_drop] at ha
    exact hstarts a ha

/-- The terminal and a pipe carry the same text. Let a stage without redirections have a program that
copies what it reads, on a host that copies what programs write to the terminal. At the end of a
pipeline, if the program starts there, the stage changes nothing but the status, unless something is
refused or does not arrive: then what the last stage has written before is not shown. Between two
stages, if the program starts when the second one is come to, it changes nothing at all and adds its own
result. The host may record to a file, if no stage reads that file. -/
theorem copier_unnoticed (hshares : host.sharesTerminal = false) (s : Session) (hplain : copier.Plain)
    (hcopies : Copies program) :
    (∀ stages ≠ [],
      (∀ a ∈ s.reached host ⟨stages⟩, a.session.ReadsNoRecords host a.stage) →
      (∀ results, (s.runPipeline host ⟨stages⟩).2 = .ok results →
        (s.runPipeline host ⟨stages⟩).1.Starts host copier program) →
      Appended host s.err copier program (stages.length - 1) (s.runPipeline host ⟨stages⟩)
        (s.runPipeline host ⟨stages ++ [copier]⟩)) ∧
    (∀ first ≠ [], ∀ second ≠ [],
      (∀ a ∈ s.reached host ⟨first ++ second⟩, a.session.ReadsNoRecords host a.stage) →
      (∀ a, (s.reached host ⟨first ++ second⟩)[first.length]? = some a →
        a.session.Starts host copier program) →
      Inserted host s.err copier program (first.length - 1) (s.runPipeline host ⟨first ++ second⟩)
        (s.runPipeline host ⟨first ++ copier :: second⟩)) := by
  refine ⟨?_, ?_⟩
  · intro stages hstages hclear hstarts
    exact appended_runPipeline hshares s hplain hcopies hstages hclear hstarts
  · intro first hfirst second hsecond hclear hstarts
    exact inserted_runPipeline hshares s hplain hcopies hfirst hsecond hclear hstarts

/-- `/cat` starts in the small world. -/
theorem starts_cat (h : SameWorld Small.host Small.session s) : s.Starts Small.host ⟨["/cat"], [], []⟩
    fun input => Stock.cat ⟨[Text.encode "/cat"], ⟨[]⟩, "/", input⟩ := by
  have hstarts : Small.session.Starts Small.host ⟨["/cat"], [], []⟩
      fun input => Stock.cat ⟨[Text.encode "/cat"], ⟨[]⟩, "/", input⟩ :=
    ⟨_, _, "/cat", (Stock.cat, [Text.encode "/cat"], []), rfl, rfl, rfl, fun _ => rfl⟩
  exact hstarts.of_sameWorld ⟨rfl, rfl⟩ h

theorem copies_cat : Copies fun input => Stock.cat ⟨[Text.encode "/cat"], ⟨[]⟩, "/", input⟩ := by
  intro input
  simp [Stock.cat, Stock.filter, Performance.written_cons]

/-- `echo a | /cat` and `echo a | /cat | /upper`. -/
theorem copier_unnoticed_cat :
    let cat : Stage := ⟨["/cat"], [], []⟩
    let program : Bytes → Performance := fun input => Stock.cat ⟨[Text.encode "/cat"], ⟨[]⟩, "/", input⟩
    let run := fun stages => Small.session.runPipeline Small.host ⟨stages⟩
    (run [Small.echo, cat]).1.out = Text.encode "a\n" ∧
      (run [Small.echo, cat, Small.upper]).1.out = Text.encode "A\n" ∧
      Appended Small.host [] cat program 0 (run [Small.echo]) (run [Small.echo, cat]) ∧
      Inserted Small.host [] cat program 0 (run [Small.echo, Small.upper])
        (run [Small.echo, cat, Small.upper]) := by
  intro cat program run
  have hquiet : Small.host.Quiet := trivial
  obtain ⟨happend, hinsert⟩ :=
    @copier_unnoticed Small.host cat program rfl Small.session ⟨rfl, rfl⟩ copies_cat
  refine ⟨by decide +kernel, by decide +kernel, ?_, ?_⟩
  · refine happend [Small.echo] (by simp) (fun a _ r _ place entry _ => hquiet.not_records place) ?_
    intro results _
    exact starts_cat ⟨.refl _, rfl, rfl, rfl⟩
  · refine hinsert [Small.echo] (by simp) [Small.upper] (by simp)
      (fun a _ r _ place entry _ => hquiet.not_records place) ?_
    intro a ha
    have ha : (Small.session.reached Small.host ⟨[Small.echo, Small.upper]⟩)[1]? = some a := ha
    cases ha
    exact starts_cat ⟨.refl _, rfl, rfl, rfl⟩

/-- `type echo /` with a name that the system refuses after it: what `type` has written before is shown
on the terminal, and lost in a pipe to a program that copies. -/
theorem copier_noticed_type :
    let cat : Stage := ⟨["/cat"], [], []⟩
    let typing : Stage := ⟨["type", "echo", "/\x00"], [], []⟩
    let run := fun stages => Small.session.runPipeline Small.host ⟨stages⟩
    (run [typing]).1.Starts Small.host cat
        (fun input => Stock.cat ⟨[Text.encode "/cat"], ⟨[]⟩, "/", input⟩) ∧
      (run [typing]).2 = .error (.refused .embeddedNul) ∧
      (run [typing, cat]).2 = .error (.refused .embeddedNul) ∧
      (run [typing]).1.out = Text.encode "echo is a shell builtin\n" ∧
      (run [typing, cat]).1.out = [] := by
  intro cat typing run
  have hfiles : (run [typing]).1.files = Small.session.files := by decide +kernel
  have hworld : SameWorld Small.host Small.session (run [typing]).1 := by
    refine ⟨?_, by decide +kernel, by decide +kernel, by decide +kernel⟩
    rw [hfiles]
    exact .refl _
  refine ⟨starts_cat hworld, ?_, ?_, ?_, ?_⟩
  all_goals decide +kernel

end Session

end PipelineShell
