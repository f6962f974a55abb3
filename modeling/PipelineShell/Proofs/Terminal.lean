import PipelineShell.Proofs.Arrivals
import PipelineShell.Proofs.Deeds
import PipelineShell.Proofs.Small

/-!
# What the terminal receives

Of all the stages that a line comes to, only the last one of the line shows its output on the
terminal, and each shows its errors unless they have a file. `account_execute` says for a whole line
what either stream of the terminal receives, and what the stages leave in their pipes.
-/

namespace PipelineShell

/-- What is reported of a line that is cut short. -/
def Stop.report : Stop → Bytes
  | .badRedirection command target e =>
    Text.encode (Diagnosis.badRedirection command target e.reason).line
  | _ => []

/-- What is reported at the end of a line. -/
def Stop.closing {α : Type} : Except Stop α → Bytes
  | .ok _ => []
  | .error stop => stop.report

/-- The line leaves the session, or a redirection has failed. -/
def Stop.Regular : Stop → Prop
  | .leave _ => True
  | .badRedirection _ _ _ => True
  | .unwritten _ => False
  | .refused _ => False

/-- Something was run. -/
def Deed.Ran : Deed → Prop
  | .builtin _ => True
  | .program _ => True
  | _ => False

theorem Deed.isSome_output? (deed : Deed) : deed.output?.isSome ↔ deed.Ran := by
  cases deed <;> simp [Deed.output?, Deed.Ran]

namespace Arrival

/-- What becomes of the command of a stage, if its redirections can be opened. -/
def deed? (host : Host) (a : Arrival) : Option Deed :=
  match a.session.openChannels host a.stage with
  | (_, .error _) => none
  | (ready, .ok channels) => some (ready.deed host a.stage a.piped channels a.last)

/-- The output that a stage shows on the terminal. -/
def shown (host : Host) (a : Arrival) : Bytes :=
  if a.last ∧ a.stage.redirection? .stdout = none then
    ((a.deed? host).map (Deed.shown host)).getD []
  else []

/-- The errors that a stage shows on the terminal. -/
def errors (host : Host) (a : Arrival) : Bytes :=
  if a.stage.redirection? .stderr = none then
    ((a.deed? host).map (Deed.errors host a.stage.name)).getD []
  else []

/-- What a stage leaves for the next one, if it leaves something. -/
def left? (host : Host) (a : Arrival) : Option Bytes :=
  if a.last ∨ a.stage.redirection? .stdout ≠ none then none
  else (a.deed? host).bind Deed.output?

end Arrival

namespace Session

variable {host : Host} {s : Session} {stage : Stage}

/-! ## Redirections that open -/

theorem openOutput_eq_none_iff {stream : Stream} {opened : Session} {out : Option Handle}
    (h : s.openOutput host stage stream = (opened, .ok out)) :
    out = none ↔ stage.redirection? stream = none := by
  unfold openOutput at h
  cases hr : stage.redirection? stream with
  | none =>
    simp only [hr] at h
    cases h
    simp
  | some r =>
    simp only [hr] at h
    split at h
    · cases h
    · split at h
      · cases h
      · cases h
        simp

/-- A stage has a file open for a stream if it has a redirection for it. -/
theorem openChannels_eq_none_iff {ready : Session} {channels : Channels}
    (h : s.openChannels host stage = (ready, .ok channels)) :
    (channels.out = none ↔ stage.redirection? .stdout = none) ∧
      (channels.err = none ↔ stage.redirection? .stderr = none) := by
  obtain ⟨-, opened, hout, herr⟩ := openChannels_ok h
  exact ⟨openOutput_eq_none_iff hout, openOutput_eq_none_iff herr⟩

end Session

/-! ## Stages -/

namespace Arrival

open Session

variable {host : Host} {a : Arrival}

/-- A stage whose redirections cannot be opened shows nothing. -/
theorem deed?_of_error {left : Session} {stop : Stop}
    (h : a.session.openChannels host a.stage = (left, .error stop)) :
    a.run host = (left, .error stop) ∧ a.deed? host = none := by
  refine ⟨?_, ?_⟩
  · simp only [run, runStage, h]
  · simp only [deed?, h]

/-- How a stage goes: a redirection cannot be opened, or the command is dealt with. -/
inductive Goes (host : Host) (a : Arrival) : Prop
  | cut (left : Session) (stop : Stop)
    (hopen : a.session.openChannels host a.stage = (left, .error stop))
    (hsilent : Silent host a.session left) (hrun : a.run host = (left, .error stop))
    (hdeed : a.deed? host = none)
  | did (ready : Session) (channels : Channels) (deed : Deed)
    (hopen : a.session.openChannels host a.stage = (ready, .ok channels))
    (hsilent : Silent host a.session ready)
    (hrun : a.run host = ready.runCommand host a.stage a.piped channels a.last)
    (hdeed : a.deed? host = some deed)
    (hdid : Did host a.session a.stage.name channels a.last deed (a.run host).1 (a.run host).2)

theorem goes (host : Host) (a : Arrival) : a.Goes host := by
  have hsilent : Silent host a.session (a.session.openChannels host a.stage).1 :=
    silent_openChannels a.session a.stage
  cases hopen : a.session.openChannels host a.stage with
  | mk ready answer =>
    rw [hopen] at hsilent
    cases answer with
    | error stop =>
      obtain ⟨hrun, hdeed⟩ := deed?_of_error hopen
      exact .cut ready stop hopen hsilent hrun hdeed
    | ok channels =>
      have hrun : a.run host = ready.runCommand host a.stage a.piped channels a.last := by
        simp only [run, runStage, hopen]
      have hdeed : a.deed? host = some (ready.deed host a.stage a.piped channels a.last) := by
        simp only [deed?, hopen]
      have hdid := did_runCommand host ready a.stage a.piped channels a.last
      rw [← hrun] at hdid
      exact .did ready channels _ hopen hsilent hrun hdeed (hdid.of_silent hsilent)

theorem settled_run (host : Host) (a : Arrival) : Settled a.session (a.run host).1 := by
  cases a.goes host with
  | cut left stop hopen hsilent hrun hdeed =>
    rw [hrun]
    exact hsilent.toSettled
  | did ready channels deed hopen hsilent hrun hdeed hdid => exact hdid.toSettled

theorem run_out (host : Host) (a : Arrival) :
    (a.run host).1.out = a.session.out ++ a.shown host := by
  cases a.goes host with
  | cut left stop hopen hsilent hrun hdeed => simp [hrun, hsilent.out, shown, hdeed]
  | did ready channels deed hopen hsilent hrun hdeed hdid =>
    rw [hdid.out]
    simp only [shown, hdeed, (openChannels_eq_none_iff hopen).1]
    rfl

theorem reports_run (host : Host) (a : Arrival) :
    Reports host a.session [a.errors host] (a.run host).1 := by
  cases a.goes host with
  | cut left stop hopen hsilent hrun hdeed =>
    have hnothing : a.errors host = [] := by simp [errors, hdeed]
    rw [hrun, hnothing]
    exact hsilent.reports.hush
  | did ready channels deed hopen hsilent hrun hdeed hdid =>
    have hreports := hdid.reports
    simp only [(openChannels_eq_none_iff hopen).2] at hreports
    simp only [errors, hdeed]
    exact hreports

theorem output_of_run {result : StageResult} (h : (a.run host).2 = .ok result) :
    result.output = a.left? host := by
  cases a.goes host with
  | cut left stop hopen hsilent hrun hdeed =>
    rw [hrun] at h
    cases h
  | did ready channels deed hopen hsilent hrun hdeed hdid =>
    rw [hdid.output result h]
    simp only [left?, hdeed, ne_eq, (openChannels_eq_none_iff hopen).1]
    rfl

/-- A stage that leaves the session, or a redirection of which fails, shows no output. -/
theorem shown_of_stop {stop : Stop} (h : (a.run host).2 = .error stop)
    (hstop : stop.Regular) : a.shown host = [] := by
  cases a.goes host with
  | cut left stop hopen hsilent hrun hdeed => simp [shown, hdeed]
  | did ready channels deed hopen hsilent hrun hdeed hdid =>
    rcases hdid.stops stop h with ⟨r, rfl⟩ | ⟨code, -, -, hnothing⟩ | ⟨e, rfl, -⟩
    · exact hstop.elim
    · simp [shown, hdeed, hnothing]
    · exact hstop.elim

theorem shown_of_not_last (h : a.last = false) : a.shown host = [] := by
  simp [shown, h]

theorem deed?_of_nil (host : Host) (hargv : a.stage.argv = []) :
    a.deed? host = none ∨ a.deed? host = some .idle := by
  unfold deed?
  split
  · exact .inl rfl
  · exact .inr (congrArg some (if_pos hargv))

/-- A stage that has a file for its output, or nothing to run, shows no output. -/
theorem shown_of_mute (h : a.stage.redirection? .stdout ≠ none ∨ a.stage.argv = [] ∨
    a.deed? host = some .unknown ∨ a.deed? host = some .unstarted) : a.shown host = [] := by
  rcases h with hr | hargv | hunknown | hunstarted
  · simp [shown, hr]
  · rcases deed?_of_nil host hargv with hnone | hidle
    · simp [shown, hnone]
    · simp [shown, hidle, Deed.shown]
  · simp [shown, hunknown, Deed.shown]
  · simp [shown, hunstarted, Deed.shown]

/-- Only a stage that runs something, and has no file for its output, leaves something. -/
theorem isSome_left? (host : Host) (a : Arrival) :
    (a.left? host).isSome ↔ a.last = false ∧ a.stage.redirection? .stdout = none ∧
      ∃ deed, a.deed? host = some deed ∧ deed.Ran := by
  unfold left?
  cases hlast : a.last with
  | true => simp
  | false =>
    cases hr : a.stage.redirection? .stdout with
    | some r => simp
    | none =>
      cases hdeed : a.deed? host with
      | none => simp
      | some deed => simp [deed.isSome_output?]

end Arrival

/-! ## Lines -/

/-- The stages of a run that is not stopped leave what its results say. -/
theorem Course.outputs {host : Host} {arrivals : List Arrival} {results : List StageResult}
    (h : Course host arrivals (.ok results)) :
    results.map StageResult.output = arrivals.map (Arrival.left? host) := by
  have hresults := h.results
  clear h
  induction hresults with
  | nil => rfl
  | cons hrun _ ih => rw [List.map_cons, List.map_cons, ih, Arrival.output_of_run hrun]

namespace Session

variable {host : Host} {s : Session} {line : String}

/-- What the stages that a run comes to put on the error stream of the terminal: for each of them what
is wrong with its words, and then its errors. -/
def told (host : Host) (arrivals : List Arrival) : List Bytes :=
  arrivals.flatMap fun a => [a.stage.complaints, a.errors host]

/-- What a line shows on the terminal and leaves in its pipes. It takes a session from `s` to `done`,
has the given stages, comes to the given ones of them, and ends with the given answer. -/
structure Account (host : Host) (s done : Session) (stages : List Stage) (arrivals : List Arrival)
    (answer : Except Stop (List StageResult)) : Prop where
  /-- The stages are come to in order. -/
  reached : arrivals.map Arrival.stage <+: stages
  last : ∀ i a, arrivals[i]? = some a → a.last = decide (i + 1 = stages.length)
  /-- Of the stages only the last one shows its output. -/
  out : done.out = s.out ++ (arrivals.filter Arrival.last).flatMap (Arrival.shown host)
  /-- A line without stages shows no output. -/
  blank : stages = [] → done.out = s.out
  /-- A line that leaves the session or is cut short shows no output. -/
  stopped : ∀ stop, answer = .error stop → stop.Regular → done.out = s.out
  /-- Nor does a line whose last stage has a file for its output, or has nothing to run. -/
  mute : ∀ a ∈ arrivals, a.last →
    (a.stage.redirection? .stdout ≠ none ∨ a.stage.argv = [] ∨ a.deed? host = some .unknown ∨
      a.deed? host = some .unstarted) → done.out = s.out
  /-- Each stage has a result, unless the line is stopped. The last stage leaves nothing, another one
  leaves something if it has no file for its output and runs a builtin or a program. -/
  results : ∀ results, answer = .ok results → results.length = stages.length ∧
    arrivals.map Arrival.stage = stages ∧
    results.map StageResult.output = arrivals.map (Arrival.left? host) ∧
    ∀ i a result, arrivals[i]? = some a → results[i]? = some result →
      (result.output.isSome ↔ i + 1 ≠ stages.length ∧ a.stage.redirection? .stdout = none ∧
        ∃ deed, a.deed? host = some deed ∧ deed.Ran)
  /-- For each stage, what is wrong with its words comes before its errors. Only records stand between
  these texts. -/
  reports : Reports host s (told host arrivals ++ [Stop.closing answer]) done
  /-- Without records there they are all that the error stream receives. -/
  err : ¬host.ShowsRecords → done.err = s.err ++
    (arrivals.flatMap fun a => a.stage.complaints ++ a.errors host) ++ Stop.closing answer

theorem silent_readLine (host : Host) (s : Session) (line : String) :
    Silent host s (s.readLine host line).1 :=
  silent_noteAll s (readingEvents_level line)

theorem runLine_out (host : Host) (s : Session) (line : String) :
    (s.runLine host line).1.out =
      s.out ++ (s.lineArrivals host line).flatMap (Arrival.shown host) := by
  have hread : Silent host s (s.readLine host line).1 := silent_readLine host s line
  have hannounced : ∀ position s stage,
      (announced host position (Pipeline.ofLine line).stages.length s stage).out =
        s.out ++ Function.const Stage [] stage := by
    intro position s stage
    rw [announced_out]
    exact (List.append_nil _).symm
  rw [← hread.out]
  apply gathered_runFrom hannounced
  · intro position s stage
    exact note_out host s _
  · intro a _
    exact Arrival.run_out host a

/-- A stage is announced, and then run. -/
theorem reports_arrival (host : Host) (total position : Nat) (s : Session) (piped : Option Bytes)
    (stage : Stage) (rest : List Stage) :
    Reports host s
      [stage.complaints, (arrival host total position s piped stage rest).errors host]
      ((arrival host total position s piped stage rest).run host).1 :=
  (reports_announced host position total s stage).trans (Arrival.reports_run host _)

/-- What each stage reports, a run reports in order. -/
theorem reports_runFrom (host : Host) (total position : Nat) (s : Session) (piped : Option Bytes)
    (stages : List Stage) :
    Reports host s (told host (arrivals host total position s piped stages))
      (runFrom host total position s piped stages).1 := by
  induction position, s, piped, stages using runFrom_induction host total with
  | nil position s piped => exact .refl s
  | stopped position s piped stage rest done stop hstop =>
    obtain ⟨hruns, harrivals⟩ := runFrom_of_stopped hstop
    have hhere := reports_arrival host total position s piped stage rest
    rw [hstop] at hhere
    rw [hruns, harrivals, told, List.flatMap_singleton]
    exact hhere
  | passed position s piped stage rest done result hpass ih =>
    obtain ⟨hruns, harrivals⟩ := runFrom_of_passed hpass
    have hhere := reports_arrival host total position s piped stage rest
    rw [hpass] at hhere
    have hnoted : Reports host s _ (done.note host (.stage position total .completed stage)) :=
      hhere.trans (.note done rfl)
    rw [hruns, harrivals, told, List.flatMap_cons]
    exact hnoted.trans ih

theorem reports_runPipeline (host : Host) (s : Session) (stages : List Stage) :
    Reports host s (told host (s.reached host ⟨stages⟩)) (s.runPipeline host ⟨stages⟩).1 :=
  reports_runFrom host stages.length 1 s none stages

theorem reports_runLine (host : Host) (s : Session) (line : String) :
    Reports host s (told host (s.lineArrivals host line)) (s.runLine host line).1 :=
  (silent_readLine host s line).reports.trans (reports_runFrom host _ _ _ none _)

theorem execute_out (host : Host) (s : Session) (line : String) :
    (s.execute host line).1.out = (s.runLine host line).1.out := by
  rw [execute_eq]
  split
  · next h => rw [h]
  · next done command target e h =>
    rw [h]
    exact note_out host done _
  · next h => rw [h]

/-- What a line writes to the error stream of the terminal, text by text and records apart. -/
def said (host : Host) (s : Session) (line : String) : List Bytes :=
  told host (s.lineArrivals host line) ++ [Stop.closing (s.runLine host line).2]

theorem reports_execute (host : Host) (s : Session) (line : String) :
    Reports host s (s.said host line) (s.execute host line).1 := by
  have hran := reports_runLine host s line
  rw [said, execute_eq]
  cases hrun : s.runLine host line with
  | mk done answer =>
    rw [hrun] at hran
    refine hran.trans ?_
    cases answer with
    | ok results => exact (Reports.refl done).hush
    | error stop =>
      cases stop with
      | badRedirection command target e => exact (Reports.note done rfl).trans (.printError _ _)
      | leave code => exact (Reports.refl done).hush
      | unwritten e => exact (Reports.refl done).hush
      | refused r => exact (Reports.refl done).hush

/-- Only a stage that is the last one shows output. -/
theorem flatMap_shown (host : Host) (arrivals : List Arrival) :
    arrivals.flatMap (Arrival.shown host) =
      (arrivals.filter Arrival.last).flatMap (Arrival.shown host) := by
  induction arrivals with
  | nil => rfl
  | cons a rest ih =>
    rw [List.flatMap_cons, ih]
    cases hlast : a.last with
    | true => simp [hlast]
    | false => simp [hlast, Arrival.shown_of_not_last hlast]

/-- A line shows nothing if its last stage shows nothing. -/
theorem execute_out_of_shown (h : ∀ a ∈ s.lineArrivals host line, a.last → a.shown host = []) :
    (s.execute host line).1.out = s.out := by
  rw [execute_out, runLine_out, flatMap_shown, List.flatMap_eq_nil_iff.2, List.append_nil]
  intro a ha
  obtain ⟨ha, hlast⟩ := List.mem_filter.1 ha
  exact h a ha hlast

/-- A line that leaves the session or is cut short shows no output. -/
theorem execute_out_of_stopped {stop : Stop} (h : (s.runLine host line).2 = .error stop)
    (hstop : stop.Regular) : (s.execute host line).1.out = s.out := by
  have hcourse := course_runLine host s line
  rw [h] at hcourse
  obtain ⟨before, final, harrivals, hfails⟩ := hcourse.stops
  apply execute_out_of_shown
  intro a ha hlast
  have hsame := getLast?_lineArrivals ha hlast
  rw [harrivals, List.getLast?_concat] at hsame
  cases hsame
  exact Arrival.shown_of_stop hfails hstop

/-- Whatever its stages are: what a line shows on the terminal, and what its stages leave. -/
theorem account_execute (host : Host) (s : Session) (line : String) :
    Account host s (s.execute host line).1 (Pipeline.ofLine line).stages (s.lineArrivals host line)
      (s.runLine host line).2 := by
  have hreached := map_stage_lineArrivals host s line
  constructor
  case reached => exact hreached
  case last => exact fun i a ha => last_lineArrivals ha
  case out => rw [execute_out, runLine_out, flatMap_shown]
  case blank =>
    intro hstages
    apply execute_out_of_shown
    intro a ha
    have hnil := hreached.length_le
    rw [List.length_map, hstages] at hnil
    exact absurd (List.length_pos_of_mem ha) (Nat.not_lt.2 hnil)
  case stopped => exact fun stop => execute_out_of_stopped
  case mute =>
    intro final hmem hfinal hnothing
    apply execute_out_of_shown
    intro a ha hlast
    have hsame := getLast?_lineArrivals ha hlast
    rw [getLast?_lineArrivals hmem hfinal] at hsame
    cases hsame
    exact Arrival.shown_of_mute hnothing
  case results =>
    intro results hresults
    have hcourse := course_runLine host s line
    rw [hresults] at hcourse
    obtain ⟨hstages, hlength⟩ := map_stage_lineArrivals_of_ok hresults
    refine ⟨hlength, hstages, hcourse.outputs, ?_⟩
    intro i a result ha hresult
    have houtput := congrArg (·[i]?) hcourse.outputs
    simp only [List.getElem?_map, ha, hresult, Option.map_some, Option.some.injEq] at houtput
    rw [houtput, Arrival.isSome_left?, last_lineArrivals ha, decide_eq_false_iff_not]
  case reports => exact reports_execute host s line
  case err =>
    intro hshows
    rw [(reports_execute host s line).err hshows]
    simp [said, told, List.flatMap, List.flatten_flatten, Function.comp_def]

/-- Where records are shown, the error stream receives more than the stages tell. -/
theorem account_execute_records :
    let host := Small.showingHost
    let reached := Small.session.lineArrivals host "echo a"
    (Small.session.execute host "echo a").1.err ≠ Small.session.err ++
      (reached.flatMap fun a => a.stage.complaints ++ a.errors host) ++
      Stop.closing (Small.session.runLine host "echo a").2 := by
  decide +kernel

end Session

end PipelineShell
