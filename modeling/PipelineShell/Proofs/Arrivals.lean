import Mathlib.Data.List.Forall2
import PipelineShell.Proofs.LikeRuns

/-!
# Arrivals

A run comes to its stages one after the other. `arrivals` lists the stages that it comes to, each with
the session in which it starts, so that what a run does can be told stage by stage: it ends as its
arrivals do (`course_runFrom`), and what each of them adds to a text is added by the run
(`gathered_runFrom`).
-/

namespace PipelineShell

/-- A run that has come to one of its stages. -/
structure Arrival where
  /-- The session in which the stage starts. What is wrong with its words has been reported. -/
  session : Session
  stage : Stage
  /-- What the stage before has left. -/
  piped : Option Bytes
  /-- There is no stage after it. -/
  last : Bool

/-- Run the stage that a run has come to. -/
def Arrival.run (host : Host) (a : Arrival) : Session × Except Stop StageResult :=
  a.session.runStage host a.stage a.piped a.last

/-- Stages that come to an end, one after the other, up to the last one or to one that stops the
line. -/
inductive Course (host : Host) : List Arrival → Except Stop (List StageResult) → Prop
  | ended : Course host [] (.ok [])
  | stopped {a : Arrival} {stop : Stop} (h : (a.run host).2 = .error stop) :
    Course host [a] (.error stop)
  | passed {a : Arrival} {result : StageResult} {rest : List Arrival}
    {answer : Except Stop (List StageResult)} (h : (a.run host).2 = .ok result)
    (hrest : Course host rest answer) :
    Course host (a :: rest) (answer.map (result :: ·))

namespace Course

variable {host : Host} {arrivals : List Arrival}

/-- A run that is not stopped has a result for each stage. -/
theorem results {results : List StageResult}
    (h : Course host arrivals (.ok results)) :
    List.Forall₂ (fun (a : Arrival) result => (a.run host).2 = .ok result) arrivals results := by
  generalize hanswer : Except.ok results = answer at h
  induction h generalizing results with
  | ended =>
    cases hanswer
    exact .nil
  | stopped h => cases hanswer
  | @passed a result rest answer h hrest ih =>
    cases answer with
    | error stop => cases hanswer
    | ok others =>
      cases hanswer
      exact .cons h (ih rfl)

/-- A run is stopped by the last stage that it comes to. -/
theorem stops {stop : Stop}
    (h : Course host arrivals (.error stop)) :
    ∃ before a, arrivals = before ++ [a] ∧ (a.run host).2 = .error stop := by
  generalize hanswer : Except.error stop = answer at h
  induction h generalizing stop with
  | ended => cases hanswer
  | @stopped a stop' h =>
    cases hanswer
    exact ⟨[], a, rfl, h⟩
  | @passed a result rest answer h hrest ih =>
    cases answer with
    | ok others => cases hanswer
    | error stop' =>
      cases hanswer
      obtain ⟨before, last, rfl, hlast⟩ := ih rfl
      exact ⟨a :: before, last, rfl, hlast⟩

end Course

namespace Session

variable {host : Host} {s done : Session}

/-- The first stage of a run from the given position on. -/
def arrival (host : Host) (total position : Nat) (s : Session) (piped : Option Bytes) (stage : Stage)
    (rest : List Stage) : Arrival :=
  ⟨announced host position total s stage, stage, piped, rest = []⟩

/-- The stages that a run from the given position on comes to. -/
def arrivals (host : Host) (total : Nat) :
    Nat → Session → Option Bytes → List Stage → List Arrival
  | _, _, _, [] => []
  | position, s, piped, stage :: rest =>
    let first := arrival host total position s piped stage rest
    first :: match first.run host with
      | (_, .error _) => []
      | (s, .ok result) =>
        arrivals host total (position + 1) (s.note host (.stage position total .completed stage))
          (some (result.output.getD [])) rest

/-- The stages of a pipeline that its run comes to. -/
def reached (host : Host) (s : Session) (pipeline : Pipeline) : List Arrival :=
  arrivals host pipeline.stages.length 1 s none pipeline.stages

/-- Run the stages of a line. -/
def runLine (host : Host) (s : Session) (line : String) :
    Session × Except Stop (List StageResult) :=
  let (s, pipeline) := s.readLine host line
  s.runPipeline host pipeline

/-- The stages that the run of a line comes to. -/
def lineArrivals (host : Host) (s : Session) (line : String) : List Arrival :=
  let (s, pipeline) := s.readLine host line
  arrivals host pipeline.stages.length 1 s none pipeline.stages

/-- A line is given as its stages are run. -/
theorem execute_eq (host : Host) (s : Session) (line : String) :
    s.execute host line =
      match s.runLine host line with
      | (s, .ok results) => (s, .ok ((results.getLast?.map StageResult.status).getD 0))
      | (s, .error (.badRedirection command target e)) =>
        let diagnosis := Diagnosis.badRedirection command target e.reason
        ((s.note host (.lineAborted diagnosis)).report diagnosis, .ok 1)
      | (s, .error stop) => (s, .error stop) := rfl

/-! ## One stage of a run -/

variable {total position : Nat} {piped : Option Bytes} {stage : Stage} {rest : List Stage}

theorem runFrom_of_stopped {stop : Stop}
    (h : (arrival host total position s piped stage rest).run host = (done, .error stop)) :
    runFrom host total position s piped (stage :: rest) = (done, .error stop) ∧
      arrivals host total position s piped (stage :: rest) =
        [arrival host total position s piped stage rest] := by
  refine ⟨?_, ?_⟩
  · change (announced host position total s stage).runStage host stage piped (rest = []) = _ at h
    simp only [runFrom_cons, h]
  · simp only [arrivals, h]

theorem runFrom_of_passed {result : StageResult}
    (h : (arrival host total position s piped stage rest).run host = (done, .ok result)) :
    let s' := done.note host (.stage position total .completed stage)
    let piped' := some (result.output.getD [])
    runFrom host total position s piped (stage :: rest) =
        ((runFrom host total (position + 1) s' piped' rest).1,
          (runFrom host total (position + 1) s' piped' rest).2.map (result :: ·)) ∧
      arrivals host total position s piped (stage :: rest) =
        arrival host total position s piped stage rest ::
          arrivals host total (position + 1) s' piped' rest := by
  intro s' piped'
  refine ⟨?_, ?_⟩
  · change (announced host position total s stage).runStage host stage piped (rest = []) = _ at h
    simp only [runFrom_cons, h]
    split
    · next hrest =>
      simp only [s', piped', hrest]
      rfl
    · next hrest =>
      simp only [s', piped', hrest]
      rfl
  · simp only [arrivals, h]
    rfl

/-- A run of stages is taken apart at its first one, which stops the line or is passed. -/
theorem runFrom_induction (host : Host) (total : Nat)
    {motive : Nat → Session → Option Bytes → List Stage → Prop}
    (nil : ∀ position s piped, motive position s piped [])
    (stopped : ∀ position s piped stage rest done stop,
      (arrival host total position s piped stage rest).run host = (done, .error stop) →
      motive position s piped (stage :: rest))
    (passed : ∀ position s piped stage rest done result,
      (arrival host total position s piped stage rest).run host = (done, .ok result) →
      motive (position + 1) (done.note host (.stage position total .completed stage))
        (some (result.output.getD [])) rest →
      motive position s piped (stage :: rest))
    (position : Nat) (s : Session) (piped : Option Bytes) (stages : List Stage) :
    motive position s piped stages := by
  induction stages generalizing position s piped with
  | nil => exact nil position s piped
  | cons stage rest ih =>
    cases hrun : (arrival host total position s piped stage rest).run host with
    | mk done answer =>
      cases answer with
      | error stop => exact stopped _ _ _ _ _ _ _ hrun
      | ok result => exact passed _ _ _ _ _ _ _ hrun (ih _ _ _)

/-! ## Which stages are come to -/

/-- A run comes to its first stages, in order. -/
theorem map_stage_arrivals (host : Host) (total position : Nat) (s : Session)
    (piped : Option Bytes) (stages : List Stage) :
    (arrivals host total position s piped stages).map Arrival.stage <+: stages := by
  induction position, s, piped, stages using runFrom_induction host total with
  | nil => exact List.prefix_rfl
  | stopped position s piped stage rest done stop hrun =>
    rw [(runFrom_of_stopped hrun).2]
    exact ⟨rest, rfl⟩
  | passed position s piped stage rest done result hrun ih =>
    rw [(runFrom_of_passed hrun).2]
    exact List.cons_prefix_cons.2 ⟨rfl, ih⟩

/-- A run that is not stopped comes to all its stages. -/
theorem map_stage_arrivals_of_ok {results : List StageResult} {stages : List Stage}
    (h : (runFrom host total position s piped stages).2 = .ok results) :
    (arrivals host total position s piped stages).map Arrival.stage = stages := by
  induction position, s, piped, stages using runFrom_induction host total generalizing results with
  | nil => rfl
  | stopped position s piped stage rest done stop hrun =>
    rw [(runFrom_of_stopped hrun).1] at h
    cases h
  | passed position s piped stage rest done result hrun ih =>
    obtain ⟨hruns, harrivals⟩ := runFrom_of_passed hrun
    rw [hruns] at h
    rw [harrivals, List.map_cons]
    simp only at h
    generalize (runFrom host total (position + 1) _ _ rest).2 = answer at h ih
    cases answer with
    | error stop => cases h
    | ok others => rw [ih rfl, arrival]

/-- The last stage of a run is the one after which there is none. -/
theorem last_arrivals (host : Host) (total position : Nat) (s : Session) (piped : Option Bytes)
    (stages : List Stage) {k : Nat} {a : Arrival}
    (h : (arrivals host total position s piped stages)[k]? = some a) :
    a.last = decide (k + 1 = stages.length) := by
  induction stages generalizing position s piped k with
  | nil => cases h
  | cons stage rest ih =>
    simp only [arrivals] at h
    cases k with
    | zero =>
      cases h
      simp [arrival]
    | succ k =>
      simp only [List.getElem?_cons_succ] at h
      split at h
      · cases h
      · rw [ih _ _ _ h]
        simp

/-! ## How a run goes -/

theorem course_runFrom (host : Host) (total position : Nat) (s : Session) (piped : Option Bytes)
    (stages : List Stage) :
    Course host (arrivals host total position s piped stages)
      (runFrom host total position s piped stages).2 := by
  induction position, s, piped, stages using runFrom_induction host total with
  | nil => exact .ended
  | stopped position s piped stage rest done stop hrun =>
    obtain ⟨hruns, harrivals⟩ := runFrom_of_stopped hrun
    rw [hruns, harrivals]
    exact .stopped (congrArg Prod.snd hrun)
  | passed position s piped stage rest done result hrun ih =>
    obtain ⟨hruns, harrivals⟩ := runFrom_of_passed hrun
    rw [hruns, harrivals]
    exact .passed (congrArg Prod.snd hrun) ih

/-- What each step of a run preserves holds whenever the run comes to a stage. -/
theorem forall_arrivals {P : Session → Prop}
    (hannounced : ∀ position s stage, P s → P (announced host position total s stage))
    (hrun : ∀ a : Arrival, P a.session → P (a.run host).1)
    (hcompleted : ∀ position s stage, P s → P (s.note host (.stage position total .completed stage)))
    (position : Nat) (s : Session) (piped : Option Bytes) (stages : List Stage) (h : P s) :
    ∀ a ∈ arrivals host total position s piped stages, P a.session := by
  induction position, s, piped, stages using runFrom_induction host total with
  | nil => exact fun a ha => nomatch ha
  | stopped position s piped stage rest done stop hrun =>
    rw [(runFrom_of_stopped hrun).2]
    exact List.forall_mem_singleton.2 (hannounced position s stage h)
  | passed position s piped stage rest done result hfirst ih =>
    rw [(runFrom_of_passed hfirst).2]
    have hhere : P (arrival host total position s piped stage rest).session :=
      hannounced position s stage h
    have hdone := hrun _ hhere
    rw [hfirst] at hdone
    exact List.forall_mem_cons.2 ⟨hhere, ih (hcompleted position done stage hdone)⟩

/-- What each stage adds to a text, a run adds in order. -/
theorem gathered_runFrom {text : Session → Bytes} {before : Stage → Bytes} {added : Arrival → Bytes}
    (hannounced : ∀ position s stage,
      text (announced host position total s stage) = text s ++ before stage)
    (hcompleted : ∀ position s stage,
      text (s.note host (.stage position total .completed stage)) = text s)
    (position : Nat) (s : Session) (piped : Option Bytes) (stages : List Stage)
    (hadded : ∀ a ∈ arrivals host total position s piped stages,
      text (a.run host).1 = text a.session ++ added a) :
    text (runFrom host total position s piped stages).1 = text s ++
      (arrivals host total position s piped stages).flatMap fun a => before a.stage ++ added a := by
  induction position, s, piped, stages using runFrom_induction host total with
  | nil => exact (List.append_nil _).symm
  | stopped position s piped stage rest done stop hrun =>
    obtain ⟨hruns, harrivals⟩ := runFrom_of_stopped hrun
    rw [harrivals] at hadded ⊢
    have hfirst := hadded _ List.mem_cons_self
    rw [hrun] at hfirst
    simp only [hruns, hfirst, arrival, hannounced, List.flatMap_singleton, List.append_assoc]
  | passed position s piped stage rest done result hrun ih =>
    obtain ⟨hruns, harrivals⟩ := runFrom_of_passed hrun
    rw [harrivals] at hadded ⊢
    have hfirst := hadded _ List.mem_cons_self
    have hrest := ih fun a ha => hadded a (List.mem_cons_of_mem _ ha)
    rw [hrun] at hfirst
    simp only [hruns, hrest, hcompleted, hfirst, arrival, hannounced, List.flatMap_cons,
      List.append_assoc]

/-! ## Lines -/

variable {line : String}

theorem course_runLine (host : Host) (s : Session) (line : String) :
    Course host (s.lineArrivals host line) (s.runLine host line).2 :=
  course_runFrom host _ _ _ none _

/-- A line comes to its first stages, in order. -/
theorem map_stage_lineArrivals (host : Host) (s : Session) (line : String) :
    (s.lineArrivals host line).map Arrival.stage <+: (Pipeline.ofLine line).stages :=
  map_stage_arrivals host _ _ _ none _

/-- A line that is not stopped comes to all its stages, and each has a result. -/
theorem map_stage_lineArrivals_of_ok {results : List StageResult}
    (h : (s.runLine host line).2 = .ok results) :
    (s.lineArrivals host line).map Arrival.stage = (Pipeline.ofLine line).stages ∧
      results.length = (Pipeline.ofLine line).stages.length := by
  have hstages : (s.lineArrivals host line).map Arrival.stage = (Pipeline.ofLine line).stages :=
    map_stage_arrivals_of_ok h
  have hcourse := course_runLine host s line
  rw [h] at hcourse
  refine ⟨hstages, ?_⟩
  rw [← hstages, List.length_map, hcourse.results.length_eq]

theorem last_lineArrivals {i : Nat} {a : Arrival} (h : (s.lineArrivals host line)[i]? = some a) :
    a.last = decide (i + 1 = (Pipeline.ofLine line).stages.length) :=
  last_arrivals host _ _ _ none _ h

/-- A line comes to no stage after its last one. -/
theorem getLast?_lineArrivals {a : Arrival} (ha : a ∈ s.lineArrivals host line) (hlast : a.last) :
    (s.lineArrivals host line).getLast? = some a := by
  obtain ⟨i, hi⟩ := List.mem_iff_getElem?.1 ha
  have hend : i + 1 = (Pipeline.ofLine line).stages.length := by
    simpa [last_lineArrivals hi] using hlast
  have hlength := (map_stage_lineArrivals host s line).length_le
  have hbound := (List.getElem?_eq_some_iff.1 hi).1
  rw [List.length_map] at hlength
  have hlastIndex : (s.lineArrivals host line).length - 1 = i := by omega
  rw [List.getLast?_eq_getElem?, hlastIndex, hi]

end Session

end PipelineShell
