import PipelineShell.Proofs.Deeds
import PipelineShell.Proofs.Small

/-!
# The lifecycle of stages

What a line notes falls into spans, one for each stage that it comes to: the stage is pending, it is
running, then comes what is noted about its work, and at last it has completed, unless it stops the line
(`runFrom_journal`). What stands between the phases of a stage concerns this stage (`notes_run`). So the
stages go through their phases one after the other, none is left out and none comes twice, and the next
stage starts in the session that the one before has left when it had completed (`execute_lifecycle`).
-/

namespace PipelineShell

/-! ## Records -/

namespace Event

/-- A stage has entered a phase. -/
def isPhase : Event → Bool
  | stage .. => true
  | _ => false

/-- The record is about the work of a stage: about a redirection of it, about one of its names, or about
the builtin or the program that it runs. -/
def Concerns (stage : Stage) : Event → Prop
  | opened stream _ appends => ∃ r, stage.redirection? stream = some r ∧ r.operator.appends = appends
  | resolved name _ => name ∈ stage.argv
  | notFound name => name ∈ stage.argv
  | builtin name args => stage.argv = name :: args
  | moved _ => stage.name = "cd"
  | starting _ argv => argv = stage.argv
  | startFailed .. => stage.argv ≠ []
  | stageAborted .. => stage.argv ≠ []
  | ended name _ => stage.argv.head? = some name
  | _ => False

/-- The record is about no stage. -/
def Apart (event : Event) : Prop := event.isPhase = false ∧ ∀ stage, ¬event.Concerns stage

theorem filter_isPhase {events : List Event} (h : ∀ event ∈ events, event.isPhase = false) :
    events.filter isPhase = [] := by
  rw [List.filter_eq_nil_iff]
  intro event hevent
  simp [h event hevent]

theorem isPhase_of_concerns {stage : Stage} {event : Event} (h : event.Concerns stage) :
    event.isPhase = false := by
  cases event with
  | stage position total phase other => cases h
  | _ => rfl

end Event

/-- The words of a stage with a command are its name and its arguments. -/
theorem Stage.argv_eq {stage : Stage} (h : stage.argv ≠ []) : stage.argv = stage.name :: stage.args := by
  unfold Stage.name Stage.args
  cases hargv : stage.argv with
  | nil => exact absurd hargv h
  | cons name args => rfl

namespace Session

/-- From one session to a later one records are made, each of them with `P`. -/
def Notes (P : Event → Prop) (s s' : Session) : Prop :=
  ∃ events, s'.journal = s.journal ++ events ∧ ∀ event ∈ events, P event

namespace Notes

variable {P : Event → Prop} {s s' s'' : Session}

theorem of_journal (h : s'.journal = s.journal) : Notes P s s' :=
  ⟨[], by rw [h, List.append_nil], List.forall_mem_nil _⟩

theorem refl (s : Session) : Notes P s s := of_journal rfl

theorem trans (h : Notes P s s') (h' : Notes P s' s'') : Notes P s s'' := by
  obtain ⟨events, hjournal, hall⟩ := h
  obtain ⟨later, hjournal', hall'⟩ := h'
  refine ⟨events ++ later, ?_, List.forall_mem_append.2 ⟨hall, hall'⟩⟩
  rw [hjournal', hjournal, List.append_assoc]

theorem note (host : Host) (s : Session) {event : Event} (h : P event) : Notes P s (s.note host event) :=
  ⟨[event], note_journal host s event, List.forall_mem_singleton.2 h⟩

theorem noteAll (host : Host) (s : Session) {events : List Event} (h : ∀ event ∈ events, P event) :
    Notes P s (s.noteAll host events) :=
  ⟨events, noteAll_journal host s events, h⟩

end Notes

variable {host : Host} {s : Session} {stage : Stage} {names : List String} {name : String}

/-! ## What the work of a stage notes -/

theorem deliverError_journal (s : Session) (channels : Channels) (text : Bytes) :
    (s.deliverError channels text).journal = s.journal := by
  unfold deliverError
  split <;> rfl

theorem deliverOutput_journal (s : Session) (channels : Channels) (last : Bool) (text : Bytes) :
    (s.deliverOutput channels last text).1.journal = s.journal := by
  unfold deliverOutput
  split
  · rfl
  · split <;> rfl

theorem notes_openOutput (host : Host) (s : Session) (stage : Stage) (stream : Stream) :
    Notes (Event.Concerns stage) s (s.openOutput host stage stream).1 := by
  obtain ⟨-, hnone⟩ | ⟨r, made, hr, -, hcase⟩ := openOutput_cases host s stage stream
  · rw [hnone]
    exact .refl s
  · obtain ⟨failure, hfailed⟩ | ⟨opened, handle, -, hopened⟩ := hcase
    · rw [hfailed]
      exact .of_journal rfl
    · rw [hopened]
      have hfiles : Notes (Event.Concerns stage) s { s with files := opened } := .of_journal rfl
      exact hfiles.trans (.note host _ ⟨r, hr, rfl⟩)

theorem notes_openChannels (host : Host) (s : Session) (stage : Stage) :
    Notes (Event.Concerns stage) s (s.openChannels host stage).1 :=
  openChannels_preserves .refl .trans (fun s stream => notes_openOutput host s stage stream) s

theorem notes_findCommand (host : Host) (s : Session) (hname : name ∈ stage.argv) :
    Notes (Event.Concerns stage) s (s.findCommand host name).1 := by
  have hfound : Notes (Event.Concerns stage) s (s.findProgram host name).1 := by
    unfold findProgram
    split
    · exact .refl s
    · split
      · exact .refl s
      · split
        · exact .note host s hname
        · exact .refl s
  unfold findCommand
  split
  · exact .refl s
  · generalize s.findProgram host name = r at hfound ⊢
    obtain ⟨found, answer⟩ := r
    cases answer with
    | error r => exact hfound
    | ok path =>
      cases path with
      | some path => exact hfound
      | none => exact hfound.trans (.note host found hname)

theorem notes_describeAll (host : Host) (s : Session) (hnames : ∀ name ∈ names, name ∈ stage.argv) :
    Notes (Event.Concerns stage) s (s.describeAll host names).1 := by
  induction names generalizing s with
  | nil => exact .refl s
  | cons name rest ih =>
    obtain ⟨hname, hrest⟩ := List.forall_mem_cons.1 hnames
    have hfound := notes_findCommand host s hname
    simp only [describeAll]
    generalize s.findCommand host name = r at hfound ⊢
    obtain ⟨found, answer⟩ := r
    cases answer with
    | error r => exact hfound
    | ok command => exact hfound.trans (ih found hrest)

theorem notes_moveTo (host : Host) (s : Session) (hname : stage.name = "cd") (args : List String) :
    Notes (Event.Concerns stage) s (s.moveTo host args).1 := by
  have henter : ∀ path, Notes (Event.Concerns stage) s (s.enter host path).1 := by
    intro path
    unfold enter
    split
    · exact .refl s
    · obtain ⟨e, hstays⟩ | ⟨place, -, hmoved⟩ := changeDirectory_cases host s path
      · rw [hstays]
        exact .refl s
      · rw [hmoved]
        have hthere : Notes (Event.Concerns stage) s { s with directory := path, processPlace := place } :=
          .of_journal rfl
        exact hthere.trans (.note host _ hname)
  match args with
  | [] =>
    rw [moveTo_eq host s (by simp)]
    exact henter _
  | [arg] =>
    rw [moveTo_eq host s (by simp)]
    exact henter _
  | _ :: _ :: _ => exact .refl s

theorem notes_perform (host : Host) (s : Session) {b : Builtin} (hargv : stage.argv = b.name :: stage.args) :
    Notes (Event.Concerns stage) s (s.perform host b stage.args).1 := by
  have hnoted : Notes (Event.Concerns stage) s (s.note host (.builtin b.name stage.args)) :=
    .note host s hargv
  cases b with
  | exit => exact hnoted
  | echo => exact hnoted
  | pwd => exact hnoted
  | type =>
    have hnames : ∀ name ∈ stage.args, name ∈ stage.argv := fun name hname => List.mem_of_mem_tail hname
    exact hnoted.trans (notes_describeAll host _ hnames)
  | cd =>
    have hname : stage.name = "cd" := by
      rw [Stage.name, hargv]
      rfl
    exact hnoted.trans (notes_moveTo host _ hname stage.args)

theorem notes_runBuiltin (host : Host) (s : Session) {b : Builtin}
    (hargv : stage.argv = b.name :: stage.args) (channels : Channels) (last : Bool) :
    Notes (Event.Concerns stage) s (s.runBuiltin host stage b channels last).1 := by
  refine (notes_perform host s hargv).trans (.of_journal ?_)
  simp only [runBuiltin, deliverOutput_journal, deliverError_journal]

theorem notes_launch (host : Host) (s : Session) {order : Order} (hargv : order.argv = stage.argv)
    (hne : stage.argv ≠ []) : Notes (Event.Concerns stage) s (s.launch host order).1 := by
  have hcounted : Notes (Event.Concerns stage) s (s.counted host order) :=
    ⟨[.starting order.path order.argv], note_journal host _ _, List.forall_mem_singleton.2 hargv⟩
  rw [launch_eq]
  generalize s.counted host order = u at hcounted ⊢
  split
  · exact hcounted
  · next e about _ =>
    have hmissed : Notes (Event.Concerns stage) u (u.missed host order e about) :=
      ⟨[.startFailed order.path e about], note_journal host _ _, List.forall_mem_singleton.2 hne⟩
    exact hcounted.trans hmissed
  · next found _ =>
    have hended : ∀ event ∈
        order.argv.head?.toList.map (Event.ended · (u.performance order found).status),
        event.Concerns stage := by
      intro event hevent
      obtain ⟨name, hname, rfl⟩ := List.mem_map.1 hevent
      rw [hargv] at hname
      exact Option.mem_toList.1 hname
    have hfinished : Notes (Event.Concerns stage) u
        (u.finished host order (u.performance order found)) :=
      ⟨_, noteAll_journal host _ _, hended⟩
    exact hcounted.trans hfinished

theorem notes_runProgram (host : Host) (s : Session) (hne : stage.argv ≠ []) (path : String)
    (input : Option Bytes) (channels : Channels) (last : Bool) :
    Notes (Event.Concerns stage) s (s.runProgram host stage path input channels last).1 := by
  have hlaunch : Notes (Event.Concerns stage) s
      (s.flush.launch host (s.orderOf host stage path input channels last)).1 :=
    (Notes.of_journal rfl).trans (notes_launch host s.flush rfl hne)
  unfold runProgram
  generalize s.flush.launch host _ = r at hlaunch ⊢
  obtain ⟨launched, answer⟩ := r
  cases answer with
  | error failure =>
    cases failure with
    | refused r => exact hlaunch
    | system e about =>
      have hnoted : Notes (Event.Concerns stage) launched (launched.note host (.stageAborted path e)) :=
        .note host launched hne
      exact hlaunch.trans (hnoted.trans (.of_journal (deliverError_journal _ channels _)))
  | ok outcome =>
    simp only
    split
    · exact hlaunch.trans (.of_journal rfl)
    · exact hlaunch.trans (.of_journal rfl)

theorem notes_runCommand (host : Host) (s : Session) (stage : Stage) (piped : Option Bytes)
    (channels : Channels) (last : Bool) :
    Notes (Event.Concerns stage) s (s.runCommand host stage piped channels last).1 := by
  unfold runCommand
  split
  · exact .refl s
  · next hne =>
    have hargv := Stage.argv_eq hne
    have hname : stage.name ∈ stage.argv := by
      rw [hargv]
      exact List.mem_cons_self
    have hfound := notes_findCommand host s hname
    have hbuiltin := @name_of_findCommand host s stage.name
    generalize s.findCommand host stage.name = r at hfound hbuiltin ⊢
    obtain ⟨found, answer⟩ := r
    cases answer with
    | error r => exact hfound
    | ok command =>
      cases command with
      | builtin b =>
        rw [← hbuiltin rfl] at hargv
        exact hfound.trans (notes_runBuiltin host found hargv channels last)
      | unknown => exact hfound.trans (.of_journal (deliverError_journal found channels _))
      | program path => exact hfound.trans (notes_runProgram host found hne path _ channels last)

end Session

namespace Arrival

open Session

/-- All that a stage notes while it runs concerns it. -/
theorem notes_run (host : Host) (a : Arrival) :
    Notes (Event.Concerns a.stage) a.session (a.run host).1 := by
  have hopened := notes_openChannels host a.session a.stage
  unfold run runStage
  generalize a.session.openChannels host a.stage = r at hopened ⊢
  obtain ⟨ready, answer⟩ := r
  cases answer with
  | error stop => exact hopened
  | ok channels => exact hopened.trans (notes_runCommand host ready a.stage a.piped channels a.last)

/-- What a stage notes while it runs. -/
def records (host : Host) (a : Arrival) : List Event :=
  (a.run host).1.journal.drop a.session.journal.length

theorem run_journal (host : Host) (a : Arrival) :
    (a.run host).1.journal = a.session.journal ++ a.records host ∧
      ∀ event ∈ a.records host, event.Concerns a.stage := by
  obtain ⟨events, hjournal, hconcerns⟩ := a.notes_run host
  have hrecords : a.records host = events := by
    rw [records, hjournal, List.drop_left]
  rw [hrecords]
  exact ⟨hjournal, hconcerns⟩

/-- A stage from the first record of it to the last one. -/
def span (host : Host) (total position : Nat) (a : Arrival) : List Event :=
  .stage position total .pending a.stage :: .stage position total .running a.stage :: (a.records host ++
    if (a.run host).2.isOk then [.stage position total .completed a.stage] else [])

theorem filter_span (host : Host) (total position : Nat) (a : Arrival) :
    (a.span host total position).filter Event.isPhase =
      .stage position total .pending a.stage :: .stage position total .running a.stage ::
        if (a.run host).2.isOk then [.stage position total .completed a.stage] else [] := by
  have hrecords : (a.records host).filter Event.isPhase = [] := Event.filter_isPhase fun event hevent =>
    Event.isPhase_of_concerns ((a.run_journal host).2 event hevent)
  unfold span
  simp only [List.filter_cons, List.filter_append, hrecords, Event.isPhase, if_true, List.nil_append]
  split <;> rfl

end Arrival

namespace Session

variable {host : Host}

/-! ## Runs -/

/-- The spans of some stages, counted from the given position on. -/
def spans (host : Host) (total : Nat) : Nat → List Arrival → List Event
  | _, [] => []
  | position, a :: rest => a.span host total position ++ spans host total (position + 1) rest

/-- What is noted of phases if the first `k` of some stages complete: these go through all phases, one
stage after the other, and the stage after them, if there is one, does not complete. -/
def phases (total position : Nat) (stages : List Stage) (k : Nat) : List Event :=
  (((stages.take k).zipIdx position).flatMap fun (stage, i) =>
    [.stage i total .pending stage, .stage i total .running stage, .stage i total .completed stage]) ++
  ((stages[k]?).map fun stage =>
    [.stage (position + k) total .pending stage, .stage (position + k) total .running stage]).getD []

theorem phases_succ (total position : Nat) (stage : Stage) (rest : List Stage) (k : Nat) :
    phases total position (stage :: rest) (k + 1) =
      .stage position total .pending stage :: .stage position total .running stage ::
        .stage position total .completed stage :: phases total (position + 1) rest k := by
  have hposition : position + (k + 1) = position + 1 + k := by omega
  simp only [phases, List.take_succ_cons, List.zipIdx_cons, List.flatMap_cons, List.getElem?_cons_succ,
    hposition, List.cons_append, List.nil_append]

/-- A stage after the other starts in the session that the one before has left when it had completed. The
first one starts in the given session. -/
inductive InTurn (host : Host) (total : Nat) : Nat → Session → List Arrival → Prop
  | nil {position : Nat} {s : Session} : InTurn host total position s []
  | cons {position : Nat} {s : Session} {a : Arrival} {rest : List Arrival}
    (hstart : a.session = announced host position total s a.stage)
    (hrest : InTurn host total (position + 1)
      ((a.run host).1.note host (.stage position total .completed a.stage)) rest) :
    InTurn host total position s (a :: rest)

/-- Of some stages the first `k` complete, and the one after them, if there is one, is come to and stops
the line. -/
structure Completes (host : Host) (stages : List Stage) (reached : List Arrival)
    (answer : Except Stop (List StageResult)) (k : Nat) : Prop where
  bound : k ≤ stages.length
  comes : reached.map Arrival.stage = stages.take (k + 1)
  passes : ∀ i a, reached[i]? = some a → ((a.run host).2.isOk ↔ i < k)
  answer : answer.isOk ↔ k = stages.length

theorem Completes.nil : Completes host [] [] (.ok []) 0 where
  bound := Nat.le_refl 0
  comes := rfl
  passes := fun _ _ ha => nomatch ha
  answer := iff_of_true rfl rfl

theorem Completes.passed {stage : Stage} {rest : List Stage} {a : Arrival} {reached : List Arrival}
    {result : StageResult} {answer : Except Stop (List StageResult)} {k : Nat} (hstage : a.stage = stage)
    (hrun : (a.run host).2 = .ok result) (h : Completes host rest reached answer k) :
    Completes host (stage :: rest) (a :: reached) (answer.map (result :: ·)) (k + 1) := by
  constructor
  case bound => exact Nat.succ_le_succ h.bound
  case comes => rw [List.map_cons, List.take_succ_cons, hstage, h.comes]
  case passes =>
    intro i b hb
    cases i with
    | zero =>
      cases hb
      simp [hrun, Except.isOk, Except.toBool]
    | succ i => rw [h.passes i b hb, Nat.add_lt_add_iff_right]
  case answer =>
    have hanswer : (answer.map (result :: ·)).isOk = answer.isOk := by
      cases answer <;> rfl
    rw [hanswer, h.answer, List.length_cons, Nat.add_right_cancel_iff]

theorem Completes.stopped {stage : Stage} {rest : List Stage} {a : Arrival} {stop : Stop}
    (hstage : a.stage = stage) (hrun : (a.run host).2 = .error stop) :
    Completes host (stage :: rest) [a] (.error stop) 0 := by
  constructor
  case bound => exact Nat.zero_le _
  case comes => rw [List.map_singleton, hstage, List.take_succ_cons, List.take_zero]
  case passes =>
    intro i b hb
    cases i with
    | zero =>
      cases hb
      simp [hrun, Except.isOk, Except.toBool]
    | succ i => cases hb
  case answer => simp [Except.isOk, Except.toBool]

theorem announced_journal (host : Host) (position total : Nat) (s : Session) (stage : Stage) :
    (announced host position total s stage).journal = s.journal ++
      [.stage position total .pending stage, .stage position total .running stage] := by
  unfold announced
  rw [note_journal, foldl_report]
  change (s.note host _).journal ++ _ = _
  rw [note_journal, List.append_assoc]
  rfl

section OneStage

variable {total position : Nat} {s done : Session} {piped : Option Bytes} {stage : Stage} {rest : List Stage}

/-- Up to its end a stage notes its span. -/
theorem journal_of_stopped {stop : Stop}
    (h : (arrival host total position s piped stage rest).run host = (done, .error stop)) :
    done.journal =
      s.journal ++ (arrival host total position s piped stage rest).span host total position := by
  have hrun := ((arrival host total position s piped stage rest).run_journal host).1
  have hstart : (arrival host total position s piped stage rest).session.journal = _ :=
    announced_journal host position total s stage
  rw [h, hstart] at hrun
  rw [hrun, Arrival.span, h]
  simp [arrival, Except.isOk, Except.toBool]

theorem journal_of_passed {result : StageResult}
    (h : (arrival host total position s piped stage rest).run host = (done, .ok result)) :
    (done.note host (.stage position total .completed stage)).journal =
      s.journal ++ (arrival host total position s piped stage rest).span host total position := by
  have hrun := ((arrival host total position s piped stage rest).run_journal host).1
  have hstart : (arrival host total position s piped stage rest).session.journal = _ :=
    announced_journal host position total s stage
  rw [h, hstart] at hrun
  rw [note_journal, hrun, Arrival.span, h]
  simp [arrival, Except.isOk, Except.toBool]

end OneStage

/-- A run notes the spans of the stages that it comes to. -/
theorem runFrom_journal (host : Host) (total position : Nat) (s : Session) (piped : Option Bytes)
    (stages : List Stage) :
    (runFrom host total position s piped stages).1.journal =
      s.journal ++ spans host total position (arrivals host total position s piped stages) := by
  induction position, s, piped, stages using runFrom_induction host total with
  | nil => exact (List.append_nil _).symm
  | stopped position s piped stage rest done stop hstop =>
    obtain ⟨hruns, harrivals⟩ := runFrom_of_stopped hstop
    rw [hruns, harrivals, spans, spans, List.append_nil]
    exact journal_of_stopped hstop
  | passed position s piped stage rest done result hpass ih =>
    obtain ⟨hruns, harrivals⟩ := runFrom_of_passed hpass
    rw [hruns, harrivals, spans, ← List.append_assoc, ← journal_of_passed hpass]
    exact ih

theorem inTurn_arrivals (host : Host) (total position : Nat) (s : Session) (piped : Option Bytes)
    (stages : List Stage) :
    InTurn host total position s (arrivals host total position s piped stages) := by
  induction position, s, piped, stages using runFrom_induction host total with
  | nil => exact .nil
  | stopped position s piped stage rest done stop hstop =>
    rw [(runFrom_of_stopped hstop).2]
    exact .cons rfl .nil
  | passed position s piped stage rest done result hpass ih =>
    rw [(runFrom_of_passed hpass).2]
    refine .cons rfl ?_
    rw [hpass]
    exact ih

/-- Some first stages of a run complete, and the phases that are noted tell how many. -/
theorem completes_runFrom (host : Host) (total position : Nat) (s : Session) (piped : Option Bytes)
    (stages : List Stage) :
    let reached := arrivals host total position s piped stages
    ∃ k, Completes host stages reached (runFrom host total position s piped stages).2 k ∧
      (spans host total position reached).filter Event.isPhase = phases total position stages k := by
  induction position, s, piped, stages using runFrom_induction host total with
  | nil => exact ⟨0, .nil, rfl⟩
  | stopped position s piped stage rest done stop hstop =>
    obtain ⟨hruns, harrivals⟩ := runFrom_of_stopped hstop
    have hstopped := congrArg Prod.snd hstop
    rw [hruns, harrivals]
    refine ⟨0, .stopped rfl hstopped, ?_⟩
    rw [spans, spans, List.append_nil, Arrival.filter_span, hstopped]
    rfl
  | passed position s piped stage rest done result hpass ih =>
    obtain ⟨hruns, harrivals⟩ := runFrom_of_passed hpass
    have hpassed := congrArg Prod.snd hpass
    obtain ⟨k, hcompletes, hphases⟩ := ih
    rw [hruns, harrivals]
    refine ⟨k + 1, .passed rfl hpassed hcompletes, ?_⟩
    rw [spans, List.filter_append, hphases, Arrival.filter_span, hpassed, phases_succ]
    rfl

/-! ## Lines -/

theorem apart_readingEvents (line : String) : ∀ event ∈ readingEvents line, event.Apart := by
  unfold readingEvents
  split
  · exact List.forall_mem_nil _
  · refine List.forall_mem_append.2 ⟨?_, List.forall_mem_singleton.2 ⟨rfl, fun _ h => h⟩⟩
    intro event hevent
    obtain ⟨segment, -, rfl⟩ := List.mem_map.1 hevent
    exact ⟨rfl, fun _ h => h⟩

/-- After the stages of a line only a failed redirection is noted. -/
theorem notes_ended (host : Host) (s : Session) (line : String) :
    Notes Event.Apart (s.runLine host line).1 (s.execute host line).1 := by
  rw [execute_eq]
  generalize s.runLine host line = r
  obtain ⟨done, answer⟩ := r
  cases answer with
  | ok results => exact .refl done
  | error stop =>
    cases stop with
    | leave code => exact .refl done
    | unwritten e => exact .refl done
    | refused refusal => exact .refl done
    | badRedirection command target e =>
      have hnoted : Notes Event.Apart done
          (done.note host (.lineAborted (Diagnosis.badRedirection command target e.reason))) :=
        .note host done ⟨rfl, fun _ h => h⟩
      exact hnoted.trans (.of_journal rfl)

/-- What a line notes are the spans of the stages that it comes to, one after the other, and before and
after them only what is about no stage. For some `k` the first `k` stages go through all phases and
complete; the one after them, unless these were all, is still running when it stops the line. The work
of a stage is noted while it is running, and it starts with what the stage before it has left when it
had completed. -/
theorem execute_lifecycle (host : Host) (s : Session) (line : String) :
    let stages := (Pipeline.ofLine line).stages
    let reached := s.lineArrivals host line
    let noted := spans host stages.length 1 reached
    ∃ before after k,
      (s.execute host line).1.journal = s.journal ++ (before ++ noted ++ after) ∧
      (∀ event ∈ before ++ after, event.Apart) ∧
      (∀ a ∈ reached, ∀ event ∈ a.records host, event.Concerns a.stage) ∧
      Completes host stages reached (s.runLine host line).2 k ∧
      (before ++ noted ++ after).filter Event.isPhase = phases stages.length 1 stages k ∧
      InTurn host stages.length 1 (s.noteAll host before) reached := by
  intro stages reached noted
  have hbefore := apart_readingEvents line
  obtain ⟨after, hended, hafter⟩ := notes_ended host s line
  have hran : (s.runLine host line).1.journal = s.journal ++ readingEvents line ++ noted := by
    rw [← noteAll_journal host s (readingEvents line)]
    exact runFrom_journal host stages.length 1 _ none stages
  obtain ⟨k, hcompletes, hphases⟩ :=
    completes_runFrom host stages.length 1 (s.noteAll host (readingEvents line)) none stages
  have hnoneBefore := Event.filter_isPhase fun event hevent => (hbefore event hevent).1
  have hnoneAfter := Event.filter_isPhase fun event hevent => (hafter event hevent).1
  refine ⟨readingEvents line, after, k, ?journal, List.forall_mem_append.2 ⟨hbefore, hafter⟩,
    fun a _ => (a.run_journal host).2, hcompletes, ?phases,
    inTurn_arrivals host stages.length 1 _ none stages⟩
  case journal => rw [hended, hran, List.append_assoc, List.append_assoc, List.append_assoc]
  case phases =>
    rw [List.filter_append, List.filter_append, hnoneBefore, hnoneAfter, List.nil_append, List.append_nil]
    exact hphases

/-- The input file of the second of three stages is missing. -/
example :
    let line := "echo a | /upper < nope | echo b"
    (Small.session.execute Small.host line).1.journal.filter Event.isPhase =
      phases 3 1 (Pipeline.ofLine line).stages 1 := by
  decide +kernel

end Session

end PipelineShell
