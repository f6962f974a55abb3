import PipelineShell.Proofs.Beside
import PipelineShell.Proofs.Small
import PipelineShell.Proofs.Told

/-!
# Stages that cannot be run

A stage whose command is not found, or does not start, does nothing but report that. The line goes on as
if the stage had no command at all: its redirections are opened as before, the next stage finds an empty
pipe, and only the report is missing. `isolated_stage` compares the two runs, which are the same up to
the stage and afterwards are in sessions that are `Beside` each other, which no later stage can tell
apart.
-/

namespace PipelineShell

/-- A stage without its command. Its redirections and what is wrong with its words stay. -/
def Stage.emptied (stage : Stage) : Stage := { stage with argv := [] }

namespace Session

variable {host : Host} {s s' : Session} {before before' : Bytes}

/-! ## Redirections without a command -/

/-- Two answers are the same, or they are stops by one failure at a redirection of a stage, the second
one named as if the stage had no command. -/
inductive Renamed (stage : Stage) {α : Type} : Except Stop α → Except Stop α → Prop
  | same (answer : Except Stop α) : Renamed stage answer answer
  | cut {stream : Stream} {r : Redirection} (hr : stage.redirection? stream = some r)
    (failure : Failure) :
    Renamed stage (.error (stopAt stage r failure)) (.error (stopAt stage.emptied r failure))

variable {stage : Stage}

theorem Renamed.map {α β : Type} {answer answer' : Except Stop α} (h : Renamed stage answer answer')
    (f : α → β) : Renamed stage (answer.map f) (answer'.map f) := by
  cases h with
  | same => exact .same _
  | cut hr failure => exact .cut hr failure

theorem renamed_readInput (s : Session) (stage : Stage) :
    Renamed stage (s.readInput stage) (s.readInput stage.emptied) := by
  have hsame : stage.emptied.redirection? .stdin = stage.redirection? .stdin := rfl
  unfold readInput
  rw [hsame]
  cases hr : stage.redirection? .stdin with
  | none => exact .same _
  | some r =>
    simp only
    split
    · exact .same _
    · next failure _ => exact .cut hr failure

theorem renamed_openOutput (host : Host) (s : Session) (stage : Stage) (stream : Stream) :
    (s.openOutput host stage.emptied stream).1 = (s.openOutput host stage stream).1 ∧
      Renamed stage (s.openOutput host stage stream).2 (s.openOutput host stage.emptied stream).2 := by
  have hsame : stage.emptied.redirection? stream = stage.redirection? stream := rfl
  unfold openOutput
  rw [hsame]
  cases hr : stage.redirection? stream with
  | none => exact ⟨rfl, .same _⟩
  | some r =>
    simp only
    split
    · next failure _ => exact ⟨rfl, .cut hr failure⟩
    · split
      · next failure _ => exact ⟨rfl, .cut hr failure⟩
      · exact ⟨rfl, .same _⟩

/-- The redirections of a stage open the same without its command. -/
theorem renamed_openChannels (host : Host) (s : Session) (stage : Stage) :
    (s.openChannels host stage.emptied).1 = (s.openChannels host stage).1 ∧
      Renamed stage (s.openChannels host stage).2 (s.openChannels host stage.emptied).2 := by
  have hinput := renamed_readInput s stage
  have houtput := renamed_openOutput host s stage .stdout
  unfold openChannels
  generalize s.readInput stage = input at hinput ⊢
  generalize s.readInput stage.emptied = input' at hinput ⊢
  generalize s.openOutput host stage .stdout = first at houtput ⊢
  generalize s.openOutput host stage.emptied .stdout = first' at houtput ⊢
  obtain ⟨opened, out⟩ := first
  obtain ⟨opened', out'⟩ := first'
  obtain ⟨hopened, houtput⟩ := houtput
  obtain rfl : opened = opened' := hopened.symm
  cases hinput with
  | cut hr failure => exact ⟨rfl, .cut hr failure⟩
  | same =>
    cases input with
    | error stop => exact ⟨rfl, .same _⟩
    | ok bytes =>
      cases houtput with
      | cut hr failure => exact ⟨rfl, .cut hr failure⟩
      | same =>
        cases out with
        | error stop => exact ⟨rfl, .same _⟩
        | ok out =>
          have herrors := renamed_openOutput host opened stage .stderr
          simp only
          generalize opened.openOutput host stage .stderr = second at herrors ⊢
          generalize opened.openOutput host stage.emptied .stderr = second' at herrors ⊢
          obtain ⟨ready, err⟩ := second
          obtain ⟨ready', err'⟩ := second'
          obtain ⟨hready, herrors⟩ := herrors
          obtain rfl : ready = ready' := hready.symm
          cases herrors with
          | cut hr failure => exact ⟨rfl, .cut hr failure⟩
          | same => cases err <;> exact ⟨rfl, .same _⟩

/-! ## Commands that cannot be run -/

variable {channels : Channels}

theorem Beside.delivered (h : Beside host before s'.err s s') (herr : channels.err = none)
    (text : Bytes) :
    Beside host (before ++ text) s'.err (s.deliverError channels text) s' := by
  unfold deliverError
  rw [herr]
  exact h.reported text

/-- A command that cannot be run is reported, and nothing else is done. -/
theorem beside_of_failure {piped : Option Bytes} {last : Bool} {status : Int}
    (hdeed : (s.deed host stage piped channels last).failure? = some status)
    (herr : channels.err = none) :
    Beside host (s.err ++ Text.encode (Diagnosis.unknownCommand stage.name).line) s.err
      (s.runCommand host stage piped channels last).1 s := by
  have hfound : Beside host s.err s.err (s.findCommand host stage.name).1 s := by
    obtain ⟨events, hnotes, hlevel⟩ := findCommand_notes host s stage.name
    rw [hnotes]
    exact (Beside.refl s).notedAll hlevel
  have hdoes := does_runCommand host s stage piped channels last
  generalize s.deed host stage piped channels last = deed at hdeed hdoes
  generalize s.runCommand host stage piped channels last = done at hdoes
  cases hdoes with
  | idle hargv => cases hdeed
  | unnamed hfind => cases hdeed
  | unknown hfind =>
    rw [hfind] at hfound
    exact hfound.delivered herr _
  | builtin hfind => cases hdeed
  | refused hfind horder hstarted => cases hdeed
  | @unstarted found path order e about hfind horder hstarted =>
    rw [hfind] at hfound
    have hcounted : Beside host s.err s.err (found.flush.counted host order) s :=
      (hfound.flushed.tallied _).noted (.refl host) rfl
    have hmissed : Beside host s.err s.err
        ((found.flush.counted host order).missed host order e about) s :=
      (hcounted.tallied _).noted (.refl host) rfl
    exact (hmissed.noted (.refl host) rfl).delivered herr _
  | program hfind horder hstarted => cases hdeed

end Session

/-! ## One stage -/

namespace Arrival

open Session

/-- One run has come to a stage, and another one to the same stage without its command. -/
structure Emptied (host : Host) (before : Bytes) (a a' : Arrival) : Prop where
  session : Beside host before before a.session a'.session
  stage : a'.stage = a.stage.emptied
  piped : a'.piped = a.piped
  last : a'.last = a.last

/-- How a stage whose command cannot be run ends, and the stage without its command. -/
inductive Misses (host : Host) (before : Bytes) (a a' : Arrival) : Prop
  | cut (left left' : Session) (stop stop' : Stop) (hrun : a.run host = (left, .error stop))
    (hrun' : a'.run host = (left', .error stop')) (hdeed : a.deed? host = none)
    (hbeside : Beside host before before left left')
    (hrenamed : Renamed a.stage (a.run host).2 (a'.run host).2)
  | missed (done done' : Session) (before : Bytes) (deed : Deed) (status : Int)
    (hrun : a.run host = (done, .ok ⟨a.stage.name, status, none⟩))
    (hrun' : a'.run host = (done', .ok ⟨"", 0, none⟩)) (hdeed : a.deed? host = some deed)
    (hfailure : deed.failure? = some status)
    (hbeside : Beside host
      (before ++ Text.encode (Diagnosis.unknownCommand a.stage.name).line) before done done')

/-- A command that cannot be run is reported, if there is no file for errors. -/
theorem errors_of_failure {host : Host} {a : Arrival} {deed : Deed} {status : Int}
    (hdeed : a.deed? host = some deed) (hfailure : deed.failure? = some status)
    (hstderr : a.stage.redirection? .stderr = none) :
    a.errors host = Text.encode (Diagnosis.unknownCommand a.stage.name).line := by
  rw [errors, if_pos hstderr, hdeed, Option.map_some, Option.getD_some]
  rcases Deed.failure?_eq_some hfailure with rfl | rfl <;> rfl

/-- Without its command a stage shows no errors. -/
theorem Emptied.errors {host : Host} {before : Bytes} {a a' : Arrival}
    (h : a.Emptied host before a') : a'.errors host = [] := by
  have hargv : a'.stage.argv = [] := by
    rw [h.stage]
    rfl
  unfold Arrival.errors Arrival.deed?
  split
  · split
    · rfl
    · simp only [Session.deed, hargv, if_true, Option.map_some, Option.getD_some, Deed.errors]
  · rfl

theorem Emptied.ends {host : Host} {before : Bytes} {a a' : Arrival}
    (h : a.Emptied host before a') (hclear : a.session.ReadsNoRecords host a.stage)
    (hstderr : a.stage.redirection? .stderr = none)
    (hfails : ∀ deed, a.deed? host = some deed → deed.failure?.isSome) :
    a.Misses host before a' := by
  have hopens := (unseen_beside (.refl host) before before).inStep.openChannels h.session hclear
  have hrun : a'.run host = a'.session.runStage host a.stage.emptied a.piped a.last := by
    rw [run, h.stage, h.piped, h.last]
  obtain ⟨hsession, hrenamed⟩ := renamed_openChannels host a'.session a.stage
  unfold runStage at hrun
  generalize a'.session.openChannels host a.stage.emptied = r at hrun hsession hrenamed
  obtain ⟨ready', answer'⟩ := r
  cases a.goes host with
  | cut left stop hopen hsilent hcut hdeed =>
    obtain ⟨left', hopen', hbeside⟩ := hopens.of_eq hopen
    rw [hopen'] at hsession hrenamed
    obtain rfl : ready' = left' := hsession
    cases answer' with
    | ok channels => cases hrenamed
    | error stop' =>
      refine .cut left ready' stop stop' hcut hrun hdeed hbeside ?_
      rw [hcut, hrun]
      exact hrenamed.map fun _ => ⟨"", 0, none⟩
  | did ready channels deed hopen hsilent hdone hdeed hdid =>
    obtain ⟨opened', hopen', hbeside⟩ := hopens.of_eq hopen
    rw [hopen'] at hsession hrenamed
    obtain rfl : ready' = opened' := hsession
    obtain rfl : answer' = .ok channels := by
      cases hrenamed
      rfl
    obtain ⟨status, hfailure⟩ := Option.isSome_iff_exists.1 (hfails deed hdeed)
    have hfails : (ready.deed host a.stage a.piped channels a.last).failure? = some status := by
      have hsame : ready.deed host a.stage a.piped channels a.last = deed := by
        simpa only [deed?, hopen, Option.some.injEq] using hdeed
      rw [hsame]
      exact hfailure
    have herr : channels.err = none := (openChannels_eq_none_iff hopen).2.2 hstderr
    have hreported := beside_of_failure hfails herr
    rw [← hdone] at hreported
    have hanswer : (a.run host).2 = .ok ⟨a.stage.name, status, none⟩ := by
      rw [hdid.failure status hfailure, Channels.fault?_of_err_none herr]
      rfl
    exact .missed (a.run host).1 ready' ready.err deed status (Prod.ext rfl hanswer) hrun hdeed
      hfailure (hreported.trans hbeside.rebased)

end Arrival

/-! ## Runs -/

/-- A stage finds its pipe empty: a program that reads no file is run on no bytes. -/
structure Arrival.FindsNothing (host : Host) (a : Arrival) : Prop where
  piped : a.piped = some []
  program : a.stage.redirection? .stdin = none → ∀ ready channels found path,
    a.session.openChannels host a.stage = (ready, .ok channels) → a.stage.argv ≠ [] →
      ready.findCommand host a.stage.name = (found, .ok (.program path)) →
        a.run host = found.runProgram host a.stage path (some []) channels a.last

/-- The report of a stage whose command cannot be run, if a run comes to it and its redirections open. -/
def Stage.notice (host : Host) (stage : Stage) (a? : Option Arrival) : Bytes :=
  if (a?.bind (Arrival.deed? host)).isSome then
    Text.encode (Diagnosis.unknownCommand stage.name).line
  else []

namespace Session

/-- Two runs, of a stage whose command cannot be run and of the stage without its command, after the same
`k` stages and before the same `rest`: the stages that they come to, and how they end. -/
structure Isolated (host : Host) (stage : Stage) (rest : List Stage) (k : Nat)
    (arrivals arrivals' : List Arrival) (r r' : Session × Except Stop (List StageResult)) : Prop where
  /-- In the end the sessions are the same but for the report of the stage. -/
  sessions : ∃ before, Beside host (before ++ stage.notice host arrivals[k]?) before r.1 r'.1
  /-- They come to the same stages. -/
  stages : arrivals'.map Arrival.stage = (arrivals.map Arrival.stage).set k stage.emptied
  /-- Every other stage shows the same errors, and the stage without its command shows none. -/
  errors : arrivals'.map (Arrival.errors host) = (arrivals.map (Arrival.errors host)).set k []
  /-- Each stage finds the same in its pipe. -/
  pipes : arrivals'.map Arrival.piped = arrivals.map Arrival.piped
  /-- Every other stage ends in the same way, with the same output. -/
  others : ∀ i, i ≠ k →
    arrivals'[i]?.map (fun a => (a.run host).2) = arrivals[i]?.map fun a => (a.run host).2
  /-- The stage ends with a report and the status of its failure, and without its command with 0. -/
  here : ∀ a deed, arrivals[k]? = some a → a.deed? host = some deed → ∃ a' status,
    a.errors host = Text.encode (Diagnosis.unknownCommand stage.name).line ∧
      deed.failure? = some status ∧ (a.run host).2 = .ok ⟨stage.name, status, none⟩ ∧
      arrivals'[k]? = some a' ∧ (a'.run host).2 = .ok ⟨"", 0, none⟩
  /-- If the redirections of the stage open, both lines end in the same way. -/
  ends : (∀ a, arrivals[k]? = some a → a.deed? host ≠ none) →
    r'.2 = r.2.map fun results => results.set k ⟨"", 0, none⟩
  /-- If one of them fails, it ends both lines, under another name in the second. -/
  cut : ∀ a, arrivals[k]? = some a → a.deed? host = none → Renamed stage r.2 r'.2
  /-- The next stage is come to and has no input but that of its own file. -/
  next : ∀ a, arrivals[k]? = some a → a.deed? host ≠ none → ∀ following ∈ rest.head?,
    ∃ b, arrivals[k + 1]? = some b ∧ b.stage = following ∧ b.FindsNothing host

variable {stage : Stage} {rest : List Stage} {k : Nat} {arrivals₁ arrivals₂ : List Arrival}
  {r r' : Session × Except Stop (List StageResult)}

/-- A run that is stopped before the stage does not come to it. -/
theorem isolated_of_stopped (h : arrivals₁.length ≤ k) (s : Session) (stop : Stop) :
    Isolated host stage rest k arrivals₁ arrivals₁ (s, .error stop) (s, .error stop) := by
  have hnone : arrivals₁[k]? = none := List.getElem?_eq_none h
  constructor
  case sessions =>
    refine ⟨s.err, ?_⟩
    rw [hnone]
    simpa [Stage.notice] using Beside.refl s
  case stages =>
    rw [List.set_eq_of_length_le]
    simpa using h
  case errors =>
    rw [List.set_eq_of_length_le]
    simpa using h
  case pipes => rfl
  case others => exact fun i _ => rfl
  case here => simp [hnone]
  case ends => exact fun _ => rfl
  case cut => simp [hnone]
  case next => simp [hnone]

/-- What is isolated is so after one more stage that is passed. -/
theorem Isolated.cons (h : Isolated host stage rest k arrivals₁ arrivals₂ r r') (first : Arrival)
    (result : StageResult) :
    Isolated host stage rest (k + 1) (first :: arrivals₁) (first :: arrivals₂)
      (r.1, r.2.map (result :: ·)) (r'.1, r'.2.map (result :: ·)) := by
  constructor
  case sessions => exact h.sessions
  case stages => simp [h.stages]
  case errors => simp [h.errors]
  case pipes => simp [h.pipes]
  case others =>
    intro i hi
    cases i with
    | zero => rfl
    | succ i => exact h.others i (by omega)
  case here => exact h.here
  case ends =>
    intro hopens
    rw [h.ends hopens]
    cases r.2 <;> rfl
  case cut =>
    intro a ha hdeed
    exact (h.cut a ha hdeed).map _
  case next => exact h.next

theorem findsNothing_of_piped {a : Arrival} (h : a.piped = some []) : a.FindsNothing host := by
  refine ⟨h, ?_⟩
  intro hstdin ready channels found path hopen hargv hfound
  have hinput : channels.input = none := by
    have hread := (openChannels_ok hopen).1
    unfold readInput at hread
    rw [hstdin] at hread
    exact (Except.ok.inj hread).symm
  simp only [Arrival.run, runStage, hopen, runCommand, hargv, if_false, hfound, hinput, h,
    Option.none_or]

theorem emptied_arrival (host : Host) (total position : Nat) (s : Session) (piped : Option Bytes)
    (stage : Stage) (rest : List Stage) :
    (arrival host total position s piped stage rest).Emptied host s.err
      (arrival host total position s piped stage.emptied rest) := by
  refine ⟨?_, rfl, rfl, rfl⟩
  simp only [arrival, announced]
  rw [foldl_report, foldl_report]
  have hpending : Beside host s.err s.err (s.note host (.stage position total .pending stage))
      (s.note host (.stage position total .pending stage.emptied)) :=
    (Beside.refl s).note (.refl host) rfl rfl
  exact (hpending.printError _).note (.refl host) rfl rfl

variable {a a' : Arrival}

/-- The stage is cut short by one of its redirections, with its command and without it. -/
theorem isolated_of_cut {before : Bytes} {left left' : Session} {stop stop' : Stop}
    (hemptied : a.Emptied host before a') (hdeed : a.deed? host = none)
    (hbeside : Beside host before before left left')
    (hrenamed : Renamed a.stage (.error stop : Except Stop (List StageResult)) (.error stop')) :
    Isolated host a.stage rest 0 [a] [a'] (left, .error stop) (left', .error stop') := by
  constructor
  case sessions => exact ⟨before, by simpa [Stage.notice, hdeed] using hbeside⟩
  case stages => simp [hemptied.stage]
  case errors => simp [hemptied.errors]
  case pipes => simp [hemptied.piped]
  case others =>
    intro i hi
    obtain ⟨j, rfl⟩ := Nat.exists_eq_succ_of_ne_zero hi
    rfl
  case here =>
    rintro _ deed ⟨⟩ hsome
    rw [hdeed] at hsome
    cases hsome
  case ends => exact fun hopens => absurd hdeed (hopens _ rfl)
  case cut => exact fun _ _ _ => hrenamed
  case next =>
    rintro _ ⟨⟩ hsome
    exact absurd hdeed hsome

/-- The command of the stage cannot be run, and the stages after it do not see that it was there. -/
theorem isolated_of_missed {before before' : Bytes} {deed : Deed} {status : Int}
    (hemptied : a.Emptied host before a') (hdeed : a.deed? host = some deed)
    (hfailure : deed.failure? = some status)
    (hstderr : a.stage.redirection? .stderr = none)
    (hrun : (a.run host).2 = .ok ⟨a.stage.name, status, none⟩)
    (hrun' : (a'.run host).2 = .ok ⟨"", 0, none⟩)
    (hend : Beside host (before' ++ Text.encode (Diagnosis.unknownCommand a.stage.name).line) before'
      r.1 r'.1)
    (hanswer : r'.2 = r.2)
    (hmatches : List.Forall₂ (Arrival.Matches host host
      (Beside host (before' ++ Text.encode (Diagnosis.unknownCommand a.stage.name).line) before'))
      arrivals₁ arrivals₂)
    (herrors : arrivals₂.map (Arrival.errors host) = arrivals₁.map (Arrival.errors host))
    (hnext : ∀ following ∈ rest.head?,
      ∃ b, arrivals₁[0]? = some b ∧ b.stage = following ∧ b.piped = some []) :
    Isolated host a.stage rest 0 (a :: arrivals₁) (a' :: arrivals₂)
      (r.1, r.2.map (⟨a.stage.name, status, none⟩ :: ·)) (r'.1, r'.2.map (⟨"", 0, none⟩ :: ·)) := by
  constructor
  case sessions => exact ⟨before', by simpa [Stage.notice, hdeed] using hend⟩
  case stages => simp [hemptied.stage, map_of_matches hmatches fun _ _ _ h => h.stage]
  case errors => simp [hemptied.errors, herrors]
  case pipes => simp [hemptied.piped, map_of_matches hmatches fun _ _ _ h => h.piped]
  case others =>
    intro i hi
    obtain ⟨j, rfl⟩ := Nat.exists_eq_succ_of_ne_zero hi
    have hothers : arrivals₂.map (fun a => (a.run host).2) = arrivals₁.map fun a => (a.run host).2 :=
      map_of_matches hmatches fun _ _ _ h => h.run
    simpa using congrArg (·[j]?) hothers
  case here =>
    rintro _ deed' ⟨⟩ hsome
    rw [hdeed] at hsome
    cases hsome
    exact ⟨a', status, Arrival.errors_of_failure hdeed hfailure hstderr, hfailure, hrun, rfl, hrun'⟩
  case ends =>
    intro _
    rw [hanswer]
    cases r.2 <;> rfl
  case cut =>
    rintro _ ⟨⟩ hnone
    rw [hdeed] at hnone
    cases hnone
  case next =>
    rintro _ ⟨⟩ _ following hfollowing
    obtain ⟨b, hb, hstage, hpiped⟩ := hnext following hfollowing
    exact ⟨b, hb, hstage, findsNothing_of_piped hpiped⟩

/-- The two runs from the stage on. -/
theorem isolated_first (hstderr : stage.redirection? .stderr = none) (total position : Nat)
    (s : Session) (piped : Option Bytes)
    (hclear : ∀ a ∈ arrivals host total position s piped (stage :: rest),
      a.session.ReadsNoRecords host a.stage)
    (hfails : ∀ a deed, (arrivals host total position s piped (stage :: rest))[0]? = some a →
      a.deed? host = some deed → deed.failure?.isSome) :
    Isolated host stage rest 0 (arrivals host total position s piped (stage :: rest))
      (arrivals host total position s piped (stage.emptied :: rest))
      (runFrom host total position s piped (stage :: rest))
      (runFrom host total position s piped (stage.emptied :: rest)) := by
  have hemptied := emptied_arrival host total position s piped stage rest
  have hfirst : (arrivals host total position s piped (stage :: rest))[0]? =
      some (arrival host total position s piped stage rest) := rfl
  cases hemptied.ends (hclear _ (List.mem_of_getElem? hfirst)) hstderr (hfails _ · hfirst) with
  | cut left left' stop stop' hrun hrun' hdeed hbeside hrenamed =>
    obtain ⟨hruns, harrivals⟩ := runFrom_of_stopped hrun
    obtain ⟨hruns', harrivals'⟩ := runFrom_of_stopped hrun'
    rw [hrun, hrun'] at hrenamed
    rw [hruns, hruns', harrivals, harrivals']
    exact isolated_of_cut hemptied hdeed hbeside (hrenamed.map fun _ => [])
  | missed done done' before deed status hrun hrun' hdeed hfailure hbeside =>
    obtain ⟨hruns, harrivals⟩ := runFrom_of_passed hrun
    obtain ⟨hruns', harrivals'⟩ := runFrom_of_passed hrun'
    rw [harrivals] at hclear
    have hnoted : Beside host _ before (done.note host (.stage position total .completed stage))
        (done'.note host (.stage position total .completed stage.emptied)) :=
      hbeside.note (.refl host) rfl rfl
    have hunseen := unseen_beside (.refl host)
      (before ++ Text.encode (Diagnosis.unknownCommand stage.name).line) before
    obtain ⟨⟨hanswer, hend⟩, hmatches⟩ := hunseen.inStep.runFrom hnoted total (position + 1)
      (some []) rest fun a ha => hclear a (List.mem_cons_of_mem _ ha)
    have herrors := map_of_matches hmatches fun a ha a' h =>
      hunseen.errors_of_matches h (hclear a (List.mem_cons_of_mem _ ha))
    rw [hruns, hruns', harrivals, harrivals']
    refine isolated_of_missed hemptied hdeed hfailure hstderr (congrArg Prod.snd hrun)
      (congrArg Prod.snd hrun') hend hanswer hmatches herrors ?_
    intro following hfollowing
    obtain ⟨others, rfl⟩ := List.head?_eq_some_iff.1 hfollowing
    exact ⟨_, rfl, rfl, rfl⟩

/-- The stages before the one that cannot be run go the same way. -/
theorem isolated_runFrom (hstderr : stage.redirection? .stderr = none) (total : Nat)
    (before : List Stage) (position : Nat) (s : Session) (piped : Option Bytes)
    (hclear : ∀ a ∈ arrivals host total position s piped (before ++ stage :: rest),
      a.session.ReadsNoRecords host a.stage)
    (hfails : ∀ a deed,
      (arrivals host total position s piped (before ++ stage :: rest))[before.length]? = some a →
        a.deed? host = some deed → deed.failure?.isSome) :
    Isolated host stage rest before.length
      (arrivals host total position s piped (before ++ stage :: rest))
      (arrivals host total position s piped (before ++ stage.emptied :: rest))
      (runFrom host total position s piped (before ++ stage :: rest))
      (runFrom host total position s piped (before ++ stage.emptied :: rest)) := by
  induction before generalizing position s piped with
  | nil => exact isolated_first hstderr total position s piped hclear hfails
  | cons first before ih =>
    simp only [List.cons_append] at hclear hfails ⊢
    have hsame : arrival host total position s piped first (before ++ stage.emptied :: rest) =
        arrival host total position s piped first (before ++ stage :: rest) := by
      simp [arrival]
    cases hrun : (arrival host total position s piped first (before ++ stage :: rest)).run host with
    | mk done answer =>
      have hrun' := hrun
      rw [← hsame] at hrun'
      cases answer with
      | error stop =>
        obtain ⟨hruns, harrivals⟩ := runFrom_of_stopped hrun
        obtain ⟨hruns', harrivals'⟩ := runFrom_of_stopped hrun'
        rw [hruns, hruns', harrivals, harrivals', hsame]
        exact isolated_of_stopped (by simp) done stop
      | ok result =>
        obtain ⟨hruns, harrivals⟩ := runFrom_of_passed hrun
        obtain ⟨hruns', harrivals'⟩ := runFrom_of_passed hrun'
        rw [harrivals] at hclear hfails
        rw [hruns, hruns', harrivals, harrivals', hsame]
        refine Isolated.cons (ih _ _ _ ?_ ?_) _ result
        · exact fun a ha => hclear a (List.mem_cons_of_mem _ ha)
        · exact fun a deed ha => hfails a deed ha

/-- A stage that cannot be run is isolated. Let a pipeline have a stage without a file for its errors,
and if the pipeline comes to the stage and opens its redirections, let nothing have the name of its
command or let the program not start. Then the pipeline goes on as it does without that command, and
ends as it does then. Whatever is recorded, both tell what their stages tell. The host may record to a
file, if no stage reads that file. -/
theorem isolated_stage (s : Session) (before rest : List Stage) (stage : Stage)
    (hstderr : stage.redirection? .stderr = none)
    (hclear : ∀ a ∈ s.reached host ⟨before ++ stage :: rest⟩, a.session.ReadsNoRecords host a.stage)
    (hfails : ∀ a deed, (s.reached host ⟨before ++ stage :: rest⟩)[before.length]? = some a →
      a.deed? host = some deed → deed.failure?.isSome) :
    let reached := s.reached host ⟨before ++ stage :: rest⟩
    let reached' := s.reached host ⟨before ++ stage.emptied :: rest⟩
    let run := s.runPipeline host ⟨before ++ stage :: rest⟩
    let run' := s.runPipeline host ⟨before ++ stage.emptied :: rest⟩
    Isolated host stage rest before.length reached reached' run run' ∧
      Reports host s (told host reached) run.1 ∧ Reports host s (told host reached') run'.1 := by
  intro reached reached' run run'
  refine ⟨?_, reports_runPipeline host s _, reports_runPipeline host s _⟩
  have hlength : (before ++ stage.emptied :: rest).length = (before ++ stage :: rest).length := by
    simp
  simp only [reached, reached', run, run', Session.reached, runPipeline, hlength]
  exact isolated_runFrom hstderr _ before 1 s none hclear hfails

/-- `echo a | nope > /x | /upper`, with `nope` and without it. -/
theorem isolated_stage_nope :
    let nope : Stage := ⟨["nope"], [⟨.write, "/x"⟩], []⟩
    let run := Small.session.runPipeline Small.host ⟨[Small.echo, nope, Small.upper]⟩
    let run' := Small.session.runPipeline Small.host ⟨[Small.echo, nope.emptied, Small.upper]⟩
    run.1.err = Text.encode "nope: command not found\n" ∧ run'.1.err = [] ∧
      run.2 = .ok [⟨"echo", 0, some [97, 10]⟩, ⟨"nope", 127, none⟩, ⟨"/upper", 0, none⟩] ∧
      Isolated Small.host nope [Small.upper] 1
        (Small.session.reached Small.host ⟨[Small.echo, nope, Small.upper]⟩)
        (Small.session.reached Small.host ⟨[Small.echo, nope.emptied, Small.upper]⟩) run run' := by
  intro nope run run'
  have hfailing : ((Small.session.reached Small.host ⟨[Small.echo, nope, Small.upper]⟩)[1]?.bind
      (Arrival.deed? Small.host)).all (fun deed => deed.failure?.isSome) = true := by
    decide +kernel
  refine ⟨by decide +kernel, by decide +kernel, by decide +kernel, ?_⟩
  refine (isolated_stage Small.session [Small.echo] [Small.upper] nope rfl ?hclear ?hfails).1
  case hclear =>
    have hquiet : Small.host.Quiet := trivial
    exact fun a _ r _ place entry _ => hquiet.not_records place
  case hfails =>
    intro a deed ha hdeed
    have ha : (Small.session.reached Small.host ⟨[Small.echo, nope, Small.upper]⟩)[1]? = some a := ha
    rw [ha, Option.bind_some, hdeed] at hfailing
    exact hfailing

/-- `nope | echo a`, with `nope` and without it, where the records go to `/in`: these name what is run.
-/
theorem isolated_stage_records :
    let nope : Stage := ⟨["nope"], [], []⟩
    let run := Small.session.runPipeline Small.recordingHost ⟨[nope, Small.echo]⟩
    let run' := Small.session.runPipeline Small.recordingHost ⟨[nope.emptied, Small.echo]⟩
    run.2 = .ok [⟨"nope", 127, none⟩, ⟨"echo", 0, none⟩] ∧
      run.1.files.find? ["in"] ≠ run'.1.files.find? ["in"] := by
  decide +kernel

end Session

end PipelineShell
