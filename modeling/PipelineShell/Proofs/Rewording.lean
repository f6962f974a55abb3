import Mathlib.Logic.Relation
import PipelineShell.Proofs.Extraction
import PipelineShell.Proofs.Isolation
import PipelineShell.Proofs.Scan

/-!
# Rewording a line

Of the redirections of a stage that bind one stream only the last one counts, wherever it stands among
the words. `Edit` lists what can be done to the words of a stage that keeps these redirections, the words
of the command and an operator left at the end. A stage that is edited does what it did before
(`Edit.equivalent`, `runStage_congr`), and a line whose stages are edited does what it did before but for
the records, which show every redirection (`execute_reworded`).
-/

namespace PipelineShell

-- ---------------------------------------------------------------------------
-- Edits
-- ---------------------------------------------------------------------------

open Extraction

/-- A change to the words of a stage that leaves alone the words of the command, the last redirection of
each stream, and an operator that is left at the end. -/
inductive Edit : List String → List String → Prop
  /-- A redirection is moved over words of the command and redirections of other streams. -/
  | move {before passed : List String} {word : String} {op : Operator} (target : String)
    (after : List String) (hbefore : Whole before) (hpassed : Whole passed)
    (hword : Operator.ofWord? word = some op)
    (hstream : ∀ r ∈ (ofWords passed).redirections, r.operator.stream ≠ op.stream) :
    Edit (before ++ (word :: target :: (passed ++ after)))
      (before ++ (passed ++ (word :: target :: after)))
  /-- The operator of a redirection is spelled in another way. -/
  | respell {before : List String} {word word' : String} {op : Operator} (target : String)
    (after : List String) (hbefore : Whole before) (hword : Operator.ofWord? word = some op)
    (hword' : Operator.ofWord? word' = some op) :
    Edit (before ++ (word :: target :: after)) (before ++ (word' :: target :: after))
  /-- A redirection is deleted that a later one of the same stream overrides. -/
  | delete {before after : List String} {word : String} {op : Operator} (target : String)
    {later : Redirection} (hbefore : Whole before) (hword : Operator.ofWord? word = some op)
    (hlater : later ∈ (ofWords after).redirections) (hstream : later.operator.stream = op.stream) :
    Edit (before ++ (word :: target :: after)) (before ++ after)

/-- Words are made of others by edits, done or undone. -/
abbrev Reworded : List String → List String → Prop := Relation.EqvGen Edit

-- ---------------------------------------------------------------------------
-- Equivalent stages
-- ---------------------------------------------------------------------------

namespace Stage

/-- Two stages have the same command, the same redirections that count and the same report about their
words. -/
structure Equivalent (stage stage' : Stage) : Prop where
  argv : stage'.argv = stage.argv
  redirection? : ∀ stream, stage'.redirection? stream = stage.redirection? stream
  diagnostics : stage'.diagnostics = stage.diagnostics

namespace Equivalent

theorem refl (stage : Stage) : Equivalent stage stage := ⟨rfl, fun _ => rfl, rfl⟩

variable {stage stage' stage'' : Stage}

theorem symm (h : Equivalent stage stage') : Equivalent stage' stage :=
  ⟨h.argv.symm, fun stream => (h.redirection? stream).symm, h.diagnostics.symm⟩

theorem trans (h : Equivalent stage stage') (h' : Equivalent stage' stage'') :
    Equivalent stage stage'' :=
  ⟨h'.argv.trans h.argv, fun stream => (h'.redirection? stream).trans (h.redirection? stream),
    h'.diagnostics.trans h.diagnostics⟩

theorem name (h : Equivalent stage stage') : stage'.name = stage.name := by
  rw [Stage.name, Stage.name, h.argv]

theorem args (h : Equivalent stage stage') : stage'.args = stage.args := by
  rw [Stage.args, Stage.args, h.argv]

end Equivalent

/-- A stage with the redirections that count and no others. -/
def effective (stage : Stage) : Stage :=
  { stage with redirections := [Stream.stdin, .stdout, .stderr].filterMap stage.redirection? }

theorem stream_of_redirection? {stage : Stage} {stream : Stream} {r : Redirection}
    (h : stage.redirection? stream = some r) : r.operator.stream = stream := by
  have hmem := List.mem_of_getLast? h
  simpa using (List.mem_filter.1 hmem).2

theorem equivalent_effective (stage : Stage) : Equivalent stage stage.effective := by
  refine ⟨rfl, fun stream => ?_, rfl⟩
  have hkept : ∀ stream', (stage.redirection? stream').filter
      (fun r => r.operator.stream = stream) =
        if stream' = stream then stage.redirection? stream else none := by
    intro stream'
    by_cases hsame : stream' = stream
    · subst hsame
      cases hr : stage.redirection? stream' with
      | none => simp
      | some r => simp [Option.filter, stream_of_redirection? hr]
    · cases hr : stage.redirection? stream' with
      | none => simp [hsame]
      | some r => simp [Option.filter, stream_of_redirection? hr, hsame]
  rw [Stage.redirection?, effective, List.filter_filterMap]
  simp only [hkept]
  generalize stage.redirection? stream = last
  cases stream <;> cases last <;> rfl

/-- Two lists of words make equivalent stages if they are sorted alike up to redirections that do not
count. -/
theorem equivalent_ofWords {words words' : List String}
    (hargv : (Extraction.ofWords words').argv = (Extraction.ofWords words).argv)
    (hleftover : (Extraction.ofWords words').leftover = (Extraction.ofWords words).leftover)
    (hlast : ∀ stream : Stream,
      ((Extraction.ofWords words').redirections.filter fun r => r.operator.stream = stream).getLast? =
        ((Extraction.ofWords words).redirections.filter fun r => r.operator.stream = stream).getLast?) :
    Equivalent (Stage.ofWords words) (Stage.ofWords words') := by
  refine ⟨hargv, hlast, ?_⟩
  simp only [Stage.ofWords, Extraction.diagnostics, hargv, hleftover]

end Stage

theorem Edit.equivalent {words words' : List String} (h : Edit words words') :
    (Stage.ofWords words).Equivalent (Stage.ofWords words') := by
  cases h with
  | @move before passed word op target after hbefore hpassed hword hstream =>
    have hwords := ofWords_pair hword target (passed ++ after)
    have hwords' := ofWords_pair hword target after
    apply Stage.equivalent_ofWords
    · simp only [ofWords_append hbefore, ofWords_append hpassed, hwords, hwords']
    · simp only [ofWords_append hbefore, ofWords_append hpassed, hwords, hwords']
    · intro stream
      have hnone : ∀ stream, op.stream = stream →
          (ofWords passed).redirections.filter (fun r => r.operator.stream = stream) = [] := by
        rintro _ rfl
        simpa [List.filter_eq_nil_iff] using hstream
      simp only [ofWords_append hbefore, ofWords_append hpassed, hwords, hwords', List.filter_append]
      congr 2
      by_cases hsame : op.stream = stream
      · simp [hnone stream hsame, hsame]
      · simp [hsame]
  | @respell before word word' op target after hbefore hword hword' =>
    have hwords := ofWords_pair hword target after
    have hwords' := ofWords_pair hword' target after
    apply Stage.equivalent_ofWords
    all_goals simp only [ofWords_append hbefore, hwords, hwords', implies_true]
  | @delete before after word op target later hbefore hword hlater hstream =>
    have hwords := ofWords_pair hword target after
    apply Stage.equivalent_ofWords
    · simp only [ofWords_append hbefore, hwords]
    · simp only [ofWords_append hbefore, hwords]
    · intro stream
      simp only [ofWords_append hbefore, hwords, List.filter_append]
      by_cases hsame : op.stream = stream
      · have hmore : later ∈ (ofWords after).redirections.filter fun r => r.operator.stream = stream :=
          List.mem_filter.2 ⟨hlater, by simpa using hstream.trans hsame⟩
        obtain ⟨first, rest, hrest⟩ := List.exists_cons_of_ne_nil (List.ne_nil_of_mem hmore)
        rw [List.filter_cons_of_pos (by simpa using hsame), hrest]
        simp [List.getLast?_append]
      · rw [List.filter_cons_of_neg (by simpa using hsame)]

theorem Reworded.equivalent {words words' : List String} (h : Reworded words words') :
    (Stage.ofWords words).Equivalent (Stage.ofWords words') := by
  induction h with
  | rel words words' hedit => exact hedit.equivalent
  | refl words => exact .refl _
  | symm words words' _ ih => exact ih.symm
  | trans words words' words'' _ _ ih ih' => exact ih.trans ih'

-- ---------------------------------------------------------------------------
-- Runs of equivalent stages
-- ---------------------------------------------------------------------------

namespace Session

variable {host : Host} {before : Bytes} {s s' s'' : Session} {stage stage' : Stage}

theorem stopAt_congr (h : stage.Equivalent stage') (r : Redirection) (failure : Failure) :
    stopAt stage' r failure = stopAt stage r failure := by
  cases failure with
  | refused refusal => rfl
  | system e => simp only [stopAt, h.name]

theorem readInput_congr (h : stage.Equivalent stage') (s : Session) :
    s.readInput stage' = s.readInput stage := by
  unfold readInput
  rw [h.redirection?]
  simp only [stopAt_congr h]

theorem openOutput_congr (h : stage.Equivalent stage') (host : Host) (s : Session)
    (stream : Stream) : s.openOutput host stage' stream = s.openOutput host stage stream := by
  unfold openOutput
  rw [h.redirection?]
  simp only [stopAt_congr h]

theorem openChannels_congr (h : stage.Equivalent stage') (host : Host) (s : Session) :
    s.openChannels host stage' = s.openChannels host stage := by
  unfold openChannels
  simp only [readInput_congr h, openOutput_congr h]

/-- A command is run without a look at the redirections, which are open by then. -/
theorem runCommand_congr (h : stage.Equivalent stage') (host : Host) (s : Session)
    (piped : Option Bytes) (channels : Channels) (last : Bool) :
    s.runCommand host stage' piped channels last = s.runCommand host stage piped channels last := by
  unfold runCommand runBuiltin runProgram giveUp orderOf
  simp only [h.argv, h.name, h.args]

/-- Equivalent stages do the same. -/
theorem runStage_congr (h : stage.Equivalent stage') (host : Host) (s : Session)
    (piped : Option Bytes) (last : Bool) :
    s.runStage host stage' piped last = s.runStage host stage piped last := by
  unfold runStage
  simp only [openChannels_congr h, runCommand_congr h]

/-! ## Sessions with other records -/

/-- Sessions that are related by `R` look the same to a run, and stay related even if they note different
things. -/
structure Unrecorded (host : Host) (Clear : Session → Stage → Prop) (R : Session → Session → Prop) :
    Prop extends Unseen host host Clear R where
  noting : ∀ {s s'}, R s s' → ∀ {event event' : Event}, event.level = .debug → event'.level = .debug →
    R (s.note host event) (s'.note host event')

namespace Unrecorded

variable {Clear : Session → Stage → Prop} {R : Session → Session → Prop} {total total' : Nat}
  {stages stages' : List Stage} {piped : Option Bytes}

theorem announced (hR : Unrecorded host Clear R) (h : R s s')
    (hdiagnostics : stage'.diagnostics = stage.diagnostics) (position position' total total' : Nat) :
    R (announced host position total s stage) (announced host position' total' s' stage') := by
  unfold Session.announced
  rw [foldl_report, foldl_report, hdiagnostics]
  exact hR.noting (hR.printError (hR.noting h rfl rfl) _) rfl rfl

theorem arrival (hR : Unrecorded host Clear R) (h : R s s') (hstage : stage.Equivalent stage')
    (hrest : List.Forall₂ Stage.Equivalent stages stages') {position : Nat} (position' : Nat)
    (hclear : Clear (arrival host total position s piped stage stages).session stage) :
    SameAnswer R ((arrival host total position s piped stage stages).run host)
      ((arrival host total' position' s' piped stage' stages').run host) := by
  have hhere := hR.announced h hstage.diagnostics position position' total total'
  have hlast : stages' = [] ↔ stages = [] := by
    rw [← List.length_eq_zero_iff, ← hrest.length_eq, List.length_eq_zero_iff]
  simp only [Session.arrival, Arrival.run, hlast, runStage_congr hstage]
  exact hR.inStep.runStage hhere hclear piped _

/-- Runs of equivalent stages go the same way, wherever they are in their pipelines. -/
theorem runFrom (hR : Unrecorded host Clear R) (hstages : List.Forall₂ Stage.Equivalent stages stages')
    (h : R s s') {position : Nat} (position' : Nat)
    (hclear : ∀ a ∈ arrivals host total position s piped stages, Clear a.session a.stage) :
    SameAnswer R (runFrom host total position s piped stages)
      (runFrom host total' position' s' piped stages') := by
  induction position, s, piped, stages using runFrom_induction host total
    generalizing s' stages' position' with
  | nil =>
    cases hstages
    exact ⟨rfl, h⟩
  | stopped position s piped stage rest done stop hrun =>
    obtain ⟨hruns, harrivals⟩ := runFrom_of_stopped hrun
    rw [harrivals] at hclear
    cases hstages with
    | @cons _ stage' _ rest' hstage hrest =>
      obtain ⟨done', hrun', hafter⟩ :=
        (hR.arrival h hstage hrest position' (hclear _ List.mem_cons_self)).of_eq hrun
      rw [hruns, (runFrom_of_stopped hrun').1]
      exact ⟨rfl, hafter⟩
  | passed position s piped stage rest done result hrun ih =>
    obtain ⟨hruns, harrivals⟩ := runFrom_of_passed hrun
    rw [harrivals] at hclear
    cases hstages with
    | @cons _ stage' _ rest' hstage hrest =>
      obtain ⟨done', hrun', hafter⟩ :=
        (hR.arrival h hstage hrest position' (hclear _ List.mem_cons_self)).of_eq hrun
      have hnoted : R (done.note host (.stage position total .completed stage))
          (done'.note host (.stage position' total' .completed stage')) := hR.noting hafter rfl rfl
      obtain ⟨hanswer, hend⟩ :=
        ih hrest hnoted (position' + 1) fun a ha => hclear a (List.mem_cons_of_mem _ ha)
      rw [hruns, (runFrom_of_passed hrun').1]
      exact ⟨congrArg (Except.map (result :: ·)) hanswer, hend⟩

end Unrecorded

theorem unrecorded_beside (host : Host) (before before' : Bytes) :
    Unrecorded host (fun s stage => s.ReadsNoRecords host stage) (Beside host before before') :=
  { unseen_beside (.refl host) before before' with
    noting := fun h _ _ hlevel hlevel' => h.note (.refl host) hlevel hlevel' }

theorem unrecorded_recorded (host : Host) (before : Bytes) :
    Unrecorded host (fun s stage => s.ReadsNoRecords host stage) (Recorded host before) :=
  { unseen_recorded (.refl host) before with
    noting := fun h _ _ hlevel hlevel' => h.note hlevel hlevel' }

/-! ## Lines -/

/-- The words of each stage of a line. -/
def stageWords (line : String) : List (List String) :=
  (segmentsOf line.toList).map fun segment => (wordsOf segment).map String.ofList

theorem scan_of_blank {text : List Char} (h : Text.isBlankText text = true) :
    Cut.scan .bare text = ⟨text, []⟩ ∧ (Reading.scan .bare text).words = [] := by
  induction text with
  | nil => exact ⟨rfl, rfl⟩
  | cons c rest ih =>
    obtain ⟨hc, hrest⟩ : Text.isBlank c = true ∧ Text.isBlankText rest = true := by
      simpa [Text.isBlankText] using h
    obtain ⟨hcut, hwords⟩ := ih hrest
    have hplain : c ≠ '\'' ∧ c ≠ '"' ∧ c ≠ '\\' ∧ c ≠ '|' := by
      refine ⟨?_, ?_, ?_, ?_⟩
      all_goals
        rintro rfl
        revert hc
        decide
    have hnext : Mode.bare.next c = .bare := by
      simp [Mode.next, hplain]
    have hbar : Mode.bare.atBar c = false := by
      simp [Mode.atBar, hplain]
    refine ⟨?_, ?_⟩
    · rw [Cut.scan_cons hbar, hnext, hcut]
      rfl
    · have htake : Reading.take .bare c (Reading.scan .bare rest) =
          (Reading.scan .bare rest).breakWord := by
        simp [Reading.take, hplain, hc]
      rw [Reading.scan, hnext, htake]
      exact hwords

theorem stageWords_of_blank {line : String} (h : Text.isBlankText line.toList = true) :
    stageWords line = [[]] := by
  obtain ⟨hcut, hwords⟩ := scan_of_blank h
  rw [stageWords, segmentsOf_eq_scan, hcut, Cut.segments, List.map_singleton, wordsOf_eq_scan, hwords]
  rfl

theorem stages_ofLine {line : String} (h : Text.isBlankText line.toList = false) :
    (Pipeline.ofLine line).stages = (stageWords line).map Stage.ofWords := by
  rw [Pipeline.ofLine, h, stageWords, List.map_map]
  rfl

/-- A line of one stage that has no effect is like a blank line. -/
theorem execute_of_idle {line : String} {words : List String} (hwords : stageWords line = [words])
    (hidle : (Stage.ofWords []).Equivalent (Stage.ofWords words)) (host : Host) (s : Session) :
    SameAnswer (Recorded host s.err) (s, .ok 0) (s.execute host line) := by
  cases hblank : Text.isBlankText line.toList with
  | true =>
    have hnothing : s.execute host line = (s, .ok 0) := by
      simp [execute, readLine, readingEvents, Pipeline.ofLine, hblank, runPipeline, runFrom, noteAll]
    rw [hnothing]
    exact ⟨rfl, .refl s⟩
  | false =>
    have hread : Recorded host s.err s (s.noteAll host (readingEvents line)) :=
      ((Recorded.refl s).notedAll (readingEvents_level line)).symm
    let idle := Stage.ofWords []
    let events : List Event :=
      [.stage 1 1 .pending idle, .stage 1 1 .running idle, .stage 1 1 .completed idle]
    have hidling : runFrom host 1 1 s none [idle] =
        (s.noteAll host events, .ok [⟨"", 0, none⟩]) := rfl
    have hnotes : Recorded host s.err s (s.noteAll host events) :=
      ((Recorded.refl s).notedAll (by simp [events, Event.level])).symm
    have hclear : ∀ a ∈ arrivals host 1 1 s none [idle], a.session.ReadsNoRecords host a.stage := by
      intro a ha r hr
      have hstage : a.stage = idle :=
        List.mem_singleton.1 ((map_stage_arrivals host 1 1 s none [idle]).subset (List.mem_map_of_mem ha))
      rw [hstage] at hr
      cases hr
    obtain ⟨hanswer, hafter⟩ : SameAnswer (Recorded host s.err) (runFrom host 1 1 s none [idle])
        (runFrom host 1 1 (s.noteAll host (readingEvents line)) none [Stage.ofWords words]) :=
      (unrecorded_recorded host s.err).runFrom (.cons hidle .nil) hread 1 hclear
    have hline : s.runLine host line =
        runFrom host 1 1 (s.noteAll host (readingEvents line)) none [Stage.ofWords words] := by
      simp only [runLine, readLine, runPipeline, stages_ofLine hblank, hwords]
      rfl
    rw [hidling] at hanswer hafter
    rw [execute_eq, hline]
    generalize runFrom host 1 1 _ none [Stage.ofWords words] = r at hanswer hafter
    obtain ⟨done, answer⟩ := r
    obtain rfl : answer = _ := hanswer
    exact ⟨rfl, hnotes.trans hafter⟩

theorem execute_of_blank {line line' : String} (hblank : Text.isBlankText line.toList = true)
    (hwords : List.Forall₂ Reworded (stageWords line) (stageWords line')) (host : Host) (s : Session) :
    SameAnswer (Recorded host s.err) (s, .ok 0) (s.execute host line') := by
  rw [stageWords_of_blank hblank] at hwords
  generalize hstages : stageWords line' = stages at hwords
  cases hwords with
  | cons hfirst hrest =>
    cases hrest
    exact execute_of_idle hstages hfirst.equivalent host s

/-- Of the redirections of a stage only the last one of each stream matters, wherever it stands. Let the
stages of two lines have the same words, up to edits. Then the lines end in the same way, in sessions
that are the same but for records. The host may record to a file, if no stage reads that file. What a
redirection names that does not count is not even looked at: a stage does what it does without it, in
every session. -/
theorem execute_reworded (host : Host) (s : Session) {line line' : String}
    (hwords : List.Forall₂ Reworded (stageWords line) (stageWords line'))
    (hclear : ∀ a ∈ s.lineArrivals host line, a.session.ReadsNoRecords host a.stage) :
    SameAnswer (Recorded host s.err) (s.execute host line) (s.execute host line') ∧
      ∀ stage ∈ (Pipeline.ofLine line).stages, ∀ (u : Session) (piped : Option Bytes) (last : Bool),
        u.runStage host stage.effective piped last = u.runStage host stage piped last := by
  refine ⟨?_, fun stage _ u piped last => runStage_congr stage.equivalent_effective host u piped last⟩
  have hstages : List.Forall₂ Stage.Equivalent ((stageWords line).map Stage.ofWords)
      ((stageWords line').map Stage.ofWords) := by
    rw [List.forall₂_map_left_iff, List.forall₂_map_right_iff]
    exact hwords.imp fun _ _ => Reworded.equivalent
  have hsame : List.Forall₂ Reworded (stageWords line) (stageWords line) :=
    List.forall₂_same.2 fun words _ => .refl words
  have hsame' : List.Forall₂ Reworded (stageWords line') (stageWords line') :=
    List.forall₂_same.2 fun words _ => .refl words
  have hback : List.Forall₂ Reworded (stageWords line') (stageWords line) :=
    (hwords.imp fun words words' => Relation.EqvGen.symm words words').flip
  cases hblank : Text.isBlankText line.toList with
  | true =>
    obtain ⟨hanswer, hafter⟩ := execute_of_blank hblank hsame host s
    obtain ⟨hanswer', hafter'⟩ := execute_of_blank hblank hwords host s
    exact ⟨hanswer'.trans hanswer.symm, hafter.symm.trans hafter'⟩
  | false =>
    cases hblank' : Text.isBlankText line'.toList with
    | true =>
      obtain ⟨hanswer, hafter⟩ := execute_of_blank hblank' hback host s
      obtain ⟨hanswer', hafter'⟩ := execute_of_blank hblank' hsame' host s
      exact ⟨hanswer'.trans hanswer.symm, hafter.symm.trans hafter'⟩
    | false =>
      have hread : Recorded host s.err (s.noteAll host (readingEvents line))
          (s.noteAll host (readingEvents line')) :=
        ((Recorded.refl s).notedAll (readingEvents_level line)).trans
          ((Recorded.refl s).notedAll (readingEvents_level line')).symm
      refine (unrecorded_recorded host s.err).inStep.concluded ?_
      simp only [lineArrivals, readLine, stages_ofLine hblank] at hclear
      simp only [runLine, readLine, runPipeline, stages_ofLine hblank, stages_ofLine hblank',
        List.length_map, ← hwords.length_eq] at hclear ⊢
      exact (unrecorded_recorded host s.err).runFrom hstages hread 1 hclear

/-- A redirection to `/a` that counts for nothing is deleted, an operator is spelled in the other way
and a redirection is moved to the front. No file is made at `/a`. -/
theorem execute_reworded_echo :
    let run := Small.session.execute Small.host "echo > /a hi 1>> /b 2> /e"
    let run' := Small.session.execute Small.host "2> /e echo hi >> /b"
    run.2 = .ok 0 ∧ run.1.files.find? ["a"] = none ∧
      run.1.files.find? ["b"] = some (.file (Text.encode "hi\n") 0o644) ∧
      SameAnswer (Recorded Small.host []) run run' := by
  intro run run'
  refine ⟨by decide +kernel, by decide +kernel, by decide +kernel, ?_⟩
  have hwords : stageWords "echo > /a hi 1>> /b 2> /e" =
      [["echo", ">", "/a", "hi", "1>>", "/b", "2>", "/e"]] := by
    decide +kernel
  have hwords' : stageWords "2> /e echo hi >> /b" = [["2>", "/e", "echo", "hi", ">>", "/b"]] := by
    decide +kernel
  have hdelete : Edit ["echo", ">", "/a", "hi", "1>>", "/b", "2>", "/e"]
      ["echo", "hi", "1>>", "/b", "2>", "/e"] :=
    @Edit.delete ["echo"] ["hi", "1>>", "/b", "2>", "/e"] ">" .write "/a" ⟨.append, "/b"⟩ rfl rfl
      (by decide) rfl
  have hrespell : Edit ["echo", "hi", "1>>", "/b", "2>", "/e"]
      ["echo", "hi", ">>", "/b", "2>", "/e"] :=
    @Edit.respell ["echo", "hi"] "1>>" ">>" .append "/b" ["2>", "/e"] rfl rfl rfl
  have hmove : Edit ["2>", "/e", "echo", "hi", ">>", "/b"] ["echo", "hi", ">>", "/b", "2>", "/e"] :=
    @Edit.move [] ["echo", "hi", ">>", "/b"] "2>" .writeErrors "/e" [] rfl rfl rfl (by decide)
  have hreworded : Reworded ["echo", ">", "/a", "hi", "1>>", "/b", "2>", "/e"]
      ["2>", "/e", "echo", "hi", ">>", "/b"] :=
    .trans _ _ _ (.rel _ _ hdelete) (.trans _ _ _ (.rel _ _ hrespell) (.symm _ _ (.rel _ _ hmove)))
  refine (execute_reworded Small.host Small.session ?_ ?_).1
  · rw [hwords, hwords']
    exact .cons hreworded .nil
  · have hquiet : Small.host.Quiet := trivial
    exact fun a _ r _ place entry _ => hquiet.not_records place

/-- An operator at the end has no target and is quoted in the report as it is written, so its spelling
matters. -/
theorem execute_dangling_respelled :
    Operator.ofWord? "1>" = Operator.ofWord? ">" ∧
      stageWords "echo hi >" = [["echo", "hi", ">"]] ∧ stageWords "echo hi 1>" = [["echo", "hi", "1>"]] ∧
      (Small.session.execute Small.host "echo hi >").1.err ≠
        (Small.session.execute Small.host "echo hi 1>").1.err := by
  refine ⟨rfl, ?_, ?_, ?_⟩
  all_goals decide +kernel

end Session

end PipelineShell
