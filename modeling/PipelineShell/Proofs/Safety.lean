import PipelineShell.Proofs.Clean
import PipelineShell.Proofs.Small
import PipelineShell.Proofs.Terminal
import PipelineShell.Proofs.Words

/-!
# Lines that are never refused

Where all texts can be put to the system, nothing that a line does is refused: each stage comes to an
end, ends the session, has a redirection that fails, or has a file that does not take what is written to
it (`Arrival.ends`). What else the system says no to is a status of the stage or a report that ends the
line. So a line has a status or ends the session with a byte, unless a file fails that it writes to
(`execute_safe`): nothing reports that (`execute_full_device`).
-/

namespace PipelineShell

/-- The words of a stage can be put to the system. -/
structure Stage.Sound (stage : Stage) : Prop where
  argv : ∀ word ∈ stage.argv, hasNul word = false
  targets : ∀ r ∈ stage.redirections, hasNul r.target = false

theorem WordOf.hasNul_eq_false {line word : String} (h : WordOf line word)
    (hline : hasNul line = false) : hasNul word = false := by
  rw [hasNul_eq_false_iff] at hline ⊢
  exact fun hnul => hline (h.2.subset hnul)

theorem sound_of_mem_stages {line : String} {stage : Stage} (hline : hasNul line = false)
    (h : stage ∈ (Pipeline.ofLine line).stages) : stage.Sound := by
  obtain ⟨hargv, htargets⟩ := wordOf_of_mem_stages h
  exact ⟨fun word hword => (hargv word hword).hasNul_eq_false hline,
    fun r hr => (htargets r hr).hasNul_eq_false hline⟩

namespace Stage.Sound

variable {stage : Stage}

theorem name (h : stage.Sound) : hasNul stage.name = false := by
  unfold Stage.name
  cases hargv : stage.argv with
  | nil => decide
  | cons word rest => exact h.argv word (by simp [hargv])

theorem args (h : stage.Sound) : ∀ word ∈ stage.args, hasNul word = false :=
  fun word hword => h.argv word (List.mem_of_mem_tail hword)

theorem target (h : stage.Sound) {stream : Stream} {r : Redirection}
    (hr : stage.redirection? stream = some r) : hasNul r.target = false :=
  h.targets r (List.mem_filter.1 (List.mem_of_getLast? hr)).1

end Stage.Sound

/-- The system says no to a redirection of a stage. -/
def Stop.OfSystem (stop : Stop) (stage : Stage) : Prop :=
  ∃ r e, stop = Session.stopAt stage r (.system e)

namespace Session

variable {host : Host} {s s' : Session} {stage : Stage}

/-- The texts of a session can be put to the system, and so can the names of its variables. -/
structure Sound (s : Session) : Prop where
  directory : hasNul s.directory = false
  environment : ∀ v ∈ s.environment.bindings,
    hasNul v.1 = false ∧ hasNul v.2 = false ∧ '=' ∉ v.1.toList

theorem Settled.sound (h : Settled s s') (hs : s.Sound) : s'.Sound := by
  refine ⟨?_, ?_⟩
  · rcases h.directory with hsame | hclean
    · rw [hsame]
      exact hs.directory
    · exact hclean
  · rw [h.environment]
    exact hs.environment

theorem Sound.clean_resolvePath (hs : s.Sound) {path : String} (hpath : hasNul path = false) :
    Path.Clean (s.resolvePath path).names :=
  Path.clean_resolve hs.directory hpath

theorem Sound.hasNul_resolvePath (hs : s.Sound) {path : String} (hpath : hasNul path = false) :
    hasNul (s.resolvePath path).text = false :=
  Path.hasNul_text (hs.clean_resolvePath hpath)

/-! ## Redirections -/

/-- How far it is up from the target of an output to the first directory that is to be made for it. -/
def outputDepth (s : Session) (stage : Stage) (stream : Stream) : Nat :=
  match stage.redirection? stream with
  | none => 0
  | some r =>
    let path := s.resolvePath r.target
    s.files.nesting s.processPlace path.slashes path.names.reverse.tail

/-- The first directories to be made for the outputs of a stage are in reach, one output opened after the
other. -/
def Shallow (host : Host) (s : Session) (stage : Stage) : Prop :=
  s.outputDepth stage .stdout ≤ host.nesting ∧
    (s.openOutput host stage .stdout).1.outputDepth stage .stderr ≤ host.nesting

instance (host : Host) (s : Session) (stage : Stage) : Decidable (s.Shallow host stage) :=
  inferInstanceAs (Decidable (_ ∧ _))

theorem readInput_stops (hs : s.Sound) (hstage : stage.Sound) {stop : Stop}
    (h : s.readInput stage = .error stop) : stop.OfSystem stage := by
  unfold readInput at h
  split at h
  · cases h
  · next r hr =>
    have hclean := hs.hasNul_resolvePath (hstage.target hr)
    split at h
    · cases h
    · next failure hread =>
      cases h
      cases failure with
      | system e => exact ⟨r, e, rfl⟩
      | refused refusal =>
        rw [FileTree.hasNul_of_read_refused hread] at hclean
        cases hclean

theorem openOutput_stops (hs : s.Sound) (hstage : stage.Sound) {stream : Stream}
    (hshallow : s.outputDepth stage stream ≤ host.nesting) {opened : Session} {stop : Stop}
    (h : s.openOutput host stage stream = (opened, .error stop)) : stop.OfSystem stage := by
  unfold outputDepth at hshallow
  unfold openOutput at h
  split at h
  · cases h
  · next r hr =>
    have htarget := hstage.target hr
    simp only [hr] at hshallow
    simp only at h
    split at h
    · next failure hmade =>
      cases h
      cases failure with
      | system e => exact ⟨r, e, rfl⟩
      | refused refusal =>
        have hdeep := FileTree.ensureParents_refused (hs.clean_resolvePath htarget)
          (congrArg Prod.snd hmade)
        exact absurd hshallow (Nat.not_le.2 hdeep)
    · have hclean := hs.hasNul_resolvePath htarget
      split at h
      · next failure hopen =>
        cases h
        cases failure with
        | system e => exact ⟨r, e, rfl⟩
        | refused refusal =>
          rw [FileTree.hasNul_of_openFile_refused hopen] at hclean
          cases hclean
      · cases h

/-- A stage that cannot be opened has a redirection to which the system says no. -/
theorem openChannels_stops (hs : s.Sound) (hstage : stage.Sound) (hshallow : s.Shallow host stage)
    {left : Session} {stop : Stop} (h : s.openChannels host stage = (left, .error stop)) :
    stop.OfSystem stage := by
  have hopened : Silent host s (s.openOutput host stage .stdout).1 := silent_openOutput s stage .stdout
  have hstderr := hshallow.2
  unfold openChannels at h
  split at h
  · next hinput =>
    cases h
    exact readInput_stops hs hstage hinput
  · split at h
    · next hout =>
      cases h
      exact openOutput_stops hs hstage hshallow.1 hout
    · next hout =>
      rw [hout] at hopened hstderr
      split at h
      · next herr =>
        cases h
        exact openOutput_stops (hopened.toSettled.sound hs) hstage hstderr herr
      · cases h

theorem openChannels_ne_unwritten (host : Host) (s : Session) (stage : Stage) (left : Session)
    (e : SystemError) : s.openChannels host stage ≠ (left, .error (.unwritten e)) := by
  intro h
  obtain ⟨r, failure, hstop⟩ := openChannels_error h
  cases failure with
  | system e => cases hstop
  | refused refusal => cases hstop

/-! ## Commands -/

/-- A path leads, by way of links, to a file that its owner may execute. -/
def Runs (s : Session) (path : String) : Prop :=
  hasNul path = false ∧ ∃ place content mode,
    s.files.status s.processPlace path = .ok (place, .file content mode) ∧ Entry.ownerExecutes mode = true

/-- A file is run, or it is not, or the path cannot be put to the system. -/
theorem isExecutable_cases (s : Session) (path : String) :
    (s.Runs path ∧ s.isExecutable path = .ok true) ∨
      (hasNul path = false ∧ ¬s.Runs path ∧ s.isExecutable path = .ok false) ∨
      (hasNul path = true ∧ s.isExecutable path = .error .embeddedNul) := by
  unfold isExecutable Runs
  cases hasNul path with
  | true => simp
  | false =>
    simp only [Bool.false_eq_true, if_false, true_and]
    split
    · next place content mode hstatus =>
      cases hmode : Entry.ownerExecutes mode with
      | true => exact .inl ⟨⟨place, content, mode, hstatus, hmode⟩, rfl⟩
      | false =>
        right; left
        refine ⟨?_, rfl⟩
        rintro ⟨_, _, _, hsame, hexecutes⟩
        rw [hstatus] at hsame
        cases hsame
        rw [hmode] at hexecutes
        cases hexecutes
    · next hnone =>
      right; left
      refine ⟨?_, rfl⟩
      rintro ⟨place, content, mode, hstatus, -⟩
      exact hnone place content mode hstatus

theorem isExecutable_eq_true_iff {path : String} : s.isExecutable path = .ok true ↔ s.Runs path := by
  obtain ⟨hruns, hhere⟩ | ⟨-, hnot, hhere⟩ | ⟨hnul, hhere⟩ := s.isExecutable_cases path
  · simp [hhere, hruns]
  · simp [hhere, hnot]
  · simp [hhere, Runs, hnul]

theorem isExecutable_error_iff {path : String} {r : Refusal} :
    s.isExecutable path = .error r ↔ r = .embeddedNul ∧ hasNul path = true := by
  obtain ⟨hruns, hhere⟩ | ⟨hclean, -, hhere⟩ | ⟨hnul, hhere⟩ := s.isExecutable_cases path
  · simp [hhere, hruns.1]
  · simp [hhere, hclean]
  · simp [hhere, hnul, eq_comm]

theorem isExecutable_ok_iff (s : Session) {path : String} :
    (∃ found, s.isExecutable path = .ok found) ↔ hasNul path = false := by
  obtain ⟨hruns, hhere⟩ | ⟨hclean, -, hhere⟩ | ⟨hnul, hhere⟩ := s.isExecutable_cases path
  · simp [hhere, hruns.1]
  · simp [hhere, hclean]
  · simp [hhere, hnul]

theorem clean_of_mem_searchPath (h : hasNul ((s.environment.find? "PATH").getD "") = false) :
    ∀ directory ∈ s.searchPath, hasNul directory = false := by
  intro directory hdirectory
  obtain ⟨field, hfield, rfl⟩ := List.mem_map.1 (List.mem_filter.1 hdirectory).1
  rw [hasNul_eq_false_iff, String.toList_ofList]
  exact fun hnul => hasNul_eq_false_iff.1 h (Text.subset_of_mem_fields hfield hnul)

theorem searchPath_clean
    (h : ∀ v ∈ s.environment.bindings, hasNul v.1 = false ∧ hasNul v.2 = false) :
    ∀ directory ∈ s.searchPath, hasNul directory = false := by
  apply clean_of_mem_searchPath
  cases hfind : s.environment.find? "PATH" with
  | none => decide
  | some value =>
    obtain ⟨before, after, hbindings, -⟩ := List.lookup_eq_some_iff.1 hfind
    exact (h ("PATH", value) (by simp [hbindings])).2

theorem Sound.searchPath (hs : s.Sound) : ∀ directory ∈ s.searchPath, hasNul directory = false :=
  searchPath_clean fun v hv => ⟨(hs.environment v hv).1, (hs.environment v hv).2.1⟩

theorem search_ok (hs : s.Sound) {name : String} (hname : hasNul name = false)
    {directories : List String} (hclean : ∀ directory ∈ directories, hasNul directory = false) :
    ∃ found, s.search name directories = .ok found ∧ ∀ path ∈ found, hasNul path = false := by
  induction directories with
  | nil => exact ⟨none, rfl, by simp⟩
  | cons directory rest ih =>
    obtain ⟨hdirectory, hrest⟩ := List.forall_mem_cons.1 hclean
    have hcandidate : hasNul (s.candidate directory name) = false :=
      Path.hasNul_append (hs.hasNul_resolvePath hdirectory) hname
    obtain ⟨found, hfound⟩ := (isExecutable_ok_iff s).2 hcandidate
    simp only [search, hfound]
    cases found with
    | true => exact ⟨_, rfl, by simpa using hcandidate⟩
    | false => exact ih hrest

theorem findProgram_ok (host : Host) (hs : s.Sound) {name : String} (hname : hasNul name = false) :
    ∃ found, (s.findProgram host name).2 = .ok found ∧ ∀ path ∈ found, hasNul path = false := by
  unfold findProgram
  split
  · exact ⟨none, rfl, by simp⟩
  · split
    · have hpath := hs.hasNul_resolvePath hname
      obtain ⟨found, hfound⟩ := (isExecutable_ok_iff s).2 hpath
      simp only [hfound]
      cases found with
      | true => exact ⟨_, rfl, by simpa using hpath⟩
      | false => exact ⟨none, rfl, by simp⟩
    · obtain ⟨found, hfound, hclean⟩ := search_ok hs hname hs.searchPath
      rw [hfound]
      cases found with
      | none => exact ⟨none, rfl, hclean⟩
      | some path => exact ⟨some path, rfl, hclean⟩

theorem findCommand_ok (host : Host) (hs : s.Sound) {name : String} (hname : hasNul name = false) :
    ∃ command, (s.findCommand host name).2 = .ok command ∧
      ∀ path, command = .program path → hasNul path = false := by
  obtain ⟨found, hfound, hclean⟩ := findProgram_ok host hs hname
  unfold findCommand
  split
  · exact ⟨_, rfl, by simp⟩
  · generalize s.findProgram host name = r at hfound ⊢
    obtain ⟨looked, answer⟩ := r
    cases hfound
    cases found with
    | none => exact ⟨.unknown, rfl, by simp⟩
    | some path => exact ⟨.program path, rfl, by simpa using hclean⟩

/-! ## Builtins -/

theorem describeAll_ok (host : Host) {names : List String} (hs : s.Sound)
    (hnames : ∀ name ∈ names, hasNul name = false) :
    ∃ status, (s.describeAll host names).2.ending = .ok status := by
  induction names generalizing s with
  | nil => exact ⟨0, rfl⟩
  | cons name rest ih =>
    obtain ⟨hname, hrest⟩ := List.forall_mem_cons.1 hnames
    obtain ⟨command, hcommand, -⟩ := findCommand_ok host hs hname
    have hfound : Silent host s (s.findCommand host name).1 := silent_findCommand s name
    obtain ⟨status, hstatus⟩ := ih (hfound.toSettled.sound hs) hrest
    simp only [describeAll]
    generalize s.findCommand host name = r at hcommand hstatus ⊢
    obtain ⟨found, answer⟩ := r
    cases hcommand
    simp only at hstatus
    simp only [hstatus]
    exact ⟨_, rfl⟩

theorem perform_not_refused (host : Host) (hs : s.Sound) (b : Builtin) {args : List String}
    (hargs : ∀ arg ∈ args, hasNul arg = false) (r : Refusal) :
    (s.perform host b args).2.ending ≠ .error (.refused r) := by
  intro h
  rcases perform_stops h with ⟨rfl, -⟩ | ⟨code, -, hleave, -⟩
  · have hnoted : Silent host s (s.note host (.builtin Builtin.type.name args)) := silent_note s rfl
    obtain ⟨status, hstatus⟩ := describeAll_ok host (hnoted.toSettled.sound hs) hargs
    have htype : (s.perform host .type args).2.ending = .ok status := hstatus
    rw [htype] at h
    cases h
  · cases hleave

/-! ## Programs -/

theorem refusal?_orderOf (host : Host) (hs : s.Sound) (hstage : stage.Sound) {path : String}
    (hpath : hasNul path = false) (input : Option Bytes) (channels : Channels) (last : Bool) :
    (s.orderOf host stage path input channels last).refusal? = none := by
  have hnames : (s.environment.bindings.any fun v => v.1.toList.contains '=') = false := by
    rw [List.any_eq_false]
    intro v hv
    simpa using (hs.environment v hv).2.2
  have hvalues : (s.environment.bindings.any fun v => hasNul v.1 || hasNul v.2) = false := by
    rw [List.any_eq_false]
    intro v hv
    simp [(hs.environment v hv).1, (hs.environment v hv).2.1]
  have hargv : stage.argv.any hasNul = false := by
    rw [List.any_eq_false]
    intro word hword
    simp [hstage.argv word hword]
  simp only [Order.refusal?, orderOf, hnames, hvalues, hargv, hpath, hs.directory]
  rfl

theorem started_not_refused (host : Host) {order : Order} (h : order.refusal? = none) (s : Session)
    (r : Refusal) : s.started host order ≠ .error (.refused r) := by
  unfold started
  rw [h]
  simp only
  split
  · intro hstarted
    cases hstarted
  · intro hstarted
    cases hstarted

/-- A file that fails as it is closed refuses nothing. -/
theorem closed_ne_refused {α : Type} {ending : Except Stop α} {r : Refusal}
    (h : ending ≠ .error (.refused r)) (fault : Option SystemError) :
    closed ending fault ≠ .error (.refused r) := by
  cases fault with
  | none => exact h
  | some e =>
    intro hclosed
    cases hclosed

theorem giveUp_not_refused (s : Session) (stage : Stage) (channels : Channels) (status : Int)
    (r : Refusal) : (s.giveUp stage channels status).2 ≠ .error (.refused r) := by
  apply closed_ne_refused
  intro h
  cases h

theorem runProgram_not_refused (host : Host) (hs : s.Sound) (hstage : stage.Sound) {path : String}
    (hpath : hasNul path = false) (input : Option Bytes) (channels : Channels) (last : Bool)
    (r : Refusal) :
    (s.runProgram host stage path input channels last).2 ≠ .error (.refused r) := by
  have horder := refusal?_orderOf host hs hstage hpath input channels last
  generalize horderOf : s.orderOf host stage path input channels last = order at horder
  have hstarted := started_not_refused host horder (s.flush.counted host order)
  unfold runProgram
  rw [horderOf, launch_eq]
  cases hfound : (s.flush.counted host order).started host order with
  | error failure =>
    cases failure with
    | refused r => exact absurd hfound (hstarted r)
    | system e about => exact giveUp_not_refused _ stage channels _ r
  | ok found =>
    intro h
    simp only at h
    split at h <;> cases h

/-! ## Stages -/

/-- Where all texts can be put to the system, no command is refused. -/
theorem runCommand_not_refused (host : Host) (hs : s.Sound) (hstage : stage.Sound) (piped : Option Bytes)
    (channels : Channels) (last : Bool) (r : Refusal) :
    (s.runCommand host stage piped channels last).2 ≠ .error (.refused r) := by
  obtain ⟨command, hcommand, hclean⟩ := findCommand_ok host hs hstage.name
  have hfound : Silent host s (s.findCommand host stage.name).1 := silent_findCommand s stage.name
  have hlooked := hfound.toSettled.sound hs
  unfold runCommand
  split
  · intro h
    cases h
  · generalize s.findCommand host stage.name = looked at hcommand hlooked ⊢
    obtain ⟨found, answer⟩ := looked
    cases hcommand
    cases command with
    | builtin b =>
      have hperform := perform_not_refused host hlooked b hstage.args r
      simp only [runBuiltin]
      generalize (found.perform host b stage.args).2.ending = ending at hperform
      apply closed_ne_refused
      intro h
      cases ending with
      | ok status => cases h
      | error stop =>
        cases h
        exact hperform rfl
    | program path =>
      exact runProgram_not_refused host hlooked hstage (hclean path rfl) _ channels last r
    | unknown => exact giveUp_not_refused found stage channels _ r

end Session

namespace Arrival

open Session

variable {host : Host} {a : Arrival}

/-- A file that has been opened for what the stage writes does not take it, for the reason `e`. -/
def Overflows (host : Host) (a : Arrival) (e : SystemError) : Prop :=
  ∃ ready channels handle, a.session.openChannels host a.stage = (ready, .ok channels) ∧
    (channels.out = some handle ∨ channels.err = some handle) ∧
    (a.session.files.grant handle.place).fault = some e

/-- How a stage ends. What the system says no to ends the line with a report, or is a status, unless it
says no when a file is written to. -/
inductive Ends (host : Host) (a : Arrival) : Prop
  /-- A redirection fails. -/
  | aborted (r : Redirection) (e : SystemError) (hdeed : a.deed? host = none)
    (h : (a.run host).2 = .error (stopAt a.stage r (.system e)))
  /-- The command is not found, or its program does not start. -/
  | failed (deed : Deed) (status : Int) (hdeed : a.deed? host = some deed)
    (hstatus : deed.failure? = some status) (h : (a.run host).2 = .ok ⟨a.stage.name, status, none⟩)
  /-- The session is left. -/
  | left (code : Nat) (hcode : code < 256) (h : (a.run host).2 = .error (.leave code))
  /-- What the stage has written does not arrive. -/
  | unwritten (e : SystemError) (hoverflows : a.Overflows host e)
    (h : (a.run host).2 = .error (.unwritten e))
  /-- There is nothing to run, or what is run comes to its end. -/
  | ended (deed : Deed) (result : StageResult) (hdeed : a.deed? host = some deed)
    (hstatus : deed.failure? = none) (h : (a.run host).2 = .ok result)

theorem ends (hs : a.session.Sound) (hstage : a.stage.Sound)
    (hshallow : a.session.Shallow host a.stage) : a.Ends host := by
  cases a.goes host with
  | cut left stop hopen hsilent hrun hdeed =>
    obtain ⟨r, e, rfl⟩ := openChannels_stops hs hstage hshallow hopen
    exact .aborted r e hdeed (congrArg Prod.snd hrun)
  | did ready channels deed hopen hsilent hrun hdeed hdid =>
    have hrefused := runCommand_not_refused host (hsilent.toSettled.sound hs) hstage a.piped channels
      a.last
    rw [← hrun] at hrefused
    cases hanswer : (a.run host).2 with
    | error stop =>
      rcases hdid.stops stop hanswer with
        ⟨r, rfl⟩ | ⟨code, hcode, rfl, -⟩ | ⟨e, rfl, handle, hhandle, hfault⟩
      · exact absurd hanswer (hrefused r)
      · exact .left code hcode hanswer
      · exact .unwritten e ⟨ready, channels, handle, hopen, hhandle, hfault⟩ hanswer
    | ok result =>
      cases hstatus : deed.failure? with
      | none => exact .ended deed result hdeed hstatus hanswer
      | some status =>
        have hclosed := (hdid.failure status hstatus).symm.trans hanswer
        obtain ⟨hresult, -⟩ := closed_eq_ok hclosed
        exact .failed deed status hdeed hstatus (hanswer.trans hresult.symm)

theorem Ends.stops (h : a.Ends host) {stop : Stop} (hstop : (a.run host).2 = .error stop) :
    stop.OfSystem a.stage ∨ (∃ code < 256, stop = .leave code) ∨
      ∃ e, stop = .unwritten e ∧ a.Overflows host e := by
  cases h with
  | aborted r e hdeed h =>
    rw [h] at hstop
    cases hstop
    exact .inl ⟨r, e, rfl⟩
  | left code hcode h =>
    rw [h] at hstop
    cases hstop
    exact .inr (.inl ⟨code, hcode, rfl⟩)
  | unwritten e hoverflows h =>
    rw [h] at hstop
    cases hstop
    exact .inr (.inr ⟨e, rfl, hoverflows⟩)
  | failed deed status hdeed hstatus h =>
    rw [h] at hstop
    cases hstop
  | ended deed result hdeed hstatus h =>
    rw [h] at hstop
    cases hstop

/-- A stage that ends so has a file that does not take what is written to it. -/
theorem overflows_of_unwritten {e : SystemError} (h : (a.run host).2 = .error (.unwritten e)) :
    a.Overflows host e := by
  cases a.goes host with
  | cut left stop hopen hsilent hrun hdeed =>
    rw [hrun] at h
    cases h
    exact absurd hopen (openChannels_ne_unwritten host a.session a.stage left e)
  | did ready channels deed hopen hsilent hrun hdeed hdid =>
    rcases hdid.stops _ h with
      ⟨r, hr⟩ | ⟨code, -, hleave, -⟩ | ⟨e', hsame, handle, hhandle, hfault⟩
    · cases hr
    · cases hleave
    · cases hsame
      exact ⟨ready, channels, handle, hopen, hhandle, hfault⟩

end Arrival

namespace Session

variable {host : Host} {s : Session} {line : String}

/-! ## Lines -/

/-- A line that ends so has come to such a stage. -/
theorem exists_overflowing {e : SystemError} (h : (s.execute host line).2 = .error (.unwritten e)) :
    ∃ a ∈ s.lineArrivals host line, a.Overflows host e := by
  have hcourse := course_runLine host s line
  rw [execute_eq] at h
  generalize s.runLine host line = r at hcourse h
  obtain ⟨done, answer⟩ := r
  cases answer with
  | ok results => cases h
  | error stop =>
    obtain ⟨before, a, harrivals, hstop⟩ := hcourse.stops
    have hsame : stop = .unwritten e := by
      cases stop <;> cases h
      rfl
    rw [hsame] at hstop
    exact ⟨a, by simp [harrivals], Arrival.overflows_of_unwritten hstop⟩

theorem sound_arrivals (hs : s.Sound) :
    ∀ a ∈ s.lineArrivals host line, a.session.Sound := by
  have hread : Silent host s (s.readLine host line).1 := silent_readLine host s line
  apply forall_arrivals
  · exact fun position s stage h => (settled_announced host position _ s stage).sound h
  · exact fun a h => (a.settled_run host).sound h
  · intro position s stage h
    have hnoted : Silent host s
        (s.note host (.stage position (Pipeline.ofLine line).stages.length .completed stage)) :=
      silent_note s rfl
    exact hnoted.toSettled.sound h
  · exact hread.toSettled.sound hs

theorem sound_stages (hline : hasNul line = false) :
    ∀ a ∈ s.lineArrivals host line, a.stage.Sound := by
  intro a ha
  have hreached := map_stage_lineArrivals host s line
  exact sound_of_mem_stages hline (hreached.subset (List.mem_map_of_mem ha))

/-- A line does nothing that nobody answers for. -/
structure Safe (host : Host) (s : Session) (line : String) : Prop where
  /-- The line has a status, or it ends the session with a byte, or it ends where a stage has written to a
  file that does not take it. -/
  answer : (∃ status, (s.execute host line).2 = .ok status) ∨
    (∃ code < 256, (s.execute host line).2 = .error (.leave code)) ∨
    ∃ e, (s.execute host line).2 = .error (.unwritten e) ∧
      ∃ a ∈ s.lineArrivals host line, a.Overflows host e
  /-- Each stage ends in one of the ways in which stages end. -/
  stages : ∀ a ∈ s.lineArrivals host line, a.Ends host
  /-- A line that has stages and is not stopped has a last result. -/
  status : ∀ results, (s.runLine host line).2 = .ok results → (Pipeline.ofLine line).stages ≠ [] →
    ∃ result, results.getLast? = some result ∧ (s.execute host line).2 = .ok result.status
  /-- What a program writes into a pipe is there when it has ended. -/
  captured : ∀ (u done : Session) (order : Order) (outcome : Outcome),
    u.launch host order = (done, .ok outcome) →
      (order.out = .pipe → outcome.out.isSome) ∧ (order.err = .pipe → outcome.err.isSome)
  /-- What the name of a builtin stands for is that builtin. -/
  builtins : ∀ b : Builtin, Builtin.ofName? b.name = some b
  /-- The exit builtin ends the session whatever its arguments are. -/
  exits : ∀ (u : Session) (args : List String),
    ∃ code < 256, (u.perform host .exit args).2.ending = .error (.leave code)

theorem captured_launch {u done : Session} {order : Order} {outcome : Outcome}
    (h : u.launch host order = (done, .ok outcome)) :
    (order.out = .pipe → outcome.out.isSome) ∧ (order.err = .pipe → outcome.err.isSome) := by
  rw [launch_eq] at h
  split at h
  · cases h
  · cases h
  · cases h
    simp +contextual [Outlet.captured]

/-- A line whose stages end is answered. -/
theorem answer_of_ends (hends : ∀ a ∈ s.lineArrivals host line, a.Ends host) :
    (∃ status, (s.execute host line).2 = .ok status) ∨
      (∃ code < 256, (s.execute host line).2 = .error (.leave code)) ∨
      ∃ e, (s.execute host line).2 = .error (.unwritten e) ∧
        ∃ a ∈ s.lineArrivals host line, a.Overflows host e := by
  have hcourse := course_runLine host s line
  rw [execute_eq]
  generalize s.runLine host line = r at hcourse ⊢
  obtain ⟨done, answer⟩ := r
  cases answer with
  | ok results => exact .inl ⟨_, rfl⟩
  | error stop =>
    obtain ⟨before, a, harrivals, hstop⟩ := hcourse.stops
    have hmem : a ∈ s.lineArrivals host line := by simp [harrivals]
    rcases (hends a hmem).stops hstop with ⟨r, e, rfl⟩ | ⟨code, hcode, rfl⟩ | ⟨e, rfl, hoverflows⟩
    · exact .inl ⟨1, rfl⟩
    · exact .inr (.inl ⟨code, hcode, rfl⟩)
    · exact .inr (.inr ⟨e, rfl, a, hmem, hoverflows⟩)

/-- The status of a line that has stages and is not stopped is that of its last result. -/
theorem status_of_ok {results : List StageResult} (h : (s.runLine host line).2 = .ok results)
    (hstages : (Pipeline.ofLine line).stages ≠ []) :
    ∃ result, results.getLast? = some result ∧ (s.execute host line).2 = .ok result.status := by
  have hlength := (map_stage_lineArrivals_of_ok h).2
  have hresults : results ≠ [] := by
    rintro rfl
    exact hstages (List.length_eq_zero_iff.1 hlength.symm)
  refine ⟨results.getLast hresults, List.getLast?_eq_some_getLast hresults, ?_⟩
  rw [execute_eq]
  generalize s.runLine host line = r at h ⊢
  obtain ⟨done, answer⟩ := r
  cases h
  simp [List.getLast?_eq_some_getLast hresults]

/-- Let a line, the working directory and the environment hold no character that ends texts in the
system, and no name of a variable an equals sign. Unless too many directories are missing one inside the
other, or a file fails to take what a stage writes to it, the line has a status or ends the session. -/
theorem execute_safe (hline : hasNul line = false) (hs : s.Sound)
    (hshallow : ∀ a ∈ s.lineArrivals host line, a.session.Shallow host a.stage) :
    Safe host s line := by
  have hends : ∀ a ∈ s.lineArrivals host line, a.Ends host := fun a ha =>
    Arrival.ends (sound_arrivals hs a ha) (sound_stages hline a ha) (hshallow a ha)
  constructor
  case stages => exact hends
  case captured => exact fun u done order outcome => captured_launch
  case builtins =>
    intro b
    cases b <;> decide
  case exits =>
    intro u args
    obtain ⟨code, hcode, hending, -⟩ := exitReply_spec args
    exact ⟨code, hcode, hending⟩
  case answer => exact answer_of_ends hends
  case status => exact fun results => status_of_ok

/-- `/cat < /in | nope > /d/x 2> /e | exit 300` reads a file, does not find a command, makes a directory
and two files, and leaves the session. -/
theorem execute_safe_exit :
    Safe Small.host Small.session "/cat < /in | nope > /d/x 2> /e | exit 300" := by
  have hline : hasNul "/cat < /in | nope > /d/x 2> /e | exit 300" = false := by decide
  have hsound : Small.session.Sound := ⟨by decide, fun v hv => nomatch hv⟩
  have hshallow : ∀ a ∈ Small.session.lineArrivals Small.host
      "/cat < /in | nope > /d/x 2> /e | exit 300", a.session.Shallow Small.host a.stage := by
    decide +kernel
  exact execute_safe hline hsound hshallow

/-- `echo a > /full` writes to a device on which there is no space. Neither has it a status, nor does it
leave the session, and nothing is reported. -/
theorem execute_full_device :
    hasNul "echo a > /full" = false ∧ Small.full.Sound ∧
      (∀ a ∈ Small.full.lineArrivals Small.host "echo a > /full",
        a.session.Shallow Small.host a.stage) ∧
      (Small.full.execute Small.host "echo a > /full").2 = .error (.unwritten .noSpace) ∧
      (Small.full.execute Small.host "echo a > /full").1.err = [] := by
  refine ⟨by decide, ⟨by decide, fun v hv => nomatch hv⟩, ?_⟩
  decide +kernel

end Session

end PipelineShell
