import PipelineShell.Execution
import PipelineShell.Proofs.FileTree.Startable
import PipelineShell.Proofs.Notes

/-!
# Like sessions

Two sessions are alike on some places if they agree in all but the journal and the objects
added. Everything that a session does has a trail, the places that its lookups look at. Where the
trail keeps to these places, like sessions do the same and stay alike: this is shown for one
operation after the other, up to whole runs (`runFrom_alike`).
-/

namespace PipelineShell

namespace FileTree

variable {X : Place → Prop} {added : Place → Option Entry} {t t' : FileTree}

theorem write_agree {handle : Handle} (h : Agree X added t t') (hplace : X handle.place)
    (bytes : Bytes) :
    (handle.write t' bytes).2 = (handle.write t bytes).2 ∧
      Agree X added (handle.write t bytes).1 (handle.write t' bytes).1 := by
  simp only [Handle.write, h.inside _ hplace, arriving_congr h.grants, modeAfter_congr h.grants]
  split
  · split
    · exact ⟨rfl, h.insert hplace _⟩
    · exact ⟨rfl, h.insert hplace _⟩
  · exact ⟨rfl, h⟩

theorem write_place (handle : Handle) (t : FileTree) (bytes : Bytes) :
    (handle.write t bytes).2.place = handle.place := by
  unfold Handle.write
  split
  · dsimp only
    split <;> rfl
  · rfl

theorem carry_agree {out err : Option Handle} (h : Agree X added t t') (hout : ∀ o ∈ out, X o.place)
    (herr : ∀ e ∈ err, X e.place) (writes : List (Sink × Bytes)) :
    Agree X added (t.carry out err writes) (t'.carry out err writes) := by
  induction writes generalizing t t' out err with
  | nil => exact h
  | cons write rest ih =>
    obtain ⟨sink, bytes⟩ := write
    cases sink with
    | out =>
      cases out with
      | none => exact ih h hout herr
      | some handle =>
        obtain ⟨hhandle, hafter⟩ := write_agree h (hout handle rfl) bytes
        simp only [carry, hhandle]
        refine ih hafter ?_ herr
        rintro o ⟨⟩
        rw [write_place]
        exact hout handle rfl
    | err =>
      cases err with
      | none => exact ih h hout herr
      | some handle =>
        obtain ⟨hhandle, hafter⟩ := write_agree h (herr handle rfl) bytes
        simp only [carry, hhandle]
        refine ih hafter hout ?_
        rintro e ⟨⟩
        rw [write_place]
        exact herr handle rfl

end FileTree

namespace Session

/-! ## Like sessions -/

/-- `s'` is as `s` but for its journal and some files added at places outside `X`. -/
structure Alike (X : Place → Prop) (added : Place → Option Entry) (s s' : Session) : Prop where
  files : FileTree.Agree X added s.files s'.files
  directory : s'.directory = s.directory
  processPlace : s'.processPlace = s.processPlace
  environment : s'.environment = s.environment
  out : s'.out = s.out
  err : s'.err = s.err
  held : s'.held = s.held
  input : s'.input = s.input
  tally : s'.tally = s.tally

variable {X : Place → Prop} {added : Place → Option Entry} {s s' : Session} {host : Host}

theorem Alike.note (h : Alike X added s s') (hquiet : host.Quiet) {event event' : Event}
    (hlevel : event.level = .debug) (hlevel' : event'.level = .debug) :
    Alike X added (s.note host event) (s'.note host event') := by
  rw [note_of_quiet hquiet hlevel, note_of_quiet hquiet hlevel']
  exact ⟨h.files, h.directory, h.processPlace, h.environment, h.out, h.err, h.held, h.input, h.tally⟩

theorem Alike.noted (h : Alike X added s s') (hquiet : host.Quiet) {event : Event}
    (hlevel : event.level = .debug) : Alike X added s (s'.note host event) := by
  rw [note_of_quiet hquiet hlevel]
  exact ⟨h.files, h.directory, h.processPlace, h.environment, h.out, h.err, h.held, h.input, h.tally⟩

theorem Alike.print (h : Alike X added s s') (text : Bytes) : Alike X added (s.print text) (s'.print text) :=
  ⟨h.files, h.directory, h.processPlace, h.environment, congrArg (· ++ text) h.out, h.err,
    by simp only [Session.print, h.held], h.input, h.tally⟩

theorem Alike.printError (h : Alike X added s s') (text : Bytes) :
    Alike X added (s.printError text) (s'.printError text) :=
  ⟨h.files, h.directory, h.processPlace, h.environment, h.out, congrArg (· ++ text) h.err,
    by simp only [Session.printError, h.held], h.input, h.tally⟩

theorem Alike.writeFile (h : Alike X added s s') {handle : Handle} (hplace : X handle.place)
    (bytes : Bytes) : Alike X added (s.writeFile handle bytes) (s'.writeFile handle bytes) :=
  ⟨(FileTree.write_agree h.files hplace bytes).2, h.directory, h.processPlace, h.environment, h.out,
    h.err, h.held, h.input, h.tally⟩

theorem Alike.withFiles (h : Alike X added s s') {t t' : FileTree} (hfiles : FileTree.Agree X added t t') :
    Alike X added { s with files := t } { s' with files := t' } :=
  ⟨hfiles, h.directory, h.processPlace, h.environment, h.out, h.err, h.held, h.input, h.tally⟩

theorem Alike.resolvePath (h : Alike X added s s') (path : String) :
    s'.resolvePath path = s.resolvePath path := by
  rw [Session.resolvePath, Session.resolvePath, h.directory]

theorem Alike.home (h : Alike X added s s') : s'.home = s.home := by
  rw [Session.home, Session.home, h.environment]

theorem Alike.expandHome (h : Alike X added s s') (path : String) :
    s'.expandHome path = s.expandHome path := by
  simp only [Session.expandHome, h.home]

/-! ## Finding commands -/

theorem isExecutable_alike (h : Alike X added s s') (path : String) :
    s'.isExecutable path = s.isExecutable path := by
  have hstatus := FileTree.status_beside h.files s.processPlace path
  unfold isExecutable
  rw [h.processPlace]
  split
  · rfl
  · generalize s.files.status s.processPlace path = r at hstatus ⊢
    generalize s'.files.status s.processPlace path = r' at hstatus ⊢
    cases hstatus with
    | same => rfl
    | failed e e' => rfl
    | idle e place content hmode => simp only [FileTree.ownerExecutes_eq_false hmode]

theorem transparent_alike (hquiet : host.Quiet) : Transparent host host (Alike X added) where
  directory h := h.directory
  environment h := h.environment
  isExecutable h path := isExecutable_alike h path
  note h _ hlevel := h.note hquiet hlevel hlevel

/-! ## Builtins -/

/-- The places that a lookup of an object looks at. -/
def lookupTrail (s : Session) (path : String) : List Place :=
  s.files.trail .object s.processPlace path

theorem status_alike (h : Alike X added s s') {path : String}
    (htrail : ∀ p ∈ s.lookupTrail path, X p) :
    s'.files.status s'.processPlace path = s.files.status s.processPlace path := by
  rw [h.processPlace]
  exact FileTree.status_congr h.files.grants (h.files.along htrail)

theorem changeDirectory_alike (h : Alike X added s s') {path : String}
    (htrail : ∀ p ∈ s.lookupTrail (s.resolvePath path).text, X p) :
    SameAnswer (Alike X added) (s.changeDirectory host path) (s'.changeDirectory host path) := by
  have hstatus := status_alike h htrail
  have hexists : s'.files.pathExists s'.processPlace (s.resolvePath path).text =
      s.files.pathExists s.processPlace (s.resolvePath path).text := by
    rw [FileTree.pathExists, FileTree.pathExists, hstatus]
  have hdirectory : s'.files.directory? s'.processPlace (s.resolvePath path).text =
      s.files.directory? s.processPlace (s.resolvePath path).text := by
    rw [FileTree.directory?, FileTree.directory?, hstatus]
  simp only [changeDirectory, h.resolvePath, hexists, hdirectory, FileTree.grant_congr h.files.grants]
  split
  · split
    · exact ⟨rfl, h⟩
    split
    · exact ⟨rfl, h⟩
    · refine ⟨rfl, ?_⟩
      refine ⟨h.files, rfl, ?_, h.environment, h.out, h.err, h.held, h.input, h.tally⟩
      simp only [h.processPlace]
  · exact ⟨rfl, h⟩

/-- The target of `cd`. -/
def moveTarget (s : Session) : List String → String
  | [] => s.home
  | arg :: _ => s.expandHome arg

/-- `cd` with its target. -/
def enter (host : Host) (s : Session) (path : String) : Session × Reply :=
  if path = "" then (s, .complain "cd: HOME not set\n")
  else
    match s.changeDirectory host path with
    | (s, some e) => (s, .complain ("cd: " ++ path ++ ": " ++ e.reason ++ "\n"))
    | (s, none) => (s.note host (.moved s.directory), .silent 0)

theorem moveTo_eq (host : Host) (s : Session) {args : List String} (h : args.length ≤ 1) :
    s.moveTo host args = s.enter host (s.moveTarget args) := by
  have hargs : args = [] ∨ ∃ arg, args = [arg] := by
    match args, h with
    | [], _ => exact .inl rfl
    | [arg], _ => exact .inr ⟨arg, rfl⟩
  unfold moveTo enter
  rcases hargs with rfl | ⟨arg, rfl⟩
  all_goals
    simp only [moveTarget]
    refine ite_congr rfl (fun _ => rfl) fun _ => ?_
    generalize changeDirectory host s _ = r
    obtain ⟨moved, answer⟩ := r
    cases answer with
    | none => rfl
    | some e => rfl

theorem enter_alike (hquiet : host.Quiet) (h : Alike X added s s') {path : String}
    (htrail : ∀ p ∈ s.lookupTrail (s.resolvePath path).text, X p) :
    SameAnswer (Alike X added) (s.enter host path) (s'.enter host path) := by
  obtain ⟨moved, moved', answer, hmoved, hmoved', hafter⟩ :=
    (changeDirectory_alike h htrail).exists
  rw [enter, enter, hmoved, hmoved']
  split
  · exact ⟨rfl, h⟩
  · cases answer with
    | some e => exact ⟨rfl, hafter⟩
    | none => exact ⟨rfl, hafter.note hquiet rfl rfl⟩

/-- The places that `moveTo` looks at. -/
def moveTrail (s : Session) (args : List String) : List Place :=
  if args.length ≤ 1 then s.lookupTrail (s.resolvePath (s.moveTarget args)).text else []

theorem moveTo_alike (hquiet : host.Quiet) (h : Alike X added s s') {args : List String}
    (htrail : ∀ p ∈ s.moveTrail args, X p) :
    SameAnswer (Alike X added) (s.moveTo host args) (s'.moveTo host args) := by
  unfold moveTrail at htrail
  by_cases hargs : args.length ≤ 1
  · rw [if_pos hargs] at htrail
    have htarget : s'.moveTarget args = s.moveTarget args := by
      cases args with
      | nil => exact h.home
      | cons arg rest => exact h.expandHome arg
    rw [moveTo_eq host s hargs, moveTo_eq host s' hargs, htarget]
    exact enter_alike hquiet h htrail
  · match args, hargs with
    | [], hargs => exact absurd (Nat.zero_le 1) hargs
    | [arg], hargs => exact absurd (Nat.le_refl 1) hargs
    | _ :: _ :: _, _ => exact ⟨rfl, h⟩

theorem describeAll_alike (hquiet : host.Quiet) (h : Alike X added s s') (names : List String) :
    SameAnswer (Alike X added) (s.describeAll host names) (s'.describeAll host names) := by
  induction names generalizing s s' with
  | nil => exact ⟨rfl, h⟩
  | cons name rest ih =>
    obtain ⟨found, found', answer, hfound, hfound', hafter⟩ :=
      ((transparent_alike hquiet).findCommand h name).exists
    simp only [describeAll, hfound, hfound']
    cases answer with
    | error r => exact ⟨rfl, hafter⟩
    | ok command =>
      obtain ⟨hanswer, hlast⟩ := ih hafter
      refine ⟨?_, hlast⟩
      simp only [hanswer]

/-- The places that `perform` looks at. -/
def performTrail (host : Host) (s : Session) (b : Builtin) (args : List String) : List Place :=
  match b with
  | .cd => (s.note host (.builtin b.name args)).moveTrail args
  | _ => []

theorem perform_alike (hquiet : host.Quiet) (h : Alike X added s s') {b : Builtin} {args : List String}
    (htrail : ∀ p ∈ s.performTrail host b args, X p) :
    SameAnswer (Alike X added) (s.perform host b args) (s'.perform host b args) := by
  have hnoted : Alike X added (s.note host (.builtin b.name args)) (s'.note host (.builtin b.name args)) :=
    h.note hquiet rfl rfl
  cases b with
  | exit => exact ⟨rfl, hnoted⟩
  | echo => exact ⟨rfl, hnoted⟩
  | type => exact describeAll_alike hquiet hnoted args
  | pwd =>
    refine ⟨?_, hnoted⟩
    simp only [perform, hnoted.directory]
  | cd => exact moveTo_alike hquiet hnoted htrail

/-! ## Redirections -/

/-- The places that `readInput` looks at. -/
def inputTrail (s : Session) (stage : Stage) : List Place :=
  match stage.redirection? .stdin with
  | none => []
  | some r => s.lookupTrail (s.resolvePath r.target).text

theorem readInput_alike (h : Alike X added s s') {stage : Stage}
    (htrail : ∀ p ∈ s.inputTrail stage, X p) : s'.readInput stage = s.readInput stage := by
  unfold inputTrail at htrail
  unfold readInput
  split
  · rfl
  · next r hr =>
    simp only [hr] at htrail
    rw [h.resolvePath, h.processPlace, FileTree.read_agree h.files htrail]

/-- The places that `openOutput` looks at. -/
def outputTrail (host : Host) (s : Session) (stage : Stage) (stream : Stream) : List Place :=
  match stage.redirection? stream with
  | none => []
  | some r =>
    let path := s.resolvePath r.target
    s.files.parentsTrail s.processPlace path ++
      (s.files.ensureParents host.nesting s.processPlace path).1.trail .newFile s.processPlace path.text

theorem openOutput_alike (hquiet : host.Quiet) (h : Alike X added s s') {stage : Stage}
    {stream : Stream} (htrail : ∀ p ∈ s.outputTrail host stage stream, X p) :
    SameAnswer (Alike X added) (s.openOutput host stage stream) (s'.openOutput host stage stream) := by
  unfold outputTrail at htrail
  unfold openOutput
  cases hr : stage.redirection? stream with
  | none => exact ⟨rfl, h⟩
  | some r =>
    simp only [hr, List.mem_append] at htrail
    have hparents : SameAnswer (FileTree.Agree X added)
        (s.files.ensureParents host.nesting s.processPlace (s.resolvePath r.target))
        (s'.files.ensureParents host.nesting s'.processPlace (s.resolvePath r.target)) := by
      rw [h.processPlace]
      exact FileTree.ensureParents_agree h.files fun p hp => htrail p (.inl hp)
    obtain ⟨made, made', answer, hmade, hmade', hagree⟩ := hparents.exists
    rw [hmade] at htrail
    simp only [h.resolvePath, hmade, hmade']
    cases answer with
    | error failure => exact ⟨rfl, h.withFiles hagree⟩
    | ok done =>
      have hopen : FileTree.SameOpening (FileTree.Agree X added)
          (made.openFile s.processPlace (s.resolvePath r.target).text r.operator.appends)
          (made'.openFile s'.processPlace (s.resolvePath r.target).text r.operator.appends) := by
        rw [h.processPlace]
        exact FileTree.openFile_agree hagree fun p hp => htrail p (.inr hp)
      simp only
      generalize made.openFile _ _ _ = opening at hopen ⊢
      generalize made'.openFile _ _ _ = opening' at hopen ⊢
      cases hopen with
      | failed failure => exact ⟨rfl, h.withFiles hagree⟩
      | opened handle hopened => exact ⟨rfl, (h.withFiles hopened).note hquiet rfl rfl⟩

theorem place_mem_outputTrail {stage : Stage} {stream : Stream} {opened : Session}
    {handle : Handle} (h : s.openOutput host stage stream = (opened, .ok (some handle))) :
    handle.place ∈ s.outputTrail host stage stream := by
  unfold openOutput at h
  unfold outputTrail
  cases hr : stage.redirection? stream with
  | none =>
    simp only [hr] at h
    cases h
  | some r =>
    simp only [hr] at h ⊢
    cases hmade : s.files.ensureParents host.nesting s.processPlace (s.resolvePath r.target) with
    | mk made answer =>
      rw [hmade] at h
      cases answer with
      | error failure => cases h
      | ok done =>
        simp only at h
        split at h
        · cases h
        · next hopen =>
          cases h
          exact List.mem_append_right _ (FileTree.place_mem_of_openFile hopen)

end Session

end PipelineShell
