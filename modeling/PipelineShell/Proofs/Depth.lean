import PipelineShell.Proofs.Blindness
import PipelineShell.Proofs.Failing
import PipelineShell.Proofs.Rendering
import PipelineShell.Proofs.Safety
import PipelineShell.Proofs.SameWorld

/-!
# Directories that are missing one inside the other

Where a name is free in the root, nothing below it exists, so all directories of a path through it are
missing (`nesting_replicate`). With more of them than the shell goes up for one path a line is refused
(`execute_deepLine`). How far it goes depends on how deep its own calls are nested, and that makes no
other difference to a line (`execute_nested`).
-/

namespace PipelineShell

namespace FileTree

variable {t : FileTree} {slashes : Nat} {name : String}

/-- Nothing exists below a name that is free. -/
theorem pathExists_of_free (hslashes : slashes ≠ 0) (hfree : t.find? [name] = none)
    (hplain : name ≠ "." ∧ name ≠ "..") {names : List String}
    (hproper : Path.Proper (name :: names)) (start : Place) :
    t.pathExists start (Path.spell slashes (name :: names)) = false := by
  have hname := (hproper name List.mem_cons_self).1
  have hwalk : ∀ links place, t.walk .object links [] (name :: names) ≠ .ok (.taken place) := by
    intro links place
    have hfirst : ∀ jump, t.walkWith .object jump [] (name :: names) ≠ .ok (.taken place) := by
      intro jump
      simp only [walkWith, hname, hplain.1, hplain.2, hfree, if_false, reduceCtorEq, false_and]
      split
      · simp
      · split
        · simp
        · split <;> simp
    cases links with
    | zero => exact hfirst _
    | succ links => exact hfirst _
  have hlocate : ∀ place,
      t.locate .object start (Path.spell slashes (name :: names)) ≠ .ok (.taken place) := by
    intro place
    unfold locate
    rw [origin, if_pos (Path.isAbsolute_spell hslashes _), steps_spell hproper (by simp)]
    split
    · simp
    · split
      · simp
      · exact hwalk maxLinks place
  have hstatus : (t.status start (Path.spell slashes (name :: names))).isOk = false := by
    unfold status
    split
    · rfl
    · rfl
    · next place hfound => exact absurd hfound (hlocate place)
  simp [pathExists, hstatus]

/-- Below a name that is free all directories are missing. -/
theorem nesting_replicate (hslashes : slashes ≠ 0) (hfree : t.find? [name] = none)
    (hplain : name ≠ "." ∧ name ≠ "..") (hproper : Path.Proper [name]) (start : Place) (depth : Nat) :
    t.nesting start slashes (List.replicate (depth + 1) name) = depth := by
  induction depth with
  | zero => rfl
  | succ depth ih =>
    have hbelow : Path.Proper (name :: List.replicate depth name) := by
      intro n hn
      rw [← List.replicate_succ, List.mem_replicate] at hn
      rw [hn.2]
      exact hproper name List.mem_cons_self
    have hmissing := pathExists_of_free hslashes hfree hplain hbelow start
    rw [← List.replicate_succ] at hmissing
    rw [List.replicate_succ, nesting, List.reverse_replicate, hmissing, ih]
    simp [List.replicate_succ]

end FileTree

/-! ## Emptying a file -/

/-- A stage without a command that empties a file. -/
def Stage.emptying (target : String) : Stage := ⟨[], [⟨.write, target⟩], []⟩

/-- A line that empties a file whose name is plain has one stage, without a command. -/
theorem ofLine_empties {target : String} (hplain : ∀ c ∈ target.toList, isPlain c = true)
    (hne : target ≠ "") :
    Pipeline.ofLine ("> " ++ target) = ⟨[.emptying target]⟩ := by
  let word := target.toList.pmap (fun c h => Fragment.plain c h) hplain
  let form : Form := ⟨[.plain '>' (by decide)], [(⟨' ', by decide⟩, word)]⟩
  have hword : word.flatMap Fragment.written = target.toList ∧
      word.flatMap Fragment.value = target.toList := by
    simp only [word]
    generalize target.toList = chars at hplain
    induction chars with
    | nil => exact ⟨rfl, rfl⟩
    | cons c rest ih =>
      obtain ⟨hwritten, hvalue⟩ := ih fun d hd => hplain d (List.mem_cons_of_mem c hd)
      exact ⟨congrArg (c :: ·) hwritten, congrArg (c :: ·) hvalue⟩
  have hline : ("> " ++ target).toList = form.written := by
    simp [form, Form.written, Form.writtenOthers, Fragment.written, hword.1]
  have hwords : form.words = [['>'], target.toList] := by
    simp [form, Form.words, Form.wordsOfRows, Fragment.value, hword.2, hne]
  have hsegments : segmentsOf ("> " ++ target).toList = [form.written] := by
    rw [hline]
    exact segmentsOf_writtenLine (List.cons_ne_nil form [])
  have hblank : Text.isBlankText ("> " ++ target).toList = false := by
    rw [← Bool.not_eq_true, Text.isBlankText_iff]
    intro hall
    exact absurd (hall '>' (by simp)) (by decide)
  have hstage : Stage.ofWords [">", target] = .emptying target := rfl
  rw [Pipeline.ofLine, hblank, hsegments]
  simp only [List.map_cons, List.map_nil, Stage.ofSegment, wordsOf_written, hwords,
    String.ofList_toList, Bool.false_eq_true, if_false]
  exact congrArg (fun stage => Pipeline.mk [stage]) hstage

namespace Session

variable {host : Host} {s : Session} {target : String} {r : Refusal}

theorem openChannels_emptying
    (h : s.files.ensureParents host.nesting s.processPlace (s.resolvePath target) =
      (s.files, .error (.refused r))) :
    s.openChannels host (.emptying target) = (s, .error (.refused r)) := by
  have hinput : s.readInput (.emptying target) = .ok none := rfl
  have hredirection : (Stage.emptying target).redirection? .stdout = some ⟨.write, target⟩ := rfl
  have hout : s.openOutput host (.emptying target) .stdout = (s, .error (.refused r)) := by
    simp only [openOutput, hredirection, h]
    rfl
  simp only [openChannels, hinput, hout]

/-- The one stage of a line finds all as it was before the line. -/
theorem found_of_emptying (hquiet : host.Quiet) {line : String}
    (hline : Pipeline.ofLine line = ⟨[.emptying target]⟩) :
    ∃ a, s.lineArrivals host line = [a] ∧ a.stage = .emptying target ∧
      a.session.files = s.files ∧ a.session.directory = s.directory ∧
      a.session.processPlace = s.processPlace := by
  have hread : s.noteAll host (readingEvents line) = { s with journal := s.journal ++ readingEvents line } :=
    noteAll_of_quiet hquiet (readingEvents_level line) s
  obtain ⟨events, hannounced⟩ :=
    announced_of_quiet hquiet 1 1 (s.noteAll host (readingEvents line)) (.emptying target)
  rw [hread] at hannounced
  refine ⟨arrival host 1 1 (s.noteAll host (readingEvents line)) none (.emptying target) [], ?_, rfl, ?_⟩
  · simp only [lineArrivals, readLine, hline, List.length_singleton, arrivals]
    split <;> rfl
  · simp only [arrival, hread, hannounced]
    exact ⟨rfl, rfl, rfl⟩

/-- A line of one stage is refused where the stage is. -/
theorem execute_emptying (hquiet : host.Quiet) {line : String}
    (hline : Pipeline.ofLine line = ⟨[.emptying target]⟩)
    (h : s.files.ensureParents host.nesting s.processPlace (s.resolvePath target) =
      (s.files, .error (.refused r))) :
    (s.execute host line).2 = .error (.refused r) := by
  obtain ⟨a, harrivals, hstage, hfiles, hdirectory, hplace⟩ :=
    found_of_emptying (s := s) hquiet hline
  have hrefused : a.session.files.ensureParents host.nesting a.session.processPlace
      (a.session.resolvePath target) = (a.session.files, .error (.refused r)) := by
    rw [resolvePath, hfiles, hdirectory, hplace]
    exact h
  have hopen := openChannels_emptying (s := a.session) hrefused
  rw [← hstage] at hopen
  have hfirst : (s.lineArrivals host line)[0]? = some a := by rw [harrivals]; rfl
  have hruns : s.runLine host line = (a.session, .error (.refused r)) :=
    (runFrom_of_cut hfirst hopen).1
  rw [execute_eq, hruns]

end Session

/-! ## A path that is too deep -/

/-- More directories inside each other than are made for one path. -/
def deepPath : Path := ⟨1, List.replicate 1500 "a"⟩

/-- A line that empties the file at the end of the path. -/
def deepLine : String := "> " ++ deepPath.text

theorem canonical_deepPath : deepPath.Canonical := by
  have hname : ∀ name ∈ deepPath.names, name = "a" := fun name hname => List.eq_of_mem_replicate hname
  refine ⟨.inl rfl, ?_, ?_⟩
  · intro name hmem
    rw [hname name hmem]
    decide
  · intro name hmem
    rw [hname name hmem]
    decide

theorem mem_deepPath {c : Char} (h : c ∈ deepPath.text.toList) : c = '/' ∨ c = 'a' := by
  rw [canonical_deepPath.text_eq, Path.toList_spell] at h
  rcases List.mem_append.1 h with hslash | hjoin
  · exact .inl (List.eq_of_mem_replicate hslash)
  · rcases Text.mem_join hjoin with hslash | ⟨text, htext, hc⟩
    · exact .inl hslash
    · obtain ⟨name, hname, rfl⟩ := List.mem_map.1 htext
      rw [List.eq_of_mem_replicate hname] at hc
      exact .inr (List.mem_singleton.1 hc)

theorem mem_deepLine {c : Char} (h : c ∈ deepLine.toList) : c = '>' ∨ c = ' ' ∨ c = '/' ∨ c = 'a' := by
  rw [deepLine, String.toList_append] at h
  rcases List.mem_append.1 h with hsign | hpath
  · rcases List.mem_cons.1 hsign with rfl | hspace
    · exact .inl rfl
    · exact .inr (.inl (List.mem_singleton.1 hspace))
  · exact .inr (.inr (mem_deepPath hpath))

theorem head?_deepLine : deepLine.toList.head? ≠ some '-' := by
  rw [deepLine, String.toList_append]
  exact fun h => absurd (Option.some.inj h) (by decide)

theorem ofLine_deepLine : Pipeline.ofLine deepLine = ⟨[.emptying deepPath.text]⟩ := by
  refine ofLine_empties ?_ fun hempty => ?_
  · intro c hc
    rcases mem_deepPath hc with rfl | rfl
    · decide
    · decide
  · have habsolute : Path.isAbsolute deepPath.text = true := Path.isAbsolute_text (by decide)
    rw [hempty] at habsolute
    cases habsolute

/-- How far it is up the path where its first name is free. -/
theorem nesting_deepPath {t : FileTree} (hfree : t.find? ["a"] = none) (start : Place) :
    t.nesting start deepPath.slashes deepPath.names.reverse.tail = 1498 := by
  have hnames : deepPath.names.reverse.tail = List.replicate 1499 "a" := by
    rw [deepPath, List.reverse_replicate, List.tail_replicate]
  have hproper : Path.Proper ["a"] := by
    intro name hname
    rw [List.mem_singleton.1 hname]
    decide
  rw [hnames]
  exact FileTree.nesting_replicate (by decide) hfree (by decide) hproper start 1498

/-- The directories of the path are not made then. -/
theorem ensureParents_deepPath {t : FileTree} (hfree : t.find? ["a"] = none) {limit : Nat}
    (hlimit : limit < 1498) (start : Place) :
    t.ensureParents limit start deepPath = (t, .error (.refused .tooDeep)) := by
  unfold FileTree.ensureParents
  simp only [nesting_deepPath hfree]
  rw [if_pos hlimit]

theorem Session.resolvePath_deepPath (s : Session) : s.resolvePath deepPath.text = deepPath := by
  rw [resolvePath, Path.resolve_of_isAbsolute (Path.isAbsolute_text (by decide)),
    canonical_deepPath.normalise_text]

/-- The line is refused where the first name of its path is free. -/
theorem Session.execute_deepLine {host : Host} {s : Session} (hquiet : host.Quiet)
    (hnesting : host.nesting < 1498) (hfree : s.files.find? ["a"] = none) :
    (s.execute host deepLine).2 = .error (.refused .tooDeep) := by
  have hparents : s.files.ensureParents host.nesting s.processPlace (s.resolvePath deepPath.text) =
      (s.files, .error (.refused .tooDeep)) := by
    rw [resolvePath_deepPath, ensureParents_deepPath hfree hnesting]
  exact execute_emptying hquiet ofLine_deepLine hparents

/-! ## Hosts that are nested deeper -/

/-- A host whose runs are nested to another depth. -/
def Host.nested (host : Host) (nesting : Nat) : Host := { host with nesting := nesting }

namespace Session

variable {host : Host} {nesting : Nat} {s : Session} {stage : Stage}

/-- From either depth the first directory to be made for an output is in reach, or from neither. -/
structure SameReach (host : Host) (nesting : Nat) (s : Session) (stage : Stage) : Prop where
  stdout : nesting < s.outputDepth stage .stdout ↔ host.nesting < s.outputDepth stage .stdout
  stderr : nesting < (s.openOutput host stage .stdout).1.outputDepth stage .stderr ↔
    host.nesting < (s.openOutput host stage .stdout).1.outputDepth stage .stderr

instance (host : Host) (nesting : Nat) (s : Session) (stage : Stage) :
    Decidable (s.SameReach host nesting stage) :=
  decidable_of_iff (_ ∧ _) ⟨fun h => ⟨h.1, h.2⟩, fun h => ⟨h.stdout, h.stderr⟩⟩

theorem note_nested (host : Host) (nesting : Nat) (s : Session) (event : Event) :
    s.note (host.nested nesting) event = s.note host event := rfl

theorem openOutput_nested {stream : Stream}
    (h : nesting < s.outputDepth stage stream ↔ host.nesting < s.outputDepth stage stream) :
    s.openOutput (host.nested nesting) stage stream = s.openOutput host stage stream := by
  unfold outputDepth at h
  unfold openOutput
  split
  · rfl
  · next r hr =>
    simp only [hr] at h
    have hparents : ∀ path, path = s.resolvePath r.target →
        s.files.ensureParents (host.nested nesting).nesting s.processPlace path =
          s.files.ensureParents host.nesting s.processPlace path := by
      rintro _ rfl
      unfold FileTree.ensureParents
      simp only [Host.nested, h]
    simp only [hparents _ rfl, note_nested]

/-- A run does not see how deep it is nested where that puts no directory out of reach or in reach. -/
theorem unseen_nested (host : Host) (nesting : Nat) :
    Unseen host (host.nested nesting) (fun s stage => s.SameReach host nesting stage) Eq where
  directory h := by rw [h]
  environment h := by rw [h]
  isExecutable h path := by rw [h]
  note h event _ := by rw [h, note_nested]
  shares := rfl
  grants h := by rw [h]
  changeDirectory := by
    rintro s _ rfl path
    apply changeDirectory_sameAnswer
    all_goals intros
    all_goals rfl
  openChannels := by
    rintro s _ rfl stage hreach
    refine openChannels_sameAnswer rfl rfl ?_ ?_
    · rw [openOutput_nested hreach.stdout]
      exact ⟨rfl, rfl⟩
    · rintro opened _ out hopened rfl
      have hstderr := hreach.stderr
      rw [hopened] at hstderr
      rw [openOutput_nested hstderr]
      exact ⟨rfl, rfl⟩
  started h order := by
    rw [h]
    exact started_congr rfl rfl _
  input h := by rw [h]
  print h text := by rw [h]
  printError h text := by rw [h]
  flush h := by rw [h]
  writeFile h handle bytes := by rw [h]
  carryOut h _ _ order p := by rw [h]
  tally h count := by rw [h]

/-- A line does the same at either depth of nesting. -/
theorem execute_nested {line : String}
    (hreach : ∀ a ∈ s.lineArrivals host line, a.session.SameReach host nesting a.stage) :
    s.execute (host.nested nesting) line = s.execute host line := by
  obtain ⟨hanswer, hafter⟩ := (unseen_nested host nesting).inStep.execute rfl hreach
  exact Prod.ext hafter.symm hanswer

/-- The line is refused at either depth. -/
theorem sameReach_deepLine (hquiet : host.Quiet) (hnesting : host.nesting < 1498)
    (hnesting' : nesting < 1498) (hfree : s.files.find? ["a"] = none) :
    ∀ a ∈ s.lineArrivals host deepLine, a.session.SameReach host nesting a.stage := by
  obtain ⟨a, harrivals, hstage, hfiles, -⟩ := found_of_emptying (s := s) hquiet ofLine_deepLine
  have hstdout : (Stage.emptying deepPath.text).redirection? .stdout =
    some ⟨.write, deepPath.text⟩ := rfl
  have hstderr : (Stage.emptying deepPath.text).redirection? .stderr = none := rfl
  rw [harrivals, List.forall_mem_singleton, hstage]
  constructor
  · simp only [outputDepth, hstdout, resolvePath_deepPath, hfiles, nesting_deepPath hfree, hnesting,
      hnesting']
  · simp only [outputDepth, hstderr, Nat.not_lt_zero]

end Session

end PipelineShell
