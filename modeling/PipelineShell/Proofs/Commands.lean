import Mathlib.Data.String.Basic
import PipelineShell.Completion
import PipelineShell.Proofs.FileTree.Listing
import PipelineShell.Proofs.Safety
import PipelineShell.Proofs.SameWorld
import PipelineShell.Proofs.Tally

/-!
# What is a command

The search path is gone through in two ways: name by name, to find a command, and directory by
directory, to list all commands. Both find the same, as what a directory of the path has under a name is
listed there under that name and looked at in the same way. So completion offers a name exactly if it
stands for something, and then `type` succeeds and no stage with that name is without a command
(`candidates_agree`), as long as what may be looked into may also be listed.
-/

namespace PipelineShell

namespace Session

variable {host : Host} {s s' : Session} {name directory : String} {directories : List String}

/-! ## One name in all directories -/

/-- The directories of the search path can be put to the system. -/
def Clear (s : Session) : Prop :=
  ∀ directory ∈ s.searchPath, hasNul (s.resolvePath directory).text = false

/-- A directory of the search path has the program. -/
def Provides (s : Session) (name : String) : Prop :=
  ∃ directory ∈ s.searchPath, s.isExecutable (s.candidate directory name) = .ok true

/-- The search finds a program if one of the directories has it. -/
theorem search_isSome (hclean : hasNul name = false)
    (hclear : ∀ directory ∈ directories, hasNul (s.resolvePath directory).text = false) :
    ∃ found, s.search name directories = .ok found ∧
      (found.isSome ↔ ∃ directory ∈ directories,
        s.isExecutable (s.candidate directory name) = .ok true) := by
  induction directories with
  | nil => exact ⟨none, rfl, by simp⟩
  | cons directory rest ih =>
    obtain ⟨hdirectory, hrest⟩ := List.forall_mem_cons.1 hclear
    have hcandidate : hasNul (s.candidate directory name) = false :=
      Path.hasNul_append hdirectory hclean
    obtain ⟨found, hfound⟩ := (isExecutable_ok_iff s).2 hcandidate
    simp only [search, hfound]
    cases found with
    | true => exact ⟨_, rfl, by simp [hfound]⟩
    | false =>
      obtain ⟨found, hsearch, hiff⟩ := ih hrest
      exact ⟨found, hsearch, by simp [hfound, hiff]⟩

/-- A name stands for something if a builtin has it or a directory of the search path. -/
theorem findCommand_spec (host : Host) (hclear : s.Clear) (hname : BareName name) :
    ∃ command, (s.findCommand host name).2 = .ok command ∧
      (command ≠ .unknown ↔ (Builtin.ofName? name).isSome ∨ s.Provides name) := by
  obtain ⟨found, hsearch, hfound⟩ := search_isSome hname.clean hclear
  have hslash : name.toList.contains '/' = false := by simpa using hname.slash
  unfold findCommand
  cases hbuiltin : Builtin.ofName? name with
  | some b => exact ⟨_, rfl, by simp⟩
  | none =>
    simp only [findProgram, hname.full, hslash, hsearch, if_false, Bool.false_eq_true]
    cases found with
    | none =>
      have hnone : ¬s.Provides name := fun hprovides => by cases hfound.2 hprovides
      exact ⟨.unknown, rfl, by simp [hnone]⟩
    | some path =>
      have hprovides : s.Provides name := hfound.1 rfl
      exact ⟨.program path, rfl, by simp [hprovides]⟩

/-! ## All names in one directory -/

/-- The directory that a path leads to may be listed, and has the program. -/
def Lists (s : Session) (path name : String) : Prop :=
  ∃ place, s.files.directory? s.processPlace path = some place ∧
    (s.files.grant place).reads = true ∧ (s.files.find? (name :: place)).isSome ∧
    s.isExecutable (Path.append path name) = .ok true

/-- If the directory that a path leads to may be looked into, it may be listed. -/
def Listable (s : Session) (path : String) : Prop :=
  ∀ place, s.files.directory? s.processPlace path = some place →
    (s.files.grant place).enters = true → (s.files.grant place).reads = true

theorem Lists.found {path : String} (hnames : s.files.WellNamed) (h : s.Lists path name) :
    BareName name ∧ s.isExecutable (Path.append path name) = .ok true := by
  obtain ⟨place, -, -, hsome, hexecutable⟩ := h
  exact ⟨hnames _ hsome name List.mem_cons_self, hexecutable⟩

/-- What is found is listed. -/
theorem lists_of_found {path : Path} (hpath : path.Canonical) (hlistable : s.Listable path.text)
    (hname : BareName name) (hexecutable : s.isExecutable (Path.append path.text name) = .ok true) :
    s.Lists path.text name := by
  obtain ⟨hnul, place, content, mode, hfile, -⟩ := isExecutable_eq_true_iff.1 hexecutable
  obtain ⟨dir, hdir, hsome, henters⟩ :=
    FileTree.listed_of_status hpath hname.full hname.slash hnul hfile
  exact ⟨dir, hdir, hlistable dir hdir henters, hsome, hexecutable⟩

theorem mem_programsAmong {path : String} {listed here : List String}
    (h : s.programsAmong path listed = .ok here) :
    name ∈ here ↔ name ∈ listed ∧ s.isExecutable (Path.append path name) = .ok true := by
  induction listed generalizing here with
  | nil =>
    cases h
    simp
  | cons first rest ih =>
    simp only [programsAmong] at h
    split at h
    · cases h
    · cases h
    · next hfirst hrest =>
      cases h
      simp only [List.mem_cons, ih hrest]
      constructor
      · rintro (rfl | ⟨hmem, hexecutable⟩)
        · exact ⟨.inl rfl, hfirst⟩
        · exact ⟨.inr hmem, hexecutable⟩
      · rintro ⟨rfl | hmem, hexecutable⟩
        · exact .inl rfl
        · exact .inr ⟨hmem, hexecutable⟩
    · next hfirst hrest =>
      cases h
      rw [ih hrest, List.mem_cons]
      constructor
      · exact fun ⟨hmem, hexecutable⟩ => ⟨.inr hmem, hexecutable⟩
      · rintro ⟨rfl | hmem, hexecutable⟩
        · rw [hfirst] at hexecutable
          cases hexecutable
        · exact ⟨hmem, hexecutable⟩

theorem programsAmong_ok_iff {path : String} {listed : List String} :
    (∃ here, s.programsAmong path listed = .ok here) ↔
      ∀ name ∈ listed, hasNul (Path.append path name) = false := by
  induction listed with
  | nil => exact ⟨fun _ => List.forall_mem_nil _, fun _ => ⟨[], rfl⟩⟩
  | cons first rest ih =>
    rw [List.forall_mem_cons, ← ih, ← isExecutable_ok_iff]
    simp only [programsAmong]
    cases s.isExecutable (Path.append path first) with
    | error r => simp
    | ok found =>
      cases s.programsAmong path rest with
      | error r => simp
      | ok here => cases found <;> simp

/-! ## All names in all directories -/

theorem isSome_find?_sameWorld (h : SameWorld host s s') (place : Place) :
    (s'.files.find? place).isSome = (s.files.find? place).isSome := by
  have hshape := congrArg Option.isSome (h.files.shape place)
  simpa only [FileTree.isSome_shape?] using hshape

theorem lists_sameWorld (h : SameWorld host s s') {path : String} :
    s'.Lists path name ↔ s.Lists path name := by
  simp only [Lists, h.processPlace, FileTree.directory?_rewritten h.files,
    FileTree.grant_congr h.files.grants, isSome_find?_sameWorld h,
    isExecutable_rewritten h.files h.processPlace]

/-- Directories are gone through from the first one on: it is passed over, or it is listed and what is
executable there comes before the rest. -/
theorem programsIn_cons_ok {path : String} {rest names : List String}
    (h : (s.programsIn host (path :: rest)).2 = .ok names) :
    (∃ e, s.files.list s.processPlace path = .error (.system e) ∧
        ((s.note host (.skipped path e)).programsIn host rest).2 = .ok names) ∨
      ∃ listed here others, s.files.list s.processPlace path = .ok listed ∧
        s.programsAmong path listed = .ok here ∧ (s.programsIn host rest).2 = .ok others ∧
        names = here ++ others := by
  rw [programsIn] at h
  split at h
  · cases h
  · next e hfailed => exact .inl ⟨e, hfailed, h⟩
  · next listed hlisted =>
    right
    split at h
    · cases h
    · next here hhere =>
      split at h
      · cases h
      · next others hothers =>
        cases h
        exact ⟨listed, here, others, hlisted, hhere, congrArg Prod.snd hothers, rfl⟩

/-- What is listed in some directories, one after the other, is what each of them lists. -/
theorem mem_programsIn {paths names : List String}
    (h : (s.programsIn host paths).2 = .ok names) :
    name ∈ names ↔ ∃ path ∈ paths, s.Lists path name := by
  induction paths generalizing s names with
  | nil =>
    cases h
    simp
  | cons path rest ih =>
    simp only [List.mem_cons, exists_eq_or_imp]
    obtain ⟨e, hfailed, hrest⟩ | ⟨listed, here, others, hlisted, hhere, hrest, rfl⟩ :=
      programsIn_cons_ok h
    · have hnothing : ¬s.Lists path name := by
        rintro ⟨place, hplace, hreads, -⟩
        rw [FileTree.list_of_directory? hplace hreads] at hfailed
        cases hfailed
      have hnoted : SameWorld host s (s.note host (.skipped path e)) := sameWorld_note host s rfl
      rw [ih hrest]
      simp only [hnothing, false_or, lists_sameWorld hnoted]
    · obtain ⟨place, hplace, hreads, rfl⟩ := FileTree.directory?_of_list hlisted
      have hfirst : name ∈ here ↔ s.Lists path name := by
        rw [mem_programsAmong hhere, FileTree.mem_namesIn]
        constructor
        · exact fun ⟨hsome, hexecutable⟩ => ⟨place, hplace, hreads, hsome, hexecutable⟩
        · rintro ⟨dir, hdir, -, hsome, hexecutable⟩
          rw [hplace] at hdir
          cases hdir
          exact ⟨hsome, hexecutable⟩
      rw [List.mem_append, hfirst, ih hrest]

/-- A path and the names in the directory that it leads to, if to one that may be listed, can be put to
the system. -/
def Readable (s : Session) (path : String) : Prop :=
  hasNul path = false ∧ ∀ place, s.files.directory? s.processPlace path = some place →
    (s.files.grant place).reads = true →
    ∀ name ∈ s.files.namesIn place, hasNul (Path.append path name) = false

theorem readable_sameWorld (h : SameWorld host s s') {path : String} :
    s'.Readable path ↔ s.Readable path := by
  simp only [Readable, h.processPlace, FileTree.directory?_rewritten h.files,
    FileTree.grant_congr h.files.grants, FileTree.mem_namesIn, isSome_find?_sameWorld h]

theorem readable_of_wellNamed (hnames : s.files.WellNamed) {path : String} (hpath : hasNul path = false) :
    s.Readable path := by
  refine ⟨hpath, fun place _ _ name hname => Path.hasNul_append hpath ?_⟩
  exact (hnames _ (FileTree.mem_namesIn.1 hname) name List.mem_cons_self).clean

/-- Directories can be gone through exactly if each of them can be read. -/
theorem programsIn_ok_iff {paths : List String} :
    (∃ names, (s.programsIn host paths).2 = .ok names) ↔ ∀ path ∈ paths, s.Readable path := by
  induction paths generalizing s with
  | nil => exact ⟨fun _ => List.forall_mem_nil _, fun _ => ⟨[], rfl⟩⟩
  | cons path rest ih =>
    rw [List.forall_mem_cons]
    constructor
    · rintro ⟨names, h⟩
      obtain ⟨e, hfailed, hrest⟩ | ⟨listed, here, others, hlisted, hhere, hrest, -⟩ :=
        programsIn_cons_ok h
      · have hnoted : SameWorld host s (s.note host (.skipped path e)) := sameWorld_note host s rfl
        have hpath : hasNul path = false := by
          obtain ⟨-, hrefused⟩ | ⟨hpath, -⟩ := FileTree.list_cases hfailed
          · cases hrefused
          · exact hpath
        refine ⟨⟨hpath, ?_⟩, fun other hother => ?_⟩
        · intro place hplace hreads
          rw [FileTree.list_of_directory? hplace hreads] at hfailed
          cases hfailed
        · exact (readable_sameWorld hnoted).1 (ih.1 ⟨names, hrest⟩ other hother)
      · obtain ⟨place, hplace, -, rfl⟩ := FileTree.directory?_of_list hlisted
        refine ⟨⟨(FileTree.directory?_eq_some_iff.1 hplace).1, ?_⟩, ih.1 ⟨others, hrest⟩⟩
        intro dir hdir _
        rw [hplace] at hdir
        cases hdir
        exact programsAmong_ok_iff.1 ⟨here, hhere⟩
    · rintro ⟨⟨hpath, hnames⟩, hrest⟩
      rw [programsIn]
      cases hlist : s.files.list s.processPlace path with
      | error failure =>
        cases failure with
        | refused r =>
          obtain ⟨hnul, -⟩ | ⟨-, e, he⟩ := FileTree.list_cases hlist
          · rw [hnul] at hpath
            cases hpath
          · cases he
        | system e =>
          have hnoted : SameWorld host s (s.note host (.skipped path e)) := sameWorld_note host s rfl
          exact ih.2 fun other hother => (readable_sameWorld hnoted).2 (hrest other hother)
      | ok listed =>
        obtain ⟨place, hplace, hreads, rfl⟩ := FileTree.directory?_of_list hlist
        obtain ⟨here, hhere⟩ := (programsAmong_ok_iff (s := s)).2 (hnames place hplace hreads)
        obtain ⟨others, hothers⟩ := ih.2 hrest
        simp only [hhere]
        generalize s.programsIn host rest = r at hothers ⊢
        obtain ⟨u, answer⟩ := r
        simp only at hothers
        subst hothers
        exact ⟨here ++ others, rfl⟩

/-- All programs on the search path can be listed exactly if each of its directories can be read. -/
theorem searchPath_ok_iff (host : Host) (s : Session) :
    (∃ listed, (s.programsIn host
        (s.searchPath.map fun directory => (s.resolvePath directory).text)).2 = .ok listed) ↔
      ∀ directory ∈ s.searchPath, s.Readable (s.resolvePath directory).text := by
  rw [programsIn_ok_iff, List.forall_mem_map]

/-! ## Completion -/

theorem pairwise_insertName {names : List String} (h : names.Pairwise (· < ·)) (name : String) :
    (insertName name names).Pairwise (· < ·) := by
  induction names with
  | nil => exact List.pairwise_singleton _ name
  | cons head rest ih =>
    obtain ⟨hhead, hrest⟩ := List.pairwise_cons.1 h
    simp only [insertName]
    split
    · next hlt =>
      refine List.pairwise_cons.2 ⟨?_, h⟩
      exact List.forall_mem_cons.2 ⟨hlt, fun n hn => lt_trans hlt (hhead n hn)⟩
    · next hlt =>
      split
      · exact h
      · next hne =>
        have hgt : head < name := lt_of_le_of_ne (not_lt.1 hlt) (Ne.symm hne)
        refine List.pairwise_cons.2 ⟨?_, ih hrest⟩
        intro n hn
        rcases mem_insertName.1 hn with rfl | hn
        · exact hgt
        · exact hhead n hn

theorem pairwise_sortNames (names : List String) : (sortNames names).Pairwise (· < ·) := by
  induction names with
  | nil => exact .nil
  | cons name rest ih => exact pairwise_insertName ih name

theorem mem_builtinNames {name : String} :
    name ∈ Builtin.all.map Builtin.name ↔ (Builtin.ofName? name).isSome := by
  simp [Builtin.ofName?]

theorem bareName_of_builtin (h : (Builtin.ofName? name).isSome) : BareName name := by
  obtain ⟨b, -, rfl⟩ := List.mem_map.1 (mem_builtinNames.2 h)
  cases b <;> exact ⟨by decide, by decide, by decide⟩

/-- The name stands for a builtin or for a program. -/
def Finds (host : Host) (s : Session) (name : String) : Prop :=
  ∃ command, (s.findCommand host name).2 = .ok command ∧ command ≠ .unknown

theorem finds_iff_of_ok {command : Command} (h : (s.findCommand host name).2 = .ok command) :
    s.Finds host name ↔ command ≠ .unknown := by
  constructor
  · rintro ⟨command', hcommand, hfound⟩
    rw [h] at hcommand
    cases hcommand
    exact hfound
  · exact fun hfound => ⟨command, h, hfound⟩

theorem finds_iff (hclear : s.Clear) (hname : BareName name) :
    s.Finds host name ↔ (Builtin.ofName? name).isSome ∨ s.Provides name := by
  obtain ⟨command, hcommand, hiff⟩ := findCommand_spec host hclear hname
  exact (finds_iff_of_ok hcommand).trans hiff

/-- What completion answers: the builtins and the programs listed, in order, that start as asked
for. -/
theorem candidates_ok {start : String} {names : List String}
    (h : (s.candidates host start).2 = .ok names) :
    ∃ listed, (s.programsIn host
        (s.searchPath.map fun directory => (s.resolvePath directory).text)).2 = .ok listed ∧
      names = (sortNames (Builtin.all.map Builtin.name ++ sortNames listed)).filter
        fun name => start.toList.isPrefixOf name.toList := by
  unfold candidates listPrograms at h
  generalize s.programsIn host _ = r at h ⊢
  obtain ⟨u, answer⟩ := r
  cases answer with
  | error refusal => cases h
  | ok listed =>
    cases h
    exact ⟨listed, rfl, rfl⟩

theorem clear_of_candidates {start : String} {names : List String}
    (h : (s.candidates host start).2 = .ok names) : s.Clear := by
  obtain ⟨listed, hlisted, -⟩ := candidates_ok h
  intro directory hdirectory
  exact ((searchPath_ok_iff host s).1 ⟨listed, hlisted⟩ directory hdirectory).1

/-- Completion gives an answer if the directories of the search path can be put to the system. -/
theorem candidates_answers (host : Host) (hclear : s.Clear) (hnames : s.files.WellNamed)
    (start : String) : ∃ names, (s.candidates host start).2 = .ok names := by
  obtain ⟨listed, hlisted⟩ := (searchPath_ok_iff host s).2 fun directory hdirectory =>
    readable_of_wellNamed hnames (hclear directory hdirectory)
  unfold candidates listPrograms
  generalize s.programsIn host _ = r at hlisted ⊢
  obtain ⟨u, answer⟩ := r
  simp only at hlisted
  subst hlisted
  exact ⟨_, rfl⟩

/-- Completion offers the builtins and what the directories of the search path list, as far as they
start as asked for. -/
theorem mem_candidates_iff {start : String} {names : List String}
    (h : (s.candidates host start).2 = .ok names) :
    name ∈ names ↔ start.toList <+: name.toList ∧ ((Builtin.ofName? name).isSome ∨
      ∃ directory ∈ s.searchPath, s.Lists (s.resolvePath directory).text name) := by
  obtain ⟨listed, hlisted, rfl⟩ := candidates_ok h
  have hlists : name ∈ listed ↔
      ∃ directory ∈ s.searchPath, s.Lists (s.resolvePath directory).text name := by
    rw [mem_programsIn hlisted]
    simp only [List.mem_map, exists_exists_and_eq_and]
  rw [List.mem_filter, mem_sortNames, List.mem_append, mem_sortNames, mem_builtinNames, hlists,
    List.isPrefixOf_iff_prefix, and_comm]

/-- Completion offers commands only. -/
theorem found_of_candidates (hnames : s.files.WellNamed) {start : String} {names : List String}
    (h : (s.candidates host start).2 = .ok names) (hname : name ∈ names) :
    start.toList <+: name.toList ∧ BareName name ∧ s.Finds host name := by
  have hclear := clear_of_candidates h
  obtain ⟨hstart, hbuiltin | ⟨directory, hdirectory, hlists⟩⟩ := (mem_candidates_iff h).1 hname
  · have hbare := bareName_of_builtin hbuiltin
    exact ⟨hstart, hbare, (finds_iff hclear hbare).2 (.inl hbuiltin)⟩
  · obtain ⟨hbare, hexecutable⟩ := hlists.found hnames
    exact ⟨hstart, hbare, (finds_iff hclear hbare).2 (.inr ⟨directory, hdirectory, hexecutable⟩)⟩

/-- The directories of the search path that may be looked into may be listed. -/
def SearchListable (s : Session) : Prop :=
  ∀ directory ∈ s.searchPath, s.Listable (s.resolvePath directory).text

/-- Completion offers every command that starts as asked for. -/
theorem mem_candidates (habsolute : Path.isAbsolute s.directory = true) (hlistable : s.SearchListable)
    {start : String} {names : List String} (h : (s.candidates host start).2 = .ok names)
    (hstart : start.toList <+: name.toList) (hbare : BareName name) (hfinds : s.Finds host name) :
    name ∈ names := by
  have hclear := clear_of_candidates h
  refine (mem_candidates_iff h).2 ⟨hstart, ?_⟩
  rcases (finds_iff hclear hbare).1 hfinds with hbuiltin | ⟨directory, hdirectory, hexecutable⟩
  · exact .inl hbuiltin
  · have hcanonical : (s.resolvePath directory).Canonical :=
      Path.canonical_resolve habsolute directory
    have hlists := lists_of_found hcanonical (hlistable directory hdirectory) hbare hexecutable
    exact .inr ⟨directory, hdirectory, hlists⟩

/-! ## Where names are used -/

/-- The answer of `type` is that of the search. -/
theorem type_ending (host : Host) (s : Session) (name : String) :
    (s.perform host .type [name]).2.ending =
      match (s.findCommand host name).2 with
      | .ok command => .ok (if command = .unknown then 1 else 0)
      | .error r => .error (.refused r) := by
  have hnoted : SameWorld host s (s.note host (.builtin Builtin.type.name [name])) :=
    sameWorld_note host s rfl
  obtain ⟨hsame, -⟩ := (transparent_sameWorld host).findCommand hnoted name
  rw [← hsame]
  change ((s.note host _).describeAll host [name]).2.ending = _
  simp only [describeAll]
  generalize (s.note host _).findCommand host name = r
  obtain ⟨found, refusal | command⟩ := r
  · rfl
  · rfl

theorem type_ending_iff (host : Host) (s : Session) (name : String) :
    (s.perform host .type [name]).2.ending = .ok 0 ↔ s.Finds host name := by
  rw [type_ending]
  cases hanswer : (s.findCommand host name).2 with
  | error r => simp [Finds, hanswer]
  | ok command =>
    rw [finds_iff_of_ok hanswer]
    by_cases hunknown : command = .unknown
    · simp [hunknown]
    · simp [hunknown]

/-- What a stage without redirections comes to if nothing has the name of its command: the shell says
so, and the status is its own. -/
def Unanswered (host : Host) (s : Session) (name : String)
    (r : Session × Except Stop StageResult) : Prop :=
  r = ((s.findCommand host name).1.printError
      (Text.encode (Diagnosis.unknownCommand name).line), .ok ⟨name, notFoundStatus, none⟩)

theorem openChannels_of_plain (host : Host) (s : Session) {stage : Stage}
    (h : stage.redirections = []) : s.openChannels host stage = (s, .ok ⟨none, none, none⟩) := by
  have hnone : ∀ stream, stage.redirection? stream = none := by
    intro stream
    simp [Stage.redirection?, h]
  simp only [openChannels, readInput, openOutput, hnone]

/-- A stage without redirections is left unanswered exactly if the search finds that nothing has the name
of its command. -/
theorem unanswered_runStage_iff (host : Host) (s : Session) {stage : Stage}
    (hstage : stage.argv.head? = some name) (hplain : stage.redirections = [])
    (piped : Option Bytes) (last : Bool) :
    s.Unanswered host name (s.runStage host stage piped last) ↔
      (s.findCommand host name).2 = .ok .unknown := by
  have hargv : stage.argv ≠ [] := by
    intro hnil
    simp [hnil] at hstage
  have hcalled : stage.name = name := by
    rw [Stage.name, List.headD_eq_head?_getD, hstage]
    rfl
  have htally : (s.findCommand host name).1.tally = s.tally := by
    obtain ⟨events, hnotes, -⟩ := findCommand_notes host s name
    rw [hnotes]
    exact noteAll_tally host s events
  unfold Unanswered runStage
  simp only [openChannels_of_plain host s hplain, runCommand, if_neg hargv, hcalled]
  generalize s.findCommand host name = r at htally ⊢
  obtain ⟨found, refusal | command⟩ := r
  · simp
  · simp only at htally
    cases command with
    | unknown => simp [giveUp, deliverError, hcalled, Channels.fault?, closed]
    | builtin b =>
      simp only [Except.ok.injEq, reduceCtorEq, iff_false]
      intro hsame
      have hstatus := runBuiltin_status (congrArg Prod.snd hsame)
      simp [notFoundStatus] at hstatus
    | program path =>
      simp only [Except.ok.injEq, reduceCtorEq, iff_false]
      intro hsame
      have hcounted := congrArg Tally.total (runProgram_tally
        (Eq.refl (found.orderOf host stage path ((none : Option Bytes).or piped)
          ⟨none, none, none⟩ last)))
      rw [hsame] at hcounted
      simp [printError, Tally.add] at hcounted

/-! ## Agreement -/

/-- The names that completion offers for `start` are those that the search finds. -/
structure Agreement (host : Host) (s : Session) (start : String) (names : List String) : Prop where
  /-- In the order of code points, each name once. -/
  increasing : names.Pairwise (· < ·)
  offered : ∀ name ∈ names, start.toList <+: name.toList ∧ BareName name ∧ s.Finds host name
  /-- What may be looked into but not listed has programs that are found and not offered. -/
  finds : s.SearchListable → ∀ name, BareName name → start.toList <+: name.toList →
    s.Finds host name → name ∈ names

/-- What `type` knows and what a stage runs under a name is what the search finds. -/
structure Used (host : Host) (s : Session) (name : String) : Prop where
  type : (s.perform host .type [name]).2.ending = .ok 0 ↔ s.Finds host name
  stage : ∀ (stage : Stage) (piped : Option Bytes) (last : Bool),
    stage.argv.head? = some name → stage.redirections = [] →
      (s.Unanswered host name (s.runStage host stage piped last) ↔
        (s.findCommand host name).2 = .ok .unknown)
  /-- A search that is not refused on its way finds something, or finds that there is nothing. -/
  unknown : s.Clear → ((s.findCommand host name).2 = .ok .unknown ↔ ¬s.Finds host name)

theorem used_of_bareName (host : Host) (s : Session) (hname : BareName name) : s.Used host name := by
  refine ⟨type_ending_iff host s name, ?_, ?_⟩
  · exact fun stage piped last hstage hplain =>
      unanswered_runStage_iff host s hstage hplain piped last
  · intro hclear
    obtain ⟨command, hcommand, -⟩ := findCommand_spec host hclear hname
    rw [finds_iff_of_ok hcommand, hcommand, not_not, Except.ok.injEq]

theorem clear_of_clean (hdirectory : hasNul s.directory = false)
    (henvironment : ∀ v ∈ s.environment.bindings, hasNul v.1 = false ∧ hasNul v.2 = false) :
    s.Clear := by
  intro directory hmem
  have hclean : hasNul directory = false := searchPath_clean henvironment directory hmem
  exact Path.hasNul_text (Path.clean_resolve hdirectory hclean)

/-- Completion, `type` and the running of stages agree on what is a command, whatever the search path
is. Completion answers exactly if the directories of the search path can be put to the system, and so
it does if the session has nothing that cannot. -/
theorem candidates_agree (host : Host) (s : Session)
    (habsolute : Path.isAbsolute s.directory = true) (hnames : s.files.WellNamed) :
    (hasNul s.directory = false →
      (∀ v ∈ s.environment.bindings, hasNul v.1 = false ∧ hasNul v.2 = false) → s.Clear) ∧
    (∀ start, (∃ names, (s.candidates host start).2 = .ok names) ↔ s.Clear) ∧
    (∀ start names, (s.candidates host start).2 = .ok names → Agreement host s start names) ∧
    ∀ name, BareName name → s.Used host name := by
  refine ⟨clear_of_clean, ?_, ?_, fun name hname => used_of_bareName host s hname⟩
  · intro start
    constructor
    · exact fun ⟨names, h⟩ => clear_of_candidates h
    · exact fun hclear => candidates_answers host hclear hnames start
  · intro start names h
    obtain ⟨listed, -, hlisted⟩ := candidates_ok h
    constructor
    case increasing =>
      rw [hlisted]
      exact (pairwise_sortNames _).filter _
    case offered => exact fun name hname => found_of_candidates hnames h hname
    case finds =>
      exact fun hlistable name hbare hstart hfinds =>
        mem_candidates habsolute hlistable h hstart hbare hfinds

/-- A search path of a file, of nothing, of a directory that is missing, and of the root, which has two
programs and a file that is none. -/
theorem candidates_agree_root :
    let s := { Small.session with environment := ⟨[("PATH", "/in::x:/")]⟩ }
    (s.candidates Small.host "").2 =
        .ok ["cat", "cd", "echo", "exit", "pwd", "type", "upper"] ∧
      s.Finds Small.host "upper" ∧ ¬s.Finds Small.host "in" := by
  intro s
  have habsolute : Path.isAbsolute s.directory = true := by decide
  have hnames : s.files.WellNamed := FileTree.wellNamed_of_entries (by decide)
  have hcandidates : (s.candidates Small.host "").2 =
      .ok ["cat", "cd", "echo", "exit", "pwd", "type", "upper"] := by
    decide +kernel
  have hlistable : s.SearchListable := fun _ _ _ _ _ => rfl
  have hagree := (candidates_agree Small.host s habsolute hnames).2.2.1 _ _ hcandidates
  refine ⟨hcandidates, (hagree.offered "upper" (by decide)).2.2, ?_⟩
  intro hfinds
  exact absurd (hagree.finds hlistable "in" (by decide) (by simp) hfinds) (by decide)

/-- In a directory whose path cannot be put to the system completion gives no answer, and in a directory
that may be looked into but not listed it finds nothing, although a search path finds a program there. -/
theorem candidates_disagree :
    let nul := { Small.session with directory := "/a\x00b", environment := ⟨[("PATH", "/:x")]⟩ }
    let closed := { Small.furnished with environment := ⟨[("PATH", "/d")]⟩ }
    let barred := { closed with
      files := ⟨(["cat", "d"], .file Small.catImage 0o755) :: closed.files.entries,
        [(["d"], { Grant.full with reads := false })]⟩ }
    (Path.isAbsolute nul.directory = true ∧ nul.Finds Small.host "cat" ∧
        (nul.candidates Small.host "c").2 = .error .embeddedNul) ∧
      Path.isAbsolute barred.directory = true ∧ barred.Finds Small.host "cat" ∧
        (barred.candidates Small.host "c").2 = .ok ["cd"] := by
  intro nul closed barred
  refine ⟨⟨by decide, ⟨.program "/cat", by decide +kernel, by decide⟩, by decide +kernel⟩, by decide,
    ⟨.program "/d/cat", by decide +kernel, by decide⟩, by decide +kernel⟩

end Session

end PipelineShell
