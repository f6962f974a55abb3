import Mathlib.Data.List.Sort
import PipelineShell.Proofs.Canonical
import PipelineShell.Proofs.Commands

/-!
# Search paths put together

The directories of a search path are gone through in order, up to the first one that has the program or
that cannot be put to the system (`searchEnds_search`). So a search path of two parts is searched part by
part (`search_append`, `findProgram_append`). The programs that are listed are those of all directories,
wherever these stand and however often (`listPrograms_ok_iff`), so for two parts they are the programs of
both together, in order, each once (`listPrograms_append`).
-/

namespace PipelineShell

theorem Environment.find?_insert (env : Environment) (name value : String) :
    (env.insert name value).find? name = some value := by
  have hbefore : (env.erase name).bindings.lookup name = none := by
    rw [List.lookup_eq_none_iff]
    intro v hv
    have hne : v.1 ≠ name := by simpa [erase] using (List.mem_filter.1 hv).2
    simpa using hne.symm
  rw [find?, insert, List.lookup_append, hbefore]
  simp

namespace Session

variable {host : Host} {s : Session} {name : String} {directories : List String}

/-! ## The directories -/

/-- The session with another search path. -/
def withPath (s : Session) (value : String) : Session :=
  { s with environment := s.environment.insert "PATH" value }

theorem searchPath_withPath (s : Session) (value : String) :
    (s.withPath value).searchPath =
      ((Text.fields ':' value.toList).map String.ofList).filter (· ≠ "") := by
  rw [searchPath, withPath, Environment.find?_insert]
  rfl

@[simp] theorem resolvePath_withPath (s : Session) (value path : String) :
    (s.withPath value).resolvePath path = s.resolvePath path := rfl

@[simp] theorem isExecutable_withPath (s : Session) (value path : String) :
    (s.withPath value).isExecutable path = s.isExecutable path := rfl

/-- The directories of a search path of two parts are those of the parts, one after the other. -/
theorem searchPath_append (s : Session) (p q : String) :
    (s.withPath (p ++ ":" ++ q)).searchPath = (s.withPath p).searchPath ++ (s.withPath q).searchPath := by
  have htext : (p ++ ":" ++ q).toList = p.toList ++ ':' :: q.toList := by simp
  simp only [searchPath_withPath, htext, Text.fields_append_separator, List.map_append, List.filter_append]

/-! ## The first directory -/

/-- A directory does not have the program. -/
def Lacks (s : Session) (directory name : String) : Prop :=
  hasNul (s.candidate directory name) = false ∧ ¬s.Runs (s.candidate directory name)

/-- How the search in some directories ends: with the first one that has the program, with nothing if
none has it, or with the first one that cannot be put to the system. -/
inductive SearchEnds (s : Session) (name : String) (directories : List String) :
    Except Refusal (Option String) → Prop
  | found {before after : List String} {directory : String}
    (hsplit : directories = before ++ directory :: after) (hbefore : ∀ d ∈ before, s.Lacks d name)
    (hruns : s.Runs (s.candidate directory name)) :
    SearchEnds s name directories (.ok (some (s.candidate directory name)))
  | nowhere (hlacks : ∀ d ∈ directories, s.Lacks d name) : SearchEnds s name directories (.ok none)
  | refused {before after : List String} {directory : String}
    (hsplit : directories = before ++ directory :: after) (hbefore : ∀ d ∈ before, s.Lacks d name)
    (hnul : hasNul (s.candidate directory name) = true) :
    SearchEnds s name directories (.error .embeddedNul)

theorem SearchEnds.cons {directory : String} {answer : Except Refusal (Option String)}
    (hlacks : s.Lacks directory name) (h : s.SearchEnds name directories answer) :
    s.SearchEnds name (directory :: directories) answer := by
  cases h with
  | found hsplit hbefore hruns =>
    rw [hsplit, ← List.cons_append]
    exact .found rfl (List.forall_mem_cons.2 ⟨hlacks, hbefore⟩) hruns
  | nowhere hrest => exact .nowhere (List.forall_mem_cons.2 ⟨hlacks, hrest⟩)
  | refused hsplit hbefore hnul =>
    rw [hsplit, ← List.cons_append]
    exact .refused rfl (List.forall_mem_cons.2 ⟨hlacks, hbefore⟩) hnul

theorem searchEnds_search (s : Session) (name : String) (directories : List String) :
    s.SearchEnds name directories (s.search name directories) := by
  induction directories with
  | nil => exact .nowhere (List.forall_mem_nil _)
  | cons directory rest ih =>
    have hfirst : directory :: rest = [] ++ directory :: rest := rfl
    obtain ⟨hruns, hhere⟩ | ⟨hclean, hnot, hhere⟩ | ⟨hnul, hhere⟩ :=
      s.isExecutable_cases (s.candidate directory name)
    · simp only [search, hhere]
      exact .found hfirst (List.forall_mem_nil _) hruns
    · simp only [search, hhere]
      exact ih.cons ⟨hclean, hnot⟩
    · simp only [search, hhere]
      exact .refused hfirst (List.forall_mem_nil _) hnul

/-- The search in two lists of directories goes on in the second one if it finds nothing in the first. -/
theorem search_append (s : Session) (name : String) (directories more : List String) :
    s.search name (directories ++ more) =
      match s.search name directories with
      | .ok none => s.search name more
      | answer => answer := by
  induction directories with
  | nil => rfl
  | cons directory rest ih =>
    simp only [List.cons_append, search]
    cases s.isExecutable (s.candidate directory name) with
    | error r => rfl
    | ok found =>
      cases found with
      | true => rfl
      | false => exact ih

/-- What a directory has does not depend on the search path. -/
theorem search_withPath (s : Session) (value name : String) (directories : List String) :
    (s.withPath value).search name directories = s.search name directories := by
  induction directories with
  | nil => rfl
  | cons directory rest ih =>
    simp only [search, candidate, resolvePath_withPath, isExecutable_withPath, ih]

theorem findProgram_snd (host : Host) (s : Session) (name : String) :
    (s.findProgram host name).2 =
      if name = "" then .ok none
      else if name.toList.contains '/' then
        (s.isExecutable (s.resolvePath name).text).map fun found =>
          if found then some (s.resolvePath name).text else none
      else s.search name s.searchPath := by
  unfold findProgram
  split
  · rfl
  · split
    · simp only
    · split
      · next path hsearch => exact hsearch.symm
      · rfl

theorem findProgram_of_bareName (host : Host) (s : Session) (hname : BareName name) :
    (s.findProgram host name).2 = s.search name s.searchPath := by
  rw [findProgram_snd, if_neg hname.full, if_neg (by simpa using hname.slash)]

/-- A search path of two parts is gone through part by part. Other names than bare ones do not depend on
it. -/
theorem findProgram_append (host : Host) (s : Session) (p q name : String) :
    ((s.withPath (p ++ ":" ++ q)).findProgram host name).2 =
      match ((s.withPath p).findProgram host name).2 with
      | .ok none => ((s.withPath q).findProgram host name).2
      | answer => answer := by
  simp only [findProgram_snd, resolvePath_withPath, isExecutable_withPath, search_withPath,
    searchPath_append, search_append]
  split
  · rfl
  · split
    · generalize (s.isExecutable _).map _ = answer
      split <;> rfl
    · rfl

/-! ## All directories -/

theorem programsAmong_refused {path : String} {listed : List String} {r : Refusal}
    (h : s.programsAmong path listed = .error r) : r = .embeddedNul := by
  induction listed with
  | nil => cases h
  | cons first rest ih =>
    simp only [programsAmong] at h
    split at h
    · next hfirst =>
      cases h
      exact (isExecutable_error_iff.1 hfirst).1
    · next hrest =>
      cases h
      exact ih hrest
    · cases h
    · cases h

theorem programsIn_refused {paths : List String} {r : Refusal}
    (h : (s.programsIn host paths).2 = .error r) : r = .embeddedNul := by
  induction paths generalizing s with
  | nil => cases h
  | cons path rest ih =>
    rw [programsIn] at h
    split at h
    · next r' hfailed =>
      cases h
      obtain ⟨-, hrefused⟩ | ⟨-, e, hsystem⟩ := FileTree.list_cases hfailed
      · cases hrefused
        rfl
      · cases hsystem
    · exact ih h
    · split at h
      · next hamong =>
        cases h
        exact programsAmong_refused hamong
      · split at h
        · next hrest =>
          cases h
          exact ih (congrArg Prod.snd hrest)
        · cases h

theorem listPrograms_snd (host : Host) (s : Session) :
    (s.listPrograms host).2 =
      (s.programsIn host (s.searchPath.map fun directory => (s.resolvePath directory).text)).2.map
        sortNames := by
  unfold listPrograms
  generalize s.programsIn host _ = r
  obtain ⟨u, answer⟩ := r
  cases answer <;> rfl

/-- The programs that are listed are those of all directories, in order, each once; and there is a list
exactly if each directory can be read. -/
theorem listPrograms_ok_iff {names : List String} :
    (s.listPrograms host).2 = .ok names ↔
      (∀ d ∈ s.searchPath, s.Readable (s.resolvePath d).text) ∧ names.Pairwise (· < ·) ∧
        ∀ name, name ∈ names ↔ ∃ d ∈ s.searchPath, s.Lists (s.resolvePath d).text name := by
  have hmem : ∀ {listed : List String},
      (s.programsIn host (s.searchPath.map fun d => (s.resolvePath d).text)).2 = .ok listed →
      ∀ name, name ∈ sortNames listed ↔ ∃ d ∈ s.searchPath, s.Lists (s.resolvePath d).text name := by
    intro listed hlisted name
    rw [mem_sortNames, mem_programsIn hlisted]
    simp only [List.mem_map, exists_exists_and_eq_and]
  rw [listPrograms_snd]
  constructor
  · intro h
    cases hlisted : (s.programsIn host (s.searchPath.map fun d => (s.resolvePath d).text)).2 with
    | error r =>
      rw [hlisted] at h
      cases h
    | ok listed =>
      rw [hlisted] at h
      cases h
      exact ⟨(searchPath_ok_iff host s).1 ⟨listed, hlisted⟩, pairwise_sortNames listed, hmem hlisted⟩
  · rintro ⟨hreadable, hincreasing, hnames⟩
    obtain ⟨listed, hlisted⟩ := (searchPath_ok_iff host s).2 hreadable
    have hsame : sortNames listed = names := by
      refine (pairwise_sortNames listed).eq_of_mem_iff hincreasing fun name => ?_
      rw [hmem hlisted, hnames]
    rw [hlisted, ← hsame]
    rfl

theorem listPrograms_error_iff {r : Refusal} :
    (s.listPrograms host).2 = .error r ↔
      r = .embeddedNul ∧ ∃ d ∈ s.searchPath, ¬s.Readable (s.resolvePath d).text := by
  have hsome : (∃ d ∈ s.searchPath, ¬s.Readable (s.resolvePath d).text) ↔ ¬∃ listed,
      (s.programsIn host (s.searchPath.map fun d => (s.resolvePath d).text)).2 = .ok listed := by
    rw [searchPath_ok_iff]
    simp
  rw [listPrograms_snd, hsome]
  cases hlisted : (s.programsIn host (s.searchPath.map fun d => (s.resolvePath d).text)).2 with
  | error r' =>
    have hr := programsIn_refused hlisted
    simp [Except.map, hr, eq_comm]
  | ok listed => simp [Except.map]

/-- Search paths with the same directories have the same programs, in whatever order and however often
the directories stand there. -/
theorem listPrograms_congr (host : Host) (s : Session) {p q : String}
    (h : ∀ d, d ∈ (s.withPath p).searchPath ↔ d ∈ (s.withPath q).searchPath) :
    ((s.withPath p).listPrograms host).2 = ((s.withPath q).listPrograms host).2 := by
  cases hq : ((s.withPath q).listPrograms host).2 with
  | ok names =>
    rw [listPrograms_ok_iff] at hq ⊢
    simp only [h]
    exact hq
  | error r =>
    rw [listPrograms_error_iff] at hq ⊢
    simp only [h]
    exact hq

/-- The programs of a search path of two parts are those of the parts together. -/
theorem listPrograms_append (host : Host) (s : Session) (p q : String) :
    ((s.withPath (p ++ ":" ++ q)).listPrograms host).2 = do
      let here ← ((s.withPath p).listPrograms host).2
      let others ← ((s.withPath q).listPrograms host).2
      return sortNames (here ++ others) := by
  cases hp : ((s.withPath p).listPrograms host).2 with
  | error r =>
    obtain ⟨hr, d, hd, hnot⟩ := listPrograms_error_iff.1 hp
    refine listPrograms_error_iff.2 ⟨hr, d, ?_, hnot⟩
    rw [searchPath_append]
    exact List.mem_append_left _ hd
  | ok here =>
    cases hq : ((s.withPath q).listPrograms host).2 with
    | error r =>
      obtain ⟨hr, d, hd, hnot⟩ := listPrograms_error_iff.1 hq
      refine listPrograms_error_iff.2 ⟨hr, d, ?_, hnot⟩
      rw [searchPath_append]
      exact List.mem_append_right _ hd
    | ok others =>
      obtain ⟨hhere, -, hmem⟩ := listPrograms_ok_iff.1 hp
      obtain ⟨hothers, -, hmem'⟩ := listPrograms_ok_iff.1 hq
      refine listPrograms_ok_iff.2 ⟨?_, pairwise_sortNames _, fun name => ?_⟩
      · rw [searchPath_append]
        exact List.forall_mem_append.2 ⟨hhere, hothers⟩
      · rw [searchPath_append, mem_sortNames, List.mem_append, hmem, hmem']
        simp only [List.mem_append, or_and_right, exists_or]
        rfl

/-! ## Search paths -/

/-- What is found on the search path of a session. -/
structure SearchLaws (host : Host) (s : Session) : Prop where
  /-- The search goes no further than to the first directory that has the program. -/
  ends : ∀ name, BareName name → s.SearchEnds name s.searchPath (s.findProgram host name).2
  /-- There is an answer if nothing stands in the way, and it is nothing if no directory has the program. -/
  answers : hasNul s.directory = false →
    (∀ v ∈ s.environment.bindings, hasNul v.1 = false ∧ hasNul v.2 = false) →
    ∀ name, BareName name → ∃ found, (s.findProgram host name).2 = .ok found ∧
      (found = none ↔ ∀ d ∈ s.searchPath, ¬s.Runs (s.candidate d name))
  runs : ∀ name path, BareName name → (s.findProgram host name).2 = .ok (some path) →
    Path.isAbsolute path = true ∧ s.Runs path
  /-- A search path of two parts is gone through part by part. -/
  findsAppend : ∀ p q name, ((s.withPath (p ++ ":" ++ q)).findProgram host name).2 =
    match ((s.withPath p).findProgram host name).2 with
    | .ok none => ((s.withPath q).findProgram host name).2
    | answer => answer
  lists : s.files.WellNamed → hasNul s.directory = false → ∀ p, hasNul p = false →
    ∃ names, ((s.withPath p).listPrograms host).2 = .ok names
  /-- The programs of a search path of two parts are those of the parts, -/
  listsAppend : ∀ p q, ((s.withPath (p ++ ":" ++ q)).listPrograms host).2 = do
    let here ← ((s.withPath p).listPrograms host).2
    let others ← ((s.withPath q).listPrograms host).2
    return sortNames (here ++ others)
  /-- in order, each once. -/
  listsUnion : ∀ p q here others, ((s.withPath p).listPrograms host).2 = .ok here →
    ((s.withPath q).listPrograms host).2 = .ok others →
      ∃ names, ((s.withPath (p ++ ":" ++ q)).listPrograms host).2 = .ok names ∧
        names.Pairwise (· < ·) ∧ ∀ name, name ∈ names ↔ name ∈ here ∨ name ∈ others
  /-- Only which directories there are matters for them. -/
  listsSame : ∀ p q, (∀ d, d ∈ (s.withPath p).searchPath ↔ d ∈ (s.withPath q).searchPath) →
    ((s.withPath p).listPrograms host).2 = ((s.withPath q).listPrograms host).2

theorem SearchEnds.answers {answer : Except Refusal (Option String)} (hclear : s.Clear)
    (hname : hasNul name = false) (h : s.SearchEnds name s.searchPath answer) :
    ∃ found, answer = .ok found ∧
      (found = none ↔ ∀ d ∈ s.searchPath, ¬s.Runs (s.candidate d name)) := by
  cases h with
  | @found before after directory hsplit hbefore hruns =>
    have hmem : directory ∈ s.searchPath := by simp [hsplit]
    exact ⟨_, rfl, by simpa using ⟨directory, hmem, hruns⟩⟩
  | nowhere hlacks => exact ⟨none, rfl, by simpa using fun d hd => (hlacks d hd).2⟩
  | @refused before after directory hsplit hbefore hnul =>
    have hmem : directory ∈ s.searchPath := by simp [hsplit]
    have hclean : hasNul (s.candidate directory name) = false :=
      Path.hasNul_append (hclear directory hmem) hname
    rw [hnul] at hclean
    cases hclean

/-- Whatever the search path is and wherever the shell is: a program is the one of the first directory
that has it, and the programs that are listed are those of all directories. -/
theorem searchLaws (host : Host) (s : Session) (habsolute : Path.isAbsolute s.directory = true) :
    SearchLaws host s := by
  have hends : ∀ name, BareName name → s.SearchEnds name s.searchPath (s.findProgram host name).2 := by
    intro name hname
    rw [findProgram_of_bareName host s hname]
    exact searchEnds_search s name s.searchPath
  constructor
  case ends => exact hends
  case answers =>
    intro hdirectory henvironment name hname
    exact (hends name hname).answers (clear_of_clean hdirectory henvironment) hname.clean
  case runs =>
    intro name path hname hpath
    have hfound := hends name hname
    rw [hpath] at hfound
    cases hfound with
    | @found before after directory hsplit hbefore hruns =>
      have hcanonical : (s.resolvePath directory).Canonical := Path.canonical_resolve habsolute directory
      exact ⟨Path.isAbsolute_append (Path.isAbsolute_text hcanonical.ne_zero) name, hruns⟩
  case findsAppend => exact findProgram_append host s
  case lists =>
    intro hnames hdirectory p hp
    have hvalue : hasNul (((s.withPath p).environment.find? "PATH").getD "") = false := by
      rw [withPath, Environment.find?_insert]
      exact hp
    cases hlisted : ((s.withPath p).listPrograms host).2 with
    | ok names => exact ⟨names, rfl⟩
    | error r =>
      obtain ⟨-, d, hd, hnot⟩ := listPrograms_error_iff.1 hlisted
      have hclean : hasNul d = false := clean_of_mem_searchPath hvalue d hd
      have hpath := Path.hasNul_text (Path.clean_resolve hdirectory hclean)
      exact absurd (readable_of_wellNamed hnames hpath) hnot
  case listsAppend => exact listPrograms_append host s
  case listsUnion =>
    intro p q here others hp hq
    refine ⟨sortNames (here ++ others), ?_, pairwise_sortNames _, fun name => ?_⟩
    · rw [listPrograms_append, hp, hq]
      rfl
    · rw [mem_sortNames, List.mem_append]
  case listsSame => exact fun p q => listPrograms_congr host s

/-- A search path of a file, of nothing, of a directory that is missing, and of the root. -/
theorem searchLaws_root :
    let s := { Small.session with environment := ⟨[("PATH", "/in::x:/")]⟩ }
    (s.findProgram Small.host "upper").2 = .ok (some "/upper") ∧ s.Runs "/upper" ∧
      ((s.withPath ("/" ++ ":" ++ "x:/")).listPrograms Small.host).2 = .ok ["cat", "upper"] := by
  intro s
  have hlaws := searchLaws Small.host s (by decide)
  have hfound : (s.findProgram Small.host "upper").2 = .ok (some "/upper") := by decide +kernel
  refine ⟨hfound, (hlaws.runs "upper" "/upper" (by decide) hfound).2, ?_⟩
  rw [hlaws.listsAppend]
  decide +kernel

/-- In a directory whose path cannot be put to the system the search is refused, although no directory
has the program. -/
theorem findProgram_refused :
    let s := { Small.session with directory := "/a\x00b", environment := ⟨[("PATH", "x")]⟩ }
    Path.isAbsolute s.directory = true ∧
      (∀ v ∈ s.environment.bindings, hasNul v.1 = false ∧ hasNul v.2 = false) ∧ BareName "upper" ∧
      (∀ d ∈ s.searchPath, ¬s.Runs (s.candidate d "upper")) ∧
      (s.findProgram Small.host "upper").2 = .error .embeddedNul := by
  intro s
  have hnul : ∀ d ∈ s.searchPath, hasNul (s.candidate d "upper") = true := by decide +kernel
  refine ⟨by decide, by decide, by decide, ?_, by decide +kernel⟩
  intro d hd hruns
  have hclean := hruns.1
  rw [hnul d hd] at hclean
  cases hclean

end Session

end PipelineShell
