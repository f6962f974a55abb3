import PipelineShell.Proofs.Canonical
import PipelineShell.Proofs.Clean
import PipelineShell.Proofs.FileTree.Detours

/-!
# What paths denote

The text of a path, seen from the working directory, denotes an object: the one that a lookup of the two
joined finds. The shell looks for the normal form instead. Unless a `..` takes a link away, that is the
same object (`Denotes.normalise`), and so all that the shell does with a path, it does with the object
that the path denotes (`Session.resolvePath_denotes`).
-/

namespace PipelineShell

namespace Path

theorem hasNul_normalise {text : String} (habsolute : isAbsolute text = true) (h : hasNul text = false) :
    hasNul (normalise text).text = false := by
  rw [hasNul_eq_false_iff] at h ⊢
  exact fun hnul => h ((normalise_sublist habsolute).subset hnul)

end Path

/-! ## Objects that paths denote -/

/-- A file that its owner may execute. -/
def Entry.isProgram : Entry → Bool
  | .file _ mode => ownerExecutes mode
  | _ => false

namespace FileTree

/-- The bytes of a file at a place, if it may be read. -/
def readAt (t : FileTree) (place : Place) (entry : Entry) : Except SystemError Bytes :=
  if (t.grant place).reads = false then .error .permissionDenied
  else
    match entry with
    | .file content _ => .ok content
    | _ => .error .isDirectory

/-- What is left of a file at a place that is opened for writing, if it may be: all of it if writes are
to go to its end. -/
def openedAt (t : FileTree) (place : Place) (appends : Bool) : Entry → Except SystemError Entry
  | .file content mode =>
    if (t.grant place).writes = false then .error .permissionDenied
    else if appends then .ok (.file content mode)
    else .ok (.file [] (t.writtenMode place mode))
  | _ => .error .isDirectory

/-- The names in a directory at a place, if it may be listed. -/
def listAt (t : FileTree) (place : Place) (entry : Entry) : Except SystemError (List String) :=
  if entry = .directory then
    if (t.grant place).reads = false then .error .permissionDenied else .ok (t.namesIn place)
  else .error .notDirectory

variable {t : FileTree} {start start' place : Place} {path name : String} {entry : Entry}

/-- A path denotes the object `entry` at `place`. -/
structure Denotes (t : FileTree) (start : Place) (path : String) (place : Place) (entry : Entry) :
    Prop where
  clean : hasNul path = false
  status : t.status start path = .ok (place, entry)

theorem Denotes.located (h : t.Denotes start path place entry) :
    t.locate .object start path = .ok (.taken place) ∧ t.find? place = some entry :=
  status_eq_ok_iff.1 h.status

theorem Denotes.pathExists (h : t.Denotes start path place entry) : t.pathExists start path = true := by
  simp [FileTree.pathExists, h.clean, h.status, Except.isOk, Except.toBool]

theorem Denotes.directory? (h : t.Denotes start path place entry) :
    t.directory? start path = if entry = .directory then some place else none := by
  unfold FileTree.directory?
  rw [h.clean, h.status]
  cases entry <;> rfl

theorem Denotes.read (h : t.Denotes start path place entry) :
    t.read start path = (t.readAt place entry).mapError .system := by
  unfold FileTree.read readAt
  rw [h.clean, h.status]
  simp only [Bool.false_eq_true, if_false]
  split
  · rfl
  · cases entry <;> rfl

theorem Denotes.list (h : t.Denotes start path place entry) :
    t.list start path = (t.listAt place entry).mapError .system := by
  unfold FileTree.list listAt
  rw [h.clean, h.status]
  cases entry with
  | directory =>
    simp only [Bool.false_eq_true, if_false, if_true]
    split <;> rfl
  | file content mode => rfl
  | link target => rfl

/-- A file that is denoted is opened, and what else is denoted is not. -/
theorem Denotes.openFile (h : t.Denotes start path place entry) (habsolute : Path.isAbsolute path = true)
    (appends : Bool) :
    t.openFile start path appends =
      match t.openedAt place appends entry with
      | .ok left => .ok (t.insert place left, ⟨place, appends, 0⟩)
      | .error e => .error (.system e) := by
  obtain ⟨hlocate, hfind⟩ := h.located
  unfold FileTree.openFile
  rw [h.clean]
  obtain hopen | ⟨hfails, _, hspot, hdirectory⟩ := locate_newFile_of_object habsolute hlocate
  · rw [hopen]
    simp only [Bool.false_eq_true, if_false, hfind]
    cases entry with
    | file content mode =>
      simp only [openedAt]
      split
      · rfl
      · cases appends <;> rfl
    | directory => rfl
    | link target => rfl
  · cases hspot
    cases hfind.symm.trans hdirectory
    rw [hfails]
    rfl

/-- Where no link is taken away, the normal form of a path denotes what the path denotes. -/
theorem Denotes.normalise (h : t.Denotes start path place entry)
    (habsolute : Path.isAbsolute path = true) (hlinks : t.KeepsLinks path) (start' : Place) :
    t.Denotes start' (Path.normalise path).text place entry := by
  obtain ⟨hlocate, hfind⟩ := h.located
  have hnormal := locate_normalise habsolute hlinks hlocate start'
  exact ⟨Path.hasNul_normalise habsolute h.clean, status_eq_ok_iff.2 ⟨hnormal, hfind⟩⟩

/-- A link that `..` takes away makes a difference if it leads into another directory. -/
example (h : t = ⟨[(["d"], .directory), (["e", "d"], .directory), (["l"], .link "d/e")], []⟩) :
    t.locate .object [] "/l/.." = .ok (.taken ["d"]) ∧
      t.locate .object [] (Path.normalise "/l/..").text = .ok (.taken []) := by
  subst h
  decide +kernel

end FileTree

/-! ## Names seen from absolute paths -/

namespace Path

variable {path name : String}

theorem followed_append (habsolute : isAbsolute path = true) (hname : Proper [name]) :
    followed (append path name) = followed path ++ [name] := by
  obtain ⟨hfull, hslash⟩ := hname name List.mem_cons_self
  have hlast : (namesOf name).filter (· ≠ "") = [name] := by
    simp [namesOf, Text.fields_of_notMem hslash, hfull]
  rw [followed, filter_namesOf_append (ne_empty_of_isAbsolute habsolute) (not_isAbsolute_of_notMem hslash),
    hlast, followed]

/-- What stands before a name that is seen from a path: the path, and a slash if need be. -/
theorem exists_append (path : String) (hname : Proper [name]) :
    ∃ gap : List Char, (append path name).toList = path.toList ++ (gap ++ name.toList) := by
  obtain ⟨-, hslash⟩ := hname name List.mem_cons_self
  rw [append_eq, if_neg (not_isAbsolute_of_notMem hslash), opened]
  split
  · exact ⟨[], by simp⟩
  · exact ⟨['/'], by simp⟩

theorem steps_append (habsolute : isAbsolute path = true) (hname : Proper [name]) :
    FileTree.steps (append path name) = followed path ++ [name] := by
  obtain ⟨hfull, hslash⟩ := hname name List.mem_cons_self
  obtain ⟨gap, hgap⟩ := exists_append path hname
  have hchars : name.toList ≠ [] := by simpa using hfull
  have hlast : (append path name).toList.getLast? ≠ some '/' := by
    rw [hgap, ← List.append_assoc, List.getLast?_append_of_ne_nil _ hchars]
    exact fun hlast => hslash (List.mem_of_getLast? hlast)
  rw [FileTree.steps, if_neg hlast]
  exact followed_append habsolute hname

theorem hasNul_of_hasNul_append (hname : Proper [name]) (h : hasNul (append path name) = false) :
    hasNul name = false := by
  obtain ⟨gap, hgap⟩ := exists_append path hname
  rw [hasNul_eq_false_iff] at h ⊢
  rw [hgap] at h
  exact fun hnul => h (by simp [hnul])

theorem hasNul_append_normalise (habsolute : isAbsolute path = true) (hpath : hasNul path = false)
    (hname : Proper [name]) :
    hasNul (append (normalise path).text name) = hasNul (append path name) := by
  have hnormal := hasNul_normalise habsolute hpath
  cases hnul : hasNul name with
  | false => rw [hasNul_append hnormal hnul, hasNul_append hpath hnul]
  | true =>
    have hall (base : String) : hasNul (append base name) = true := by
      by_contra hclean
      have hfalse := hasNul_of_hasNul_append hname (by simpa using hclean)
      rw [hnul] at hfalse
      cases hfalse
    rw [hall, hall]

/-- Seen from the normal form of a path, a name has a text that is part of the one seen from the path. -/
theorem append_normalise_sublist (habsolute : isAbsolute path = true) (hname : Proper [name]) :
    (append (normalise path).text name).toList.Sublist (append path name).toList := by
  obtain ⟨-, hslash⟩ := hname name List.mem_cons_self
  obtain ⟨rest, hrest⟩ := exists_leadingSlashes path.toList
  obtain ⟨gap, hgap⟩ := exists_append path hname
  rw [(canonical_normalise habsolute).append_text hslash]
  apply spell_sublist
  · rw [hgap, hrest, List.append_assoc]
    rfl
  · rw [followed_append habsolute hname]
    exact (names_normalise_sublist habsolute).append_right [name]

end Path

namespace FileTree

variable {t : FileTree} {start place : Place} {path name : String} {entry : Entry}

/-- Where no link is taken away, a name denotes the same object in the directory that a path denotes and
in the one that its normal form denotes. -/
theorem Denotes.append_iff (h : t.Denotes start path place entry)
    (habsolute : Path.isAbsolute path = true) (hlinks : t.KeepsLinks path)
    (hname : Path.Proper [name]) (hshort : (Text.encode (Path.append path name)).length ≤ maxPath)
    (found : Place) (object : Entry) :
    t.Denotes start (Path.append (Path.normalise path).text name) found object ↔
      t.Denotes start (Path.append path name) found object := by
  have hcanonical := Path.canonical_normalise habsolute
  obtain ⟨-, hslash⟩ := hname name List.mem_cons_self
  have hproper : Path.Proper ((Path.normalise path).names ++ [name]) := by
    intro n hn
    rcases List.mem_append.1 hn with hn | hn
    · exact hcanonical.proper n hn
    · exact hname n hn
  have hlength := Text.length_encode_le (Path.append_normalise_sublist habsolute hname)
  have hshort' := Nat.le_trans hlength hshort
  have hnormal : t.locate .object start (Path.append (Path.normalise path).text name) =
      t.walk .object maxLinks [] ((Path.normalise path).names ++ [name]) := by
    rw [hcanonical.append_text hslash] at hshort' ⊢
    exact locate_spell hcanonical.ne_zero hproper hshort'
  have hraw : t.locate .object start (Path.append path name) =
      t.walk .object maxLinks [] (Path.followed path ++ [name]) := by
    rw [locate_eq_walk (Path.isAbsolute_append habsolute name) hshort, Path.steps_append habsolute hname]
  have hwalks := walk_append_followed_iff habsolute hlinks h.located.1 name
  have hclean := Path.hasNul_append_normalise habsolute h.clean hname
  constructor
  · rintro ⟨hnul, hstatus⟩
    rw [status_eq_ok_iff, hnormal, hwalks, ← hraw, ← status_eq_ok_iff] at hstatus
    exact ⟨hclean.symm.trans hnul, hstatus⟩
  · rintro ⟨hnul, hstatus⟩
    rw [status_eq_ok_iff, hraw, ← hwalks, ← hnormal, ← status_eq_ok_iff] at hstatus
    exact ⟨hclean.trans hnul, hstatus⟩

end FileTree

namespace Session

open FileTree (Denotes)

variable {host : Host} {s : Session} {path : String} {place : Place} {entry : Entry} {stage : Stage}
  {stream : Stream} {r : Redirection}

/-! ## What a session does with paths -/

/-- The text of a path, with the working directory of the shell before it unless it is absolute. -/
def fullPath (s : Session) (path : String) : String := Path.append s.directory path

theorem isAbsolute_fullPath (h : Path.isAbsolute s.directory = true) (path : String) :
    Path.isAbsolute (s.fullPath path) = true :=
  Path.isAbsolute_append h path

theorem openOutput_of_opened {files : FileTree} {handle : Handle}
    (hr : stage.redirection? stream = some r)
    (hparents : s.files.ensureParents host.nesting s.processPlace (s.resolvePath r.target) =
      (s.files, .ok ()))
    (hopen : s.files.openFile s.processPlace (s.resolvePath r.target).text r.operator.appends =
      .ok (files, handle)) :
    s.openOutput host stage stream =
      ({ s with files := files }.note host
        (.opened stream (s.resolvePath r.target).text r.operator.appends), .ok (some handle)) := by
  unfold openOutput
  rw [hr]
  simp only [hparents, hopen]

theorem openOutput_of_not_opened {failure : Failure} (hr : stage.redirection? stream = some r)
    (hparents : s.files.ensureParents host.nesting s.processPlace (s.resolvePath r.target) =
      (s.files, .ok ()))
    (hopen : s.files.openFile s.processPlace (s.resolvePath r.target).text r.operator.appends =
      .error failure) :
    s.openOutput host stage stream = (s, .error (stopAt stage r failure)) := by
  unfold openOutput
  rw [hr]
  simp only [hparents, hopen]

theorem isExecutable_congr {path' : String} (hnul : hasNul path' = hasNul path)
    (h : ∀ place entry, s.files.Denotes s.processPlace path' place entry ↔
      s.files.Denotes s.processPlace path place entry) :
    s.isExecutable path' = s.isExecutable path := by
  unfold isExecutable
  rw [hnul]
  cases hclean : hasNul path with
  | true => rfl
  | false =>
    have hstatus : ∀ place entry, s.files.status s.processPlace path' = .ok (place, entry) ↔
        s.files.status s.processPlace path = .ok (place, entry) := by
      intro place entry
      constructor
      · exact fun hfound => ((h place entry).1 ⟨hnul.trans hclean, hfound⟩).status
      · exact fun hfound => ((h place entry).2 ⟨hclean, hfound⟩).status
    simp only [Bool.false_eq_true, if_false]
    cases hfound : s.files.status s.processPlace path with
    | ok found =>
      rw [(hstatus found.1 found.2).2 hfound]
    | error e =>
      cases hfound' : s.files.status s.processPlace path' with
      | ok found' =>
        have hboth := (hstatus found'.1 found'.2).1 hfound'
        rw [hfound] at hboth
        cases hboth
      | error e' => rfl

/-- All that a session does with a path, it does with the object `entry` at `place`. -/
structure Uses (host : Host) (s : Session) (path : String) (place : Place) (entry : Entry) : Prop where
  /-- A redirection of input reads the file. -/
  input : ∀ stage r, stage.redirection? .stdin = some r → r.target = path →
    s.readInput stage =
      match s.files.readAt place entry with
      | .ok content => .ok (some content)
      | .error e => .error (stopAt stage r (.system e))
  /-- A redirection of output opens the file, and makes no directories. -/
  output : ∀ stage stream r, stage.redirection? stream = some r → r.target = path →
    s.openOutput host stage stream =
      match s.files.openedAt place r.operator.appends entry with
      | .ok left =>
        ({ s with files := s.files.insert place left }.note host
            (.opened stream (s.resolvePath path).text r.operator.appends),
          .ok (some ⟨place, r.operator.appends, 0⟩))
      | .error e => (s, .error (stopAt stage r (.system e)))
  /-- `cd` enters the directory, if the process may where it is to follow. -/
  directory : s.changeDirectory host path =
    if entry = .directory then
      if host.movesProcess = true ∧ (s.files.grant place).enters = false then
        (s, some .permissionDenied)
      else
        ({ s with
            directory := (s.resolvePath path).text
            processPlace := if host.movesProcess then place else s.processPlace }, none)
    else (s, some .notDirectory)
  /-- The name of a command with a slash in it is that of the program. -/
  program : '/' ∈ path.toList →
    s.findProgram host path =
      (s, .ok (if entry.isProgram then some (s.resolvePath path).text else none))
  /-- The system starts the file that it would start for the text itself. -/
  started : ∀ busy start, s.files.openExecutable busy start (s.resolvePath path).text =
    s.files.openExecutable busy s.processPlace (s.fullPath path)
  /-- A path of the search path lists the programs of the directory. -/
  listed : s.files.list s.processPlace (s.resolvePath path).text =
    (s.files.listAt place entry).mapError .system
  /-- A search in it finds the program that a lookup of the name after the text itself finds. -/
  searched : ∀ name, Path.Proper [name] →
    (Text.encode (Path.append (s.fullPath path) name)).length ≤ FileTree.maxPath →
    s.isExecutable (s.candidate path name) =
        s.isExecutable (Path.append (s.fullPath path) name) ∧
      ∀ found object, s.files.Denotes s.processPlace (s.candidate path name) found object ↔
        s.files.Denotes s.processPlace (Path.append (s.fullPath path) name) found object

theorem uses_of_denotes (host : Host) (habsolute : Path.isAbsolute s.directory = true)
    (h : s.files.Denotes s.processPlace (s.fullPath path) place entry)
    (hlinks : s.files.KeepsLinks (s.fullPath path)) :
    Uses host s path place entry := by
  have hraw := isAbsolute_fullPath habsolute path
  have hnormal (start : Place) : s.files.Denotes start (s.resolvePath path).text place entry :=
    h.normalise hraw hlinks start
  constructor
  case input =>
    rintro stage r hr rfl
    unfold readInput
    rw [hr]
    simp only [(hnormal s.processPlace).read]
    cases s.files.readAt place entry <;> rfl
  case output =>
    rintro stage stream r hr rfl
    have hcanonical : (s.resolvePath r.target).Canonical := Path.canonical_resolve habsolute r.target
    have hhere := hnormal s.processPlace
    have hparents := FileTree.ensureParents_of_locate hcanonical.ne_zero hcanonical.proper hhere.clean
      hhere.located.1
    have hopen := hhere.openFile (Path.isAbsolute_text hcanonical.ne_zero) r.operator.appends
    cases hopened : s.files.openedAt place r.operator.appends entry with
    | ok left =>
      rw [hopened] at hopen
      exact openOutput_of_opened hr (hparents host.nesting) hopen
    | error e =>
      rw [hopened] at hopen
      exact openOutput_of_not_opened hr (hparents host.nesting) hopen
  case directory =>
    unfold changeDirectory
    simp only [(hnormal s.processPlace).pathExists, (hnormal s.processPlace).directory?, if_true]
    cases entry <;> rfl
  case program =>
    intro hslash
    have hfull : path ≠ "" := by
      rintro rfl
      cases hslash
    unfold findProgram isExecutable
    rw [if_neg hfull, if_pos (by simpa using hslash)]
    simp only [(hnormal s.processPlace).clean, (hnormal s.processPlace).status]
    cases entry <;> rfl
  case started =>
    intro busy start
    unfold FileTree.openExecutable
    rw [(hnormal start).status, h.status]
  case listed => exact (hnormal s.processPlace).list
  case searched =>
    intro name hname hshort
    have hfound := h.append_iff hraw hlinks hname hshort
    have hnul := Path.hasNul_append_normalise hraw h.clean hname
    exact ⟨isExecutable_congr hnul hfound, hfound⟩

/-- A redirection of output to a path makes a file at `place`, if its directory may be changed, and
makes no directories. -/
def Makes (host : Host) (s : Session) (path : String) (place : Place) : Prop :=
  ∀ stage stream r, stage.redirection? stream = some r → r.target = path →
    s.openOutput host stage stream =
      if (s.files.grant place.tail).writes = false then
        (s, .error (stopAt stage r (.system .permissionDenied)))
      else
        ({ s with files := s.files.insert place (.file [] FileTree.newFileMode) }.note host
            (.opened stream (s.resolvePath path).text r.operator.appends),
          .ok (some ⟨place, r.operator.appends, 0⟩))

theorem makes_of_free (host : Host) (habsolute : Path.isAbsolute s.directory = true)
    (hlinks : s.files.KeepsLinks (s.fullPath path))
    (hclean : hasNul (s.fullPath path) = false)
    (hfree : s.files.locate .object s.processPlace (s.fullPath path) = .ok (.free place)) :
    Makes host s path place := by
  rintro stage stream r hr rfl
  have hraw := isAbsolute_fullPath habsolute r.target
  have hcanonical : (s.resolvePath r.target).Canonical := Path.canonical_resolve habsolute r.target
  have hnul : hasNul (s.resolvePath r.target).text = false := Path.hasNul_normalise hraw hclean
  have hnormal : s.files.locate .object s.processPlace (s.resolvePath r.target).text = .ok (.free place) :=
    FileTree.locate_normalise hraw hlinks hfree s.processPlace
  have hparents := FileTree.ensureParents_of_locate hcanonical.ne_zero hcanonical.proper hnul hnormal
  obtain hopen | ⟨-, _, hspot, -⟩ :=
    FileTree.locate_newFile_of_object (Path.isAbsolute_text hcanonical.ne_zero) hnormal
  · split
    · next hbarred =>
      apply openOutput_of_not_opened hr (hparents host.nesting)
      simp only [FileTree.openFile, hnul, Bool.false_eq_true, if_false, hopen, hbarred, if_true]
    · next hwrites =>
      apply openOutput_of_opened hr (hparents host.nesting)
      simp only [FileTree.openFile, hnul, Bool.false_eq_true, if_false, hopen, if_neg hwrites]
  · cases hspot

/-- Unless a `..` takes a link away, the text that `resolvePath` gives denotes the object that the path
denotes as it is seen from the working directory, and redirections, `cd`, the search path and names of
programs use that object. Where the path leads to a free name, a redirection of output makes a file of
that name. -/
theorem resolvePath_denotes (host : Host) (s : Session) (path : String)
    (habsolute : Path.isAbsolute s.directory = true)
    (hlinks : s.files.KeepsLinks (s.fullPath path)) :
    (∀ place entry, s.files.Denotes s.processPlace (s.fullPath path) place entry →
      (∀ start, s.files.Denotes start (s.resolvePath path).text place entry) ∧
        Uses host s path place entry) ∧
    ∀ place, hasNul (s.fullPath path) = false →
      s.files.locate .object s.processPlace (s.fullPath path) = .ok (.free place) →
      Makes host s path place := by
  have hraw := isAbsolute_fullPath habsolute path
  constructor
  · intro place entry h
    exact ⟨h.normalise hraw hlinks, uses_of_denotes host habsolute h hlinks⟩
  · intro place hclean hfree
    exact makes_of_free host habsolute hlinks hclean hfree

/-- A detour through a directory that is reached through a link: the link stays in the path. -/
theorem resolvePath_denotes_furnished :
    Path.isAbsolute Small.furnished.directory = true ∧
      Small.furnished.files.KeepsLinks (Small.furnished.fullPath "./e/..//f") ∧
      Small.furnished.files.Denotes Small.furnished.processPlace
        (Small.furnished.fullPath "./e/..//f") ["f", "d"] (.file Small.input 0o644) ∧
      Small.furnished.files.Denotes [] (Small.furnished.resolvePath "./e/..//f").text ["f", "d"]
        (.file Small.input 0o644) ∧
      Uses Small.host Small.furnished "./e/..//f" ["f", "d"] (.file Small.input 0o644) := by
  have hlinks : Small.furnished.files.KeepsLinks (Small.furnished.fullPath "./e/..//f") := by
    have hfollowed : Path.followed (Small.furnished.fullPath "./e/..//f") =
        ["l", ".", "e", "..", "f"] := by decide +kernel
    intro before name between after hnames hname hbetween
    have hcases :
        name = "l" ∧ between = [".", "e"] ∨ name = "." ∨ before = ["l", "."] ∧ name = "e" := by
      simp [hfollowed, List.cons_eq_append_iff, List.append_eq_cons_iff] at hnames
      grind
    obtain ⟨-, rfl⟩ | rfl | ⟨rfl, rfl⟩ := hcases
    · -- what stands between the link and `..` does not cancel out
      have hnothing := hbetween true []
      exact absurd hnothing (by decide)
    · exact absurd rfl hname.2.1
    · -- the name that `..` takes away is that of a directory
      have hends : Small.furnished.files.locate .name [] (Path.spell 1 ["l", ".", "e"]) =
          .ok (.taken ["e", "d"]) := by decide +kernel
      have hdirectory : Small.furnished.files.find? ["e", "d"] = some .directory := by decide +kernel
      rintro ⟨place, target, hlocate, hfind⟩
      cases hends.symm.trans hlocate
      cases hdirectory.symm.trans hfind
  have hdenotes : Small.furnished.files.Denotes Small.furnished.processPlace
      (Small.furnished.fullPath "./e/..//f") ["f", "d"] (.file Small.input 0o644) :=
    ⟨by decide +kernel, by decide +kernel⟩
  obtain ⟨hsame, -⟩ := resolvePath_denotes Small.host Small.furnished "./e/..//f" rfl hlinks
  obtain ⟨hnormal, huses⟩ := hsame _ _ hdenotes
  exact ⟨rfl, hlinks, hdenotes, hnormal [], huses⟩

end Session

end PipelineShell
