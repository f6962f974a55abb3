import PipelineShell.Proofs.Answers
import PipelineShell.Proofs.FileTree.Trail

/-!
# Agreement of trees

Of two trees one may have some files more than the other. Each operation on file trees has a trail,
the places that its lookups look at. Where none of the files added is on the trail, the operation
gives the same answer on both trees, and leaves trees that differ in the same files: it writes only
on its trail, so what it writes is the same in both.
-/

namespace PipelineShell.FileTree

/-- Two openings give one handle, or one failure, and leave trees that are related by `R`. -/
inductive SameOpening (R : FileTree → FileTree → Prop) :
    Except Failure (FileTree × Handle) → Except Failure (FileTree × Handle) → Prop
  | failed (failure : Failure) : SameOpening R (.error failure) (.error failure)
  | opened {made made' : FileTree} (handle : Handle) (h : R made made') :
    SameOpening R (.ok (made, handle)) (.ok (made', handle))

/-! ## Trees with files added -/

/-- What is at a place is no more than a file that nobody may execute. -/
def Idle (object : Option Entry) : Prop :=
  ∀ entry ∈ object, ∃ content mode, entry = .file content mode ∧ Entry.someoneExecutes mode = false

/-- `t'` is `t` with some files added, at places outside `X`, where there is nothing in `t`. -/
structure Agree (X : Place → Prop) (added : Place → Option Entry) (t t' : FileTree) : Prop where
  inside : ∀ p, X p → t'.find? p = t.find? p
  outside : ∀ p, ¬X p → t'.find? p = added p
  absent : ∀ p, ¬X p → t.find? p = none
  idle : ∀ p, ¬X p → Idle (added p)
  grants : t'.grants = t.grants

variable {X : Place → Prop} {added : Place → Option Entry} {t t' : FileTree} {start : Place}
  {path : String}

theorem find?_insert (t : FileTree) (place p : Place) (entry : Entry) :
    (t.insert place entry).find? p =
      if p ≠ [] ∧ p = place then some entry else t.find? p := by
  by_cases hp : p = []
  · simp [hp]
  · simp [find?, insert, findEntry_insertEntry, hp]

theorem Agree.insert (h : Agree X added t t') {place : Place} (hplace : X place)
    (entry : Entry) : Agree X added (t.insert place entry) (t'.insert place entry) := by
  have hne : ∀ p, ¬X p → p ≠ place := by
    rintro p hp rfl
    exact hp hplace
  refine ⟨?_, ?_, ?_, h.idle, h.grants⟩
  · intro p hp
    rw [find?_insert, find?_insert, h.inside p hp]
  · intro p hp
    rw [find?_insert_of_ne entry (hne p hp), h.outside p hp]
  · intro p hp
    rw [find?_insert_of_ne entry (hne p hp), h.absent p hp]

/-- Where there is something in `t`, the trees agree. -/
theorem Agree.of_isSome (h : Agree X added t t') {place : Place} (hsome : (t.find? place).isSome) :
    X place := by
  by_cases hplace : X place
  · exact hplace
  · rw [h.absent place hplace] at hsome
    cases hsome

theorem Agree.along {trail : List Place} (h : Agree X added t t') (htrail : ∀ p ∈ trail, X p) :
    ∀ p ∈ trail, t'.find? p = t.find? p :=
  fun p hp => h.inside p (htrail p hp)

/-! ## Reading -/

theorem locate_agree {aim : Aim} (h : Agree X added t t')
    (htrail : ∀ p ∈ t.trail aim start path, X p) :
    t'.locate aim start path = t.locate aim start path :=
  locate_congr h.grants fun p hp => shape?_congr (h.along htrail p hp)

theorem read_agree (h : Agree X added t t') (htrail : ∀ p ∈ t.trail .object start path, X p) :
    t'.read start path = t.read start path := by
  simp only [read, status_congr h.grants (h.along htrail), grant_congr h.grants]

/-! ## Making directories -/

/-- The places that `ensureDirectory` looks at. -/
def directoryTrail (t : FileTree) (start : Place) (path : String) : List Place :=
  t.trail .name start path ++ t.trail .object start path

/-- Making a directory as one case distinction on the lookup of its name. -/
theorem ensureDirectory_eq (t : FileTree) (start : Place) (path : String) :
    t.ensureDirectory start path =
      if hasNul path then (t, .error (.refused .embeddedNul))
      else
        match t.locate .name start path with
        | .ok (.free place) =>
          if (t.grant place.tail).writes = true then (t.insert place .directory, .ok ())
          else if (t.directory? start path).isSome then (t, .ok ())
          else (t, .error (.system .permissionDenied))
        | .ok (.taken _) =>
          if (t.directory? start path).isSome then (t, .ok ())
          else (t, .error (.system .alreadyExists))
        | .error e =>
          if (t.directory? start path).isSome then (t, .ok ()) else (t, .error (.system e)) := by
  unfold ensureDirectory makeDirectory
  by_cases hnul : hasNul path = true
  · simp only [hnul, if_true]
  · simp only [hnul, Bool.false_eq_true, if_false]
    cases hlocate : t.locate .name start path with
    | error e => rfl
    | ok spot =>
      cases spot with
      | taken place => rfl
      | free place => cases hwrites : (t.grant place.tail).writes <;> simp [hwrites]

theorem ensureDirectory_agree (h : Agree X added t t') (htrail : ∀ p ∈ t.directoryTrail start path, X p) :
    SameAnswer (Agree X added) (t.ensureDirectory start path) (t'.ensureDirectory start path) := by
  have hname : t'.locate .name start path = t.locate .name start path :=
    locate_agree h fun p hp => htrail p (List.mem_append_left _ hp)
  have hobject : t'.directory? start path = t.directory? start path :=
    directory?_congr h.grants (h.along fun p hp => htrail p (List.mem_append_right _ hp))
  rw [ensureDirectory_eq, ensureDirectory_eq, hname, hobject]
  simp only [grant_congr h.grants]
  split
  · exact ⟨rfl, h⟩
  · split
    · next place hfree =>
      have hplace := htrail place (List.mem_append_left _ (place_mem_trail hfree))
      split
      · exact ⟨rfl, h.insert hplace .directory⟩
      · split
        · exact ⟨rfl, h⟩
        · exact ⟨rfl, h⟩
    · split
      · exact ⟨rfl, h⟩
      · exact ⟨rfl, h⟩
    · split
      · exact ⟨rfl, h⟩
      · exact ⟨rfl, h⟩

/-- The places that `ensureDirectories` looks at. -/
def directoriesTrail (t : FileTree) (start : Place) (slashes : Nat) : List String → List Place
  | [] => t.directoryTrail start (Path.spell slashes [])
  | name :: above =>
    t.trail .object start (Path.spell slashes above.reverse) ++
      if above = [] ∨ t.pathExists start (Path.spell slashes above.reverse) = true then
        t.directoryTrail start (Path.spell slashes (name :: above).reverse)
      else
        directoriesTrail t start slashes above ++
          (t.ensureDirectories start slashes above).1.directoryTrail start
            (Path.spell slashes (name :: above).reverse)

theorem nesting_agree {slashes : Nat} {names : List String} (h : Agree X added t t')
    (htrail : ∀ p ∈ t.directoriesTrail start slashes names, X p) :
    t'.nesting start slashes names = t.nesting start slashes names := by
  induction names with
  | nil => rfl
  | cons name above ih =>
    simp only [directoriesTrail, List.mem_append] at htrail
    have hexists := pathExists_congr h.grants (h.along fun p hp => htrail p (.inl hp))
    simp only [nesting, hexists]
    split
    · rfl
    · next hmissing =>
      rw [if_neg hmissing] at htrail
      rw [ih fun p hp => htrail p (.inr (List.mem_append_left _ hp))]

theorem ensureDirectories_agree {slashes : Nat} {names : List String} (h : Agree X added t t')
    (htrail : ∀ p ∈ t.directoriesTrail start slashes names, X p) :
    SameAnswer (Agree X added) (t.ensureDirectories start slashes names)
      (t'.ensureDirectories start slashes names) := by
  induction names with
  | nil => exact ensureDirectory_agree h htrail
  | cons name above ih =>
    simp only [directoriesTrail, List.mem_append] at htrail
    have hexists := pathExists_congr h.grants (h.along fun p hp => htrail p (.inl hp))
    simp only [ensureDirectories, hexists]
    split
    · next hthere =>
      rw [if_pos hthere] at htrail
      exact ensureDirectory_agree h fun p hp => htrail p (.inr hp)
    · next hmissing =>
      simp only [if_neg hmissing, List.mem_append] at htrail
      -- the directories above are made first, and the last one in what they leave
      obtain ⟨made, made', answer, hmade, hmade', hafter⟩ :=
        (ih fun p hp => htrail p (.inr (.inl hp))).exists
      rw [hmade] at htrail
      rw [hmade, hmade']
      have hlast := ensureDirectory_agree hafter fun p hp => htrail p (.inr (.inr hp))
      cases answer with
      | ok done => exact hlast
      | error failure =>
        cases failure with
        | refused refusal => exact ⟨rfl, hafter⟩
        | system e =>
          by_cases he : e = .alreadyExists
          · subst he
            exact hlast
          · cases e <;> first | exact ⟨rfl, hafter⟩ | exact absurd rfl he

/-- The places that `ensureParents` looks at. -/
def parentsTrail (t : FileTree) (start : Place) (path : Path) : List Place :=
  t.directoriesTrail start path.slashes path.names.reverse.tail

theorem ensureParents_agree {limit : Nat} {path : Path} (h : Agree X added t t')
    (htrail : ∀ p ∈ t.parentsTrail start path, X p) :
    SameAnswer (Agree X added) (t.ensureParents limit start path)
      (t'.ensureParents limit start path) := by
  simp only [ensureParents, nesting_agree h htrail]
  split
  · exact ⟨rfl, h⟩
  · exact ensureDirectories_agree h htrail

/-! ## Opening files -/

/-- A file that is opened is one that its trail leads to. -/
theorem place_mem_of_openFile {appends : Bool} {made : FileTree} {handle : Handle}
    (h : t.openFile start path appends = .ok (made, handle)) :
    handle.place ∈ t.trail .newFile start path := by
  unfold openFile at h
  split at h
  · cases h
  · split at h
    · cases h
    · next place hfree =>
      split at h
      · cases h
      · cases h
        exact place_mem_trail hfree
    · next place htaken =>
      split at h
      · split at h
        · cases h
        · cases h
          exact place_mem_trail htaken
      · cases h

theorem openFile_agree {appends : Bool} (h : Agree X added t t')
    (htrail : ∀ p ∈ t.trail .newFile start path, X p) :
    SameOpening (Agree X added) (t.openFile start path appends) (t'.openFile start path appends) := by
  unfold openFile
  simp only [locate_agree h htrail, writtenMode_congr h.grants, grant_congr h.grants]
  split
  · exact .failed _
  · split
    · exact .failed _
    · next place hfree =>
      split
      · exact .failed _
      · exact .opened _ (h.insert (htrail place (place_mem_trail hfree)) _)
    · next place htaken =>
      have hplace := htrail place (place_mem_trail htaken)
      rw [h.inside place hplace]
      split
      · split
        · exact .failed _
        · exact .opened _ (h.insert hplace _)
      · exact .failed _

end PipelineShell.FileTree
