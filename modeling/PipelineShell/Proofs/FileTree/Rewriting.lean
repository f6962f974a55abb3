import PipelineShell.Proofs.FileTree.Growth

/-!
# Rewritten files

Files at some places may hold other bytes than before, and have other set-ID bits, and all else is as it
was. Lookups do not see the difference, so every operation that looks at no bytes of these files does
the same on both trees, and no program is started from a file that may be rewritten if these files count
as open for writing (`executable_rewritten`).
-/

namespace PipelineShell.FileTree

/-- `t'` is `t` but for the bytes and the set-ID bits of files at places of `W`. -/
structure Rewritten (W : Place → Prop) (t t' : FileTree) : Prop where
  grants : t'.grants = t.grants
  shape : ∀ p, t'.shape? p = t.shape? p
  outside : ∀ p, ¬W p → t'.find? p = t.find? p

variable {W : Place → Prop} {t t' t'' : FileTree} {place start : Place} {path : String}
  {busy : List Place}

namespace Rewritten

theorem refl (t : FileTree) : Rewritten W t t := ⟨rfl, fun _ => rfl, fun _ _ => rfl⟩

theorem symm (h : Rewritten W t t') : Rewritten W t' t :=
  ⟨h.grants.symm, fun p => (h.shape p).symm, fun p hp => (h.outside p hp).symm⟩

theorem trans (h : Rewritten W t t') (h' : Rewritten W t' t'') : Rewritten W t t'' :=
  ⟨h'.grants.trans h.grants, fun p => (h'.shape p).trans (h.shape p),
    fun p hp => (h'.outside p hp).trans (h.outside p hp)⟩

theorem mono {W' : Place → Prop} (h : Rewritten W t t') (hW : ∀ p, W p → W' p) :
    Rewritten W' t t' :=
  ⟨h.grants, h.shape, fun p hp => h.outside p fun hw => hp (hW p hw)⟩

theorem locate (h : Rewritten W t t') (aim : Aim) (start : Place) (path : String) :
    t'.locate aim start path = t.locate aim start path :=
  locate_congr h.grants fun p _ => h.shape p

/-- What is put at a place may have other bytes in the two trees if it is a place of `W`. -/
theorem insert (h : Rewritten W t t') {entry entry' : Entry} (hshape : entry'.shape = entry.shape)
    (hsame : ¬W place → entry' = entry) :
    Rewritten W (t.insert place entry) (t'.insert place entry') := by
  refine ⟨h.grants, ?_, ?_⟩
  · intro p
    rw [shape?, shape?, find?_insert, find?_insert]
    split
    · exact congrArg some hshape
    · exact h.shape p
  · intro p hp
    rw [find?_insert, find?_insert]
    split
    · next hplace =>
      obtain ⟨_, rfl⟩ := hplace
      rw [hsame hp]
    · exact h.outside p hp

/-- A write to a file at a place of `W`. -/
theorem write {handle : Handle} (hplace : W handle.place) (t : FileTree) (bytes : Bytes) :
    Rewritten W t (handle.write t bytes).1 := by
  have hgrown := grown_write t handle bytes
  refine ⟨hgrown.grants, ?_, ?_⟩
  · intro p
    by_cases hp : (t.find? p).isSome
    · exact hgrown.shape p hp
    · rw [Option.not_isSome_iff_eq_none] at hp
      by_cases hplace : p = handle.place
      · have hnothing : (handle.write t bytes).1 = t := by
          rw [hplace] at hp
          unfold Handle.write
          rw [hp]
        rw [hnothing]
      · exact shape?_congr (find?_write_of_ne hplace t bytes)
  · intro p hp
    have hne : p ≠ handle.place := by
      rintro rfl
      exact hp hplace
    exact find?_write_of_ne hne t bytes

end Rewritten

/-! ## Lookups -/

/-- What is at a place in the two trees: the same, or a file that may have been rewritten. -/
inductive ObjectRewritten (W : Place → Prop) (place : Place) : Option Entry → Option Entry → Prop
  | same (object : Option Entry) : ObjectRewritten W place object object
  | file (h : W place) (content content' : Bytes) {mode mode' : Nat}
    (hmode : Entry.lastingBits mode' = Entry.lastingBits mode) :
    ObjectRewritten W place (some (.file content mode)) (some (.file content' mode'))

theorem Rewritten.object (h : Rewritten W t t') (place : Place) :
    ObjectRewritten W place (t.find? place) (t'.find? place) := by
  by_cases hplace : W place
  · have hshape := h.shape place
    cases hfind : t.find? place with
    | none =>
      rw [shape?_eq_none_iff.2 hfind, shape?_eq_none_iff] at hshape
      rw [hshape]
      exact .same _
    | some entry =>
      cases entry with
      | directory =>
        rw [shape?_eq_directory_iff.2 hfind, shape?_eq_directory_iff] at hshape
        rw [hshape]
        exact .same _
      | link target =>
        rw [shape?_eq_link_iff.2 hfind, shape?_eq_link_iff] at hshape
        rw [hshape]
        exact .same _
      | file content mode =>
        rw [shape?_eq_file_iff.2 ⟨content, mode, hfind, rfl⟩, shape?_eq_file_iff] at hshape
        obtain ⟨content', mode', hfind', hmode⟩ := hshape
        rw [hfind']
        exact .file hplace content content' hmode
  · rw [h.outside place hplace]
    exact .same _

/-- What the lookups of an object come to in the two trees. -/
inductive StatusRewritten (W : Place → Prop) :
    Except SystemError (Place × Entry) → Except SystemError (Place × Entry) → Prop
  | same (answer : Except SystemError (Place × Entry)) : StatusRewritten W answer answer
  | file {place : Place} (h : W place) (content content' : Bytes) {mode mode' : Nat}
    (hmode : Entry.lastingBits mode' = Entry.lastingBits mode) :
    StatusRewritten W (.ok (place, .file content mode)) (.ok (place, .file content' mode'))

theorem status_rewritten (h : Rewritten W t t') (start : Place) (path : String) :
    StatusRewritten W (t.status start path) (t'.status start path) := by
  unfold status
  rw [h.locate]
  split
  · exact .same _
  · exact .same _
  · next place _ =>
    have hobject := h.object place
    generalize t.find? place = object at hobject ⊢
    generalize t'.find? place = object' at hobject ⊢
    cases hobject with
    | same => exact .same _
    | file hplace content content' hmode => exact .file hplace content content' hmode

/-- What stands outside the places of `W` is found as it was. -/
theorem Rewritten.status (h : Rewritten W t t') (hplace : ¬W place) {entry : Entry}
    (hstatus : t.status start path = .ok (place, entry)) :
    t'.status start path = .ok (place, entry) := by
  obtain ⟨hlocate, hfind⟩ := status_eq_ok_iff.1 hstatus
  exact status_eq_ok_iff.2 ⟨(h.locate _ _ _).trans hlocate, (h.outside place hplace).trans hfind⟩

theorem pathExists_rewritten (h : Rewritten W t t') (start : Place) (path : String) :
    t'.pathExists start path = t.pathExists start path := by
  have hstatus := status_rewritten h start path
  unfold pathExists
  generalize t.status start path = r at hstatus ⊢
  generalize t'.status start path = r' at hstatus ⊢
  cases hstatus <;> rfl

theorem directory?_rewritten (h : Rewritten W t t') (start : Place) (path : String) :
    t'.directory? start path = t.directory? start path := by
  have hstatus := status_rewritten h start path
  unfold directory?
  generalize t.status start path = r at hstatus ⊢
  generalize t'.status start path = r' at hstatus ⊢
  cases hstatus <;> rfl

/-! ## Making directories and opening files -/

theorem ensureDirectory_rewritten (h : Rewritten W t t') (start : Place) (path : String) :
    SameAnswer (Rewritten W) (t.ensureDirectory start path) (t'.ensureDirectory start path) := by
  rw [ensureDirectory_eq, ensureDirectory_eq, h.locate, directory?_rewritten h]
  simp only [grant_congr h.grants]
  split
  · exact ⟨rfl, h⟩
  · split
    · split
      · exact ⟨rfl, h.insert rfl fun _ => rfl⟩
      · split <;> exact ⟨rfl, h⟩
    · split <;> exact ⟨rfl, h⟩
    · split <;> exact ⟨rfl, h⟩

theorem nesting_rewritten (h : Rewritten W t t') (start : Place) (slashes : Nat)
    (names : List String) : t'.nesting start slashes names = t.nesting start slashes names := by
  induction names with
  | nil => rfl
  | cons name above ih => simp only [nesting, pathExists_rewritten h, ih]

theorem ensureDirectories_rewritten (h : Rewritten W t t') (start : Place) (slashes : Nat)
    (names : List String) :
    SameAnswer (Rewritten W) (t.ensureDirectories start slashes names)
      (t'.ensureDirectories start slashes names) := by
  induction names with
  | nil => exact ensureDirectory_rewritten h start _
  | cons name above ih =>
    simp only [ensureDirectories, pathExists_rewritten h]
    split
    · exact ensureDirectory_rewritten h start _
    · obtain ⟨made, made', answer, hmade, hmade', hafter⟩ := ih.exists
      rw [hmade, hmade']
      have hlast := ensureDirectory_rewritten hafter start
        (Path.spell slashes (name :: above).reverse)
      cases answer with
      | ok done => exact hlast
      | error failure =>
        cases failure with
        | refused refusal => exact ⟨rfl, hafter⟩
        | system e => cases e <;> first | exact hlast | exact ⟨rfl, hafter⟩

theorem ensureParents_rewritten (h : Rewritten W t t') (limit : Nat) (start : Place) (path : Path) :
    SameAnswer (Rewritten W) (t.ensureParents limit start path)
      (t'.ensureParents limit start path) := by
  simp only [ensureParents, nesting_rewritten h]
  split
  · exact ⟨rfl, h⟩
  · exact ensureDirectories_rewritten h start _ _

/-! ## Trails -/

theorem trailWith_rewritten (h : Rewritten W t t') (aim : Aim)
    (jump : Place → String → List String → List Place) (place : Place) (names : List String) :
    t'.trailWith aim jump place names = t.trailWith aim jump place names := by
  induction names generalizing place with
  | nil => rfl
  | cons name rest ih =>
    simp only [trailWith, ih, grant_congr h.grants]
    have hobject := h.object (name :: place)
    generalize t.find? (name :: place) = object at hobject ⊢
    generalize t'.find? (name :: place) = object' at hobject ⊢
    cases hobject <;> rfl

theorem trail_rewritten (h : Rewritten W t t') (aim : Aim) (start : Place) (path : String) :
    t'.trail aim start path = t.trail aim start path := by
  have hthrough : ∀ links, t'.trailThrough aim links = t.trailThrough aim links := by
    intro links
    induction links with
    | zero => exact funext fun place => funext fun names => trailWith_rewritten h aim _ place names
    | succ links ih =>
      funext place names
      simp only [trailThrough, ih, trailWith_rewritten h]
  simp only [trail, hthrough]

theorem directoriesTrail_rewritten (h : Rewritten W t t') (start : Place) (slashes : Nat)
    (names : List String) :
    t'.directoriesTrail start slashes names = t.directoriesTrail start slashes names := by
  induction names with
  | nil => simp only [directoriesTrail, directoryTrail, trail_rewritten h]
  | cons name above ih =>
    have hmade := (ensureDirectories_rewritten h start slashes above).2
    simp only [directoriesTrail, directoryTrail, trail_rewritten h, trail_rewritten hmade,
      pathExists_rewritten h, ih]

theorem parentsTrail_rewritten (h : Rewritten W t t') (start : Place) (path : Path) :
    t'.parentsTrail start path = t.parentsTrail start path :=
  directoriesTrail_rewritten h start path.slashes _

/-! ## Opening and writing files -/

theorem openFile_rewritten (h : Rewritten W t t') (start : Place) (path : String) (appends : Bool) :
    SameOpening (Rewritten W) (t.openFile start path appends) (t'.openFile start path appends) := by
  unfold openFile
  simp only [h.locate, writtenMode_congr h.grants, grant_congr h.grants]
  split
  · exact .failed _
  · split
    · exact .failed _
    · split
      · exact .failed _
      · exact .opened _ (h.insert rfl fun _ => rfl)
    · next place _ =>
      have hobject := h.object place
      generalize t.find? place = object at hobject ⊢
      generalize t'.find? place = object' at hobject ⊢
      cases hobject with
      | same =>
        split
        · split
          · exact .failed _
          · exact .opened _ (h.insert rfl fun _ => rfl)
        · exact .failed _
      | file hplace content content' hmode =>
        simp only
        split
        · exact .failed _
        · refine .opened _ (h.insert ?_ fun houtside => absurd hplace houtside)
          cases appends with
          | true => simp only [if_true, Entry.shape, hmode]
          | false =>
            simp only [Bool.false_eq_true, if_false, Entry.shape, lastingBits_writtenMode, hmode]

/-! ## Writing -/

theorem write_rewritten (h : Rewritten W t t') (handle : Handle) (bytes : Bytes) :
    (handle.write t' bytes).2 = (handle.write t bytes).2 ∧
      Rewritten W (handle.write t bytes).1 (handle.write t' bytes).1 := by
  have hobject := h.object handle.place
  simp only [Handle.write, arriving_congr h.grants, modeAfter_congr h.grants]
  generalize t.find? handle.place = object at hobject ⊢
  generalize t'.find? handle.place = object' at hobject ⊢
  cases hobject with
  | same =>
    split
    · split
      · exact ⟨rfl, h.insert rfl fun _ => rfl⟩
      · exact ⟨rfl, h.insert rfl fun _ => rfl⟩
    · exact ⟨rfl, h⟩
  | @file hplace content content' mode mode' hmode =>
    have hbits := (lastingBits_modeAfter t handle.place bytes mode').trans
      (hmode.trans (lastingBits_modeAfter t handle.place bytes mode).symm)
    simp only
    by_cases happends : handle.appends = true
    · rw [if_pos happends, if_pos happends]
      exact ⟨rfl, h.insert (congrArg (Entry.file []) hbits) fun houtside => absurd hplace houtside⟩
    · rw [if_neg happends, if_neg happends]
      exact ⟨rfl, h.insert (congrArg (Entry.file []) hbits) fun houtside => absurd hplace houtside⟩

theorem carry_rewritten (h : Rewritten W t t') (out err : Option Handle)
    (writes : List (Sink × Bytes)) :
    Rewritten W (t.carry out err writes) (t'.carry out err writes) := by
  induction writes generalizing t t' out err with
  | nil => exact h
  | cons write rest ih =>
    obtain ⟨sink, bytes⟩ := write
    cases sink with
    | out =>
      cases out with
      | none => exact ih h none err
      | some handle =>
        obtain ⟨hhandle, hafter⟩ := write_rewritten h handle bytes
        simp only [carry, hhandle]
        exact ih hafter _ err
    | err =>
      cases err with
      | none => exact ih h out none
      | some handle =>
        obtain ⟨hhandle, hafter⟩ := write_rewritten h handle bytes
        simp only [carry, hhandle]
        exact ih hafter out _

/-! ## Starting programs -/

/-- A file that is open for writing is not started, so it does not matter what it holds. -/
theorem openExecutable_rewritten (h : Rewritten W t t') (hbusy : ∀ p, W p → p ∈ busy)
    (start : Place) (path : String) :
    t'.openExecutable busy start path = t.openExecutable busy start path := by
  have hstatus := status_rewritten h start path
  simp only [openExecutable, grant_congr h.grants]
  generalize t.status start path = r at hstatus ⊢
  generalize t'.status start path = r' at hstatus ⊢
  cases hstatus with
  | same => rfl
  | @file place hplace content content' _ _ hmode =>
    simp only [if_pos (hbusy place hplace), Entry.someoneExecutes_congr hmode]

theorem programOf_rewritten (h : Rewritten W t t') (hbusy : ∀ p, W p → p ∈ busy)
    (installation : Installation) (start : Place) (scripts : Nat) (content name : Bytes)
    (argv : List Bytes) :
    t'.programOf installation busy start scripts content name argv =
      t.programOf installation busy start scripts content name argv := by
  induction scripts generalizing content name argv with
  | zero =>
    rw [programOf_eq, programOf_eq]
    simp only [openExecutable_rewritten h hbusy]
  | succ scripts ih =>
    rw [programOf_eq, programOf_eq]
    simp only [openExecutable_rewritten h hbusy, ih]

theorem executableFor_rewritten (h : Rewritten W t t') (hbusy : ∀ p, W p → p ∈ busy)
    (installation : Installation) (start : Place) (texts : List String) (path : String)
    (argv : List Bytes) :
    t'.executableFor installation busy start texts path argv =
      t.executableFor installation busy start texts path argv := by
  simp only [executableFor, openExecutable_rewritten h hbusy, programOf_rewritten h hbusy]

/-- The same program is started from both trees. -/
theorem executable_rewritten (h : Rewritten W t t') (hbusy : ∀ p, W p → p ∈ busy)
    (installation : Installation) (start : Place) (order : Order) :
    t'.executable installation busy start order = t.executable installation busy start order := by
  have hstatus := status_rewritten h start order.directory
  unfold executable
  simp only [executableFor_rewritten h hbusy, grant_congr h.grants]
  generalize t.status start order.directory = r at hstatus ⊢
  generalize t'.status start order.directory = r' at hstatus ⊢
  cases hstatus <;> rfl

end PipelineShell.FileTree
