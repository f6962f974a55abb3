import PipelineShell.Launch
import PipelineShell.Proofs.FileTree.Agreement

/-!
# Growth of trees

No operation takes an object away or changes what a lookup sees of it: all that happens to a tree is
that objects are put at free places, and that files get other bytes and lose set-ID bits (`Grown`);
making directories does not even do that (`Extended`). So what a lookup has found stays found, and a
name that was free stays free as long as nothing is put there (`Grown.locate_free`).
-/

namespace PipelineShell.FileTree

/-- Every object of `t` is in `t'`, of the same shape. -/
structure Grown (t t' : FileTree) : Prop where
  grants : t'.grants = t.grants
  shape : ∀ p, (t.find? p).isSome → t'.shape? p = t.shape? p

variable {t t' t'' : FileTree} {place start : Place} {path : String}

theorem isSome_shape? : (t.shape? place).isSome = (t.find? place).isSome := by
  simp [shape?]

theorem Grown.refl (t : FileTree) : Grown t t := ⟨rfl, fun _ _ => rfl⟩

theorem Grown.trans (h : Grown t t') (h' : Grown t' t'') : Grown t t'' := by
  refine ⟨h'.grants.trans h.grants, ?_⟩
  intro p hp
  have hkept := h.shape p hp
  have hp' : (t'.find? p).isSome := by rw [← isSome_shape?, hkept, isSome_shape?, hp]
  rw [h'.shape p hp', hkept]

theorem Grown.insert_file {content : Bytes} {mode mode' : Nat}
    (h : t.find? place = some (.file content mode))
    (hmode : Entry.lastingBits mode' = Entry.lastingBits mode) (content' : Bytes) :
    Grown t (t.insert place (.file content' mode')) := by
  refine ⟨rfl, ?_⟩
  intro p _
  by_cases hp : p = place
  · subst hp
    have hroot : p ≠ [] := ne_root_of_file h
    simp only [shape?, find?_insert_self _ hroot, h, Option.map_some, Entry.shape, hmode]
  · exact shape?_congr (find?_insert_of_ne _ hp)

/-- A write takes no lasting bit of a mode away. -/
theorem lastingBits_writtenMode (t : FileTree) (place : Place) (mode : Nat) :
    Entry.lastingBits (t.writtenMode place mode) = Entry.lastingBits mode := by
  unfold writtenMode
  split
  · exact Entry.lastingBits_withoutSetIds mode
  · rfl

theorem lastingBits_modeAfter (t : FileTree) (place : Place) (bytes : Bytes) (mode : Nat) :
    Entry.lastingBits (t.modeAfter place bytes mode) = Entry.lastingBits mode := by
  unfold modeAfter
  split
  · rfl
  · exact lastingBits_writtenMode t place mode

/-- Every object of `t` is in `t'` as it is. -/
structure Extended (t t' : FileTree) : Prop where
  grants : t'.grants = t.grants
  find : ∀ p, (t.find? p).isSome → t'.find? p = t.find? p

theorem Extended.refl (t : FileTree) : Extended t t := ⟨rfl, fun _ _ => rfl⟩

theorem Extended.trans (h : Extended t t') (h' : Extended t' t'') : Extended t t'' := by
  refine ⟨h'.grants.trans h.grants, ?_⟩
  intro p hp
  have hkept := h.find p hp
  rw [h'.find p (by rw [hkept, hp]), hkept]

theorem Extended.grown (h : Extended t t') : Grown t t' :=
  ⟨h.grants, fun p hp => shape?_congr (h.find p hp)⟩

theorem Extended.insert_free (h : t.find? place = none) (entry : Entry) :
    Extended t (t.insert place entry) := by
  refine ⟨rfl, ?_⟩
  intro p hp
  have hne : p ≠ place := by
    rintro rfl
    simp [h] at hp
  exact find?_insert_of_ne entry hne

/-! ## Free places -/

theorem find?_of_walkWith_free {aim : Aim}
    {jump : Place → String → List String → Except SystemError Spot}
    (hjump : ∀ dir target rest, jump dir target rest = .ok (.free place) → t.find? place = none)
    (dir : Place) (names : List String) (h : t.walkWith aim jump dir names = .ok (.free place)) :
    t.find? place = none := by
  fun_induction walkWith t aim jump dir names with
  | case1 => cases h
  | case2 _ _ ih => exact ih h
  | case3 => cases h
  | case4 _ _ _ _ ih => exact ih h
  | case5 _ _ _ _ _ ih => exact ih h
  | case6 => cases h
  | case7 => cases h
  | case8 _ _ _ _ _ _ _ hfind =>
    cases h
    exact hfind
  | case9 => cases h
  | case10 _ _ _ _ _ _ _ _ _ _ ih => exact ih h
  | case11 => cases h
  | case12 => cases h
  | case13 => cases h
  | case14 dir _ rest _ _ _ _ _ _ target => exact hjump dir target rest h

theorem find?_of_walk_free {aim : Aim} (links : Nat) (dir : Place) (names : List String)
    (h : t.walk aim links dir names = .ok (.free place)) : t.find? place = none := by
  induction links generalizing dir names with
  | zero => exact find?_of_walkWith_free (fun _ _ _ hjump => by cases hjump) dir names h
  | succ links ih =>
    refine find?_of_walkWith_free ?_ dir names h
    intro dir target rest hjump
    exact ih _ _ hjump

/-- Nothing stands at a place that a lookup calls free. -/
theorem find?_of_free {aim : Aim} (h : t.locate aim start path = .ok (.free place)) :
    t.find? place = none := by
  unfold locate at h
  split at h
  · cases h
  · split at h
    · cases h
    · exact find?_of_walk_free _ _ _ h

/-- A name that is free stays free while nothing is put there. -/
theorem Grown.locate_free {aim : Aim} (hgrown : Grown t t')
    (h : t.locate aim start path = .ok (.free place)) (hnone : t'.find? place = none) :
    t'.locate aim start path = .ok (.free place) := by
  rw [locate_congr hgrown.grants, h]
  intro p hp
  rcases (leadsTo_trail h).2 p hp with hend | hopen
  · have hplace : p = place := hend
    refine shape?_congr ?_
    rw [hplace, hnone, find?_of_free h]
  · exact hgrown.shape p hopen.isSome

/-- What a lookup has found stays found. -/
theorem Grown.locate_taken {aim : Aim} (hgrown : Grown t t')
    (h : t.locate aim start path = .ok (.taken place)) (hsome : (t.find? place).isSome) :
    t'.locate aim start path = .ok (.taken place) := by
  rw [locate_congr hgrown.grants, h]
  intro p hp
  rcases (leadsTo_trail h).2 p hp with hend | hopen
  · have hplace : p = place := hend
    subst hplace
    exact hgrown.shape p hsome
  · exact hgrown.shape p hopen.isSome

/-- A file that a path names stays the one that it names, with the lasting bits of its mode. -/
theorem Grown.status_file (hgrown : Grown t t') {content : Bytes} {mode : Nat}
    (h : t.status start path = .ok (place, .file content mode)) :
    ∃ content' mode', t'.status start path = .ok (place, .file content' mode') ∧
      Entry.lastingBits mode' = Entry.lastingBits mode := by
  obtain ⟨hlocate, hfind⟩ := status_eq_ok_iff.1 h
  have hsome : (t.find? place).isSome := by simp [hfind]
  have hkept := hgrown.shape place hsome
  rw [shape?_eq_file_iff.2 ⟨content, mode, hfind, rfl⟩] at hkept
  obtain ⟨content', mode', hfound, hmode⟩ := shape?_eq_file_iff.1 hkept
  exact ⟨content', mode', status_eq_ok_iff.2 ⟨hgrown.locate_taken hlocate hsome, hfound⟩, hmode⟩

/-- A directory that a path leads to stays where it is. -/
theorem Grown.directory? (hgrown : Grown t t')
    (h : t.directory? start path = some place) : t'.directory? start path = some place := by
  obtain ⟨hnul, hstatus⟩ := directory?_eq_some_iff.1 h
  obtain ⟨hlocate, hfind⟩ := status_eq_ok_iff.1 hstatus
  have hsome : (t.find? place).isSome := by simp [hfind]
  have hkept := hgrown.shape place hsome
  rw [shape?_eq_directory_iff.2 hfind, shape?_eq_directory_iff] at hkept
  have hstatus' := status_eq_ok_iff.2 ⟨hgrown.locate_taken hlocate hsome, hkept⟩
  exact directory?_eq_some_iff.2 ⟨hnul, hstatus'⟩

/-- What a path names in a tree it names in every tree that extends it. -/
theorem Extended.status (hextended : Extended t t') {entry : Entry}
    (h : t.status start path = .ok (place, entry)) : t'.status start path = .ok (place, entry) := by
  rw [status_congr hextended.grants, h]
  exact fun p hp => hextended.find p (isSome_of_mem_trail h p hp)

/-! ## Operations -/

theorem extended_ensureDirectory (t : FileTree) (start : Place) (path : String) :
    Extended t (t.ensureDirectory start path).1 := by
  rw [ensureDirectory_eq]
  split
  · exact .refl t
  · split
    · next hfree =>
      split
      · exact .insert_free (find?_of_free hfree) .directory
      · split <;> exact .refl t
    · split <;> exact .refl t
    · split <;> exact .refl t

theorem extended_ensureDirectories (t : FileTree) (start : Place) (slashes : Nat)
    (names : List String) : Extended t (t.ensureDirectories start slashes names).1 := by
  induction names with
  | nil => exact extended_ensureDirectory t start _
  | cons name above ih =>
    simp only [ensureDirectories]
    split
    · exact extended_ensureDirectory t start _
    · split
      · next hmade =>
        rw [hmade] at ih
        exact ih.trans (extended_ensureDirectory _ start _)
      · next hmade =>
        rw [hmade] at ih
        exact ih.trans (extended_ensureDirectory _ start _)
      · next hmade =>
        rw [hmade] at ih
        exact ih

theorem extended_ensureParents (t : FileTree) (limit : Nat) (start : Place) (path : Path) :
    Extended t (t.ensureParents limit start path).1 := by
  simp only [ensureParents]
  split
  · exact .refl t
  · exact extended_ensureDirectories t start _ _

theorem grown_openFile {appends : Bool} {made : FileTree} {handle : Handle}
    (h : t.openFile start path appends = .ok (made, handle)) : Grown t made := by
  unfold openFile at h
  split at h
  · cases h
  · split at h
    · cases h
    · next hfree =>
      split at h
      · cases h
      · cases h
        exact (Extended.insert_free (find?_of_free hfree) _).grown
    · split at h
      · next hfile =>
        split at h
        · cases h
        · cases h
          split
          · exact .insert_file hfile rfl _
          · exact .insert_file hfile (lastingBits_writtenMode t _ _) _
      · cases h

theorem grown_write (t : FileTree) (handle : Handle) (bytes : Bytes) :
    Grown t (handle.write t bytes).1 := by
  unfold Handle.write
  split
  · next content mode hfile =>
    have hmode := lastingBits_modeAfter t handle.place bytes mode
    dsimp only
    split
    · exact .insert_file hfile hmode _
    · exact .insert_file hfile hmode _
  · exact .refl t

theorem find?_write_of_ne {handle : Handle} (hne : place ≠ handle.place) (t : FileTree) (bytes : Bytes) :
    (handle.write t bytes).1.find? place = t.find? place := by
  unfold Handle.write
  split
  · dsimp only
    split <;> exact find?_insert_of_ne _ hne
  · rfl

theorem grown_carry (writes : List (Sink × Bytes)) (t : FileTree) (out err : Option Handle) :
    Grown t (t.carry out err writes) := by
  induction writes generalizing t out err with
  | nil => exact .refl t
  | cons write rest ih =>
    obtain ⟨sink, bytes⟩ := write
    cases sink with
    | out =>
      cases out with
      | none => exact ih t none err
      | some handle => exact (grown_write t handle bytes).trans (ih _ _ err)
    | err =>
      cases err with
      | none => exact ih t out none
      | some handle => exact (grown_write t handle bytes).trans (ih _ out _)

end PipelineShell.FileTree
