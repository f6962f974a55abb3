import PipelineShell.Proofs.FileTree.Output

/-!
# What is made

Making directories puts directories at free places and does nothing else, and each of them is one that
the path of a directory to be made leads to (`made_ensureParents`). Opening a file for writing changes
what stands at its place only: a file is made there, or the one there is emptied
(`openFile_changes`).
-/

namespace PipelineShell.FileTree

variable {t t' t'' : FileTree} {place start : Place} {path : String}

/-! ## Directories -/

/-- `t'` is `t` with directories made at free places to which some of the paths lead. -/
structure Made (start : Place) (paths : String → Prop) (t t' : FileTree) : Prop where
  extended : Extended t t'
  new : ∀ place, t'.find? place = t.find? place ∨
    t.find? place = none ∧ ∃ path, paths path ∧ t'.directory? start path = some place

variable {paths paths' : String → Prop}

theorem Made.refl (start : Place) (paths : String → Prop) (t : FileTree) : Made start paths t t :=
  ⟨.refl t, fun _ => .inl rfl⟩

theorem Made.trans (h : Made start paths t t') (h' : Made start paths t' t'') :
    Made start paths t t'' := by
  refine ⟨h.extended.trans h'.extended, ?_⟩
  intro place
  rcases h.new place with hsame | ⟨hnone, path, hpath, hfound⟩
  · rcases h'.new place with hsame' | ⟨hnone', hmade⟩
    · exact .inl (hsame'.trans hsame)
    · exact .inr ⟨hsame ▸ hnone', hmade⟩
  · exact .inr ⟨hnone, path, hpath, h'.extended.grown.directory? hfound⟩

theorem Made.mono (h : Made start paths t t') (hpaths : ∀ path, paths path → paths' path) :
    Made start paths' t t' := by
  refine ⟨h.extended, ?_⟩
  intro place
  rcases h.new place with hsame | ⟨hnone, path, hpath, hfound⟩
  · exact .inl hsame
  · exact .inr ⟨hnone, path, hpaths path hpath, hfound⟩

/-- Where there is something new, it is a directory. -/
theorem Made.directory (h : Made start paths t t') (hne : t'.find? place ≠ t.find? place) :
    t.find? place = none ∧ t'.find? place = some .directory ∧
      ∃ path, paths path ∧ t'.directory? start path = some place := by
  rcases h.new place with hsame | ⟨hnone, path, hpath, hfound⟩
  · exact absurd hsame hne
  · have hstatus := (directory?_eq_some_iff.1 hfound).2
    exact ⟨hnone, (status_eq_ok_iff.1 hstatus).2, path, hpath, hfound⟩

theorem made_ensureDirectory (t : FileTree) (start : Place) (path : String) :
    Made start (· = path) t (t.ensureDirectory start path).1 := by
  have hextended := extended_ensureDirectory t start path
  rw [ensureDirectory_eq] at hextended ⊢
  split
  · exact .refl start _ t
  · next hnul =>
    rw [if_neg hnul] at hextended
    split
    · next dir hfree =>
      simp only [hfree] at hextended
      split
      · next hwrites =>
        rw [if_pos hwrites] at hextended
        have hnone := find?_of_free hfree
        have hroot : dir ≠ [] := ne_root_of_none hnone
        have hfind := find?_insert_self (t := t) .directory hroot
        refine ⟨hextended, ?_⟩
        intro place
        by_cases hplace : place = dir
        · subst hplace
          have hlocate := locate_ends hextended.grown (.entered hfind) hfree
          have hstatus := status_eq_ok_iff.2 ⟨hlocate, hfind⟩
          exact .inr ⟨hnone, path, rfl, directory?_eq_some_iff.2 ⟨by simpa using hnul, hstatus⟩⟩
        · exact .inl (find?_insert_of_ne _ hplace)
      · split <;> exact .refl start _ t
    · split <;> exact .refl start _ t
    · split <;> exact .refl start _ t

theorem made_ensureDirectories (t : FileTree) (start : Place) (slashes : Nat)
    (names : List String) :
    Made start (fun path => ∃ dirs, dirs <:+ names ∧ path = Path.spell slashes dirs.reverse) t
      (t.ensureDirectories start slashes names).1 := by
  induction names with
  | nil =>
    apply (made_ensureDirectory t start _).mono
    rintro path rfl
    exact ⟨[], List.suffix_rfl, rfl⟩
  | cons name above ih =>
    have hlast : ∀ u : FileTree,
        Made start (fun path => ∃ dirs, dirs <:+ name :: above ∧
          path = Path.spell slashes dirs.reverse) u
          (u.ensureDirectory start (Path.spell slashes (name :: above).reverse)).1 := by
      intro u
      apply (made_ensureDirectory u start _).mono
      rintro path rfl
      exact ⟨_, List.suffix_rfl, rfl⟩
    have habove : Made start (fun path => ∃ dirs, dirs <:+ name :: above ∧
        path = Path.spell slashes dirs.reverse) t (t.ensureDirectories start slashes above).1 := by
      apply ih.mono
      rintro path ⟨dirs, hsuffix, rfl⟩
      exact ⟨dirs, hsuffix.trans (List.suffix_cons name above), rfl⟩
    simp only [ensureDirectories]
    split
    · exact hlast t
    · split
      · next hmade =>
        rw [hmade] at habove
        exact habove.trans (hlast _)
      · next hmade =>
        rw [hmade] at habove
        exact habove.trans (hlast _)
      · next hmade =>
        rw [hmade] at habove
        exact habove

/-- A path of the directory in which `path` lies, or of one above that. -/
def AbovePath (path : Path) (above : String) : Prop :=
  ∃ names, names <+: path.names.dropLast ∧ above = Path.spell path.slashes names

theorem made_ensureParents (t : FileTree) (limit : Nat) (start : Place) (path : Path) :
    Made start (AbovePath path) t (t.ensureParents limit start path).1 := by
  simp only [ensureParents]
  split
  · exact .refl start _ t
  · apply (made_ensureDirectories t start _ _).mono
    rintro text ⟨above, hsuffix, rfl⟩
    rw [List.tail_reverse] at hsuffix
    exact ⟨above.reverse, by simpa using List.reverse_prefix.2 hsuffix, rfl⟩

/-! ## Files -/

/-- What opening a file for writing does to what stands at its place, where it does anything: a file
is made, or its bytes are dropped, and its set-ID bits may be. -/
inductive Opening (appends : Bool) : Option Entry → Option Entry → Prop
  | made : Opening appends none (some (.file [] newFileMode))
  | emptied (content : Bytes) (mode mode' : Nat) (h : appends = false)
    (hmode : mode' = mode ∨ mode' = Entry.withoutSetIds mode) :
    Opening appends (some (.file content mode)) (some (.file [] mode'))

theorem writtenMode_cases (t : FileTree) (place : Place) (mode : Nat) :
    t.writtenMode place mode = mode ∨ t.writtenMode place mode = Entry.withoutSetIds mode := by
  unfold writtenMode
  split
  · exact .inr rfl
  · exact .inl rfl

theorem modeAfter_cases (t : FileTree) (place : Place) (bytes : Bytes) (mode : Nat) :
    t.modeAfter place bytes mode = mode ∨
      t.modeAfter place bytes mode = Entry.withoutSetIds mode := by
  unfold modeAfter
  split
  · exact .inl rfl
  · exact writtenMode_cases t place mode

theorem openFile_changes {appends : Bool} {made : FileTree} {handle : Handle}
    (h : t.openFile start path appends = .ok (made, handle)) (place : Place) :
    made.find? place = t.find? place ∨
      place = handle.place ∧ Opening appends (t.find? place) (made.find? place) := by
  unfold openFile at h
  split at h
  · cases h
  · split at h
    · cases h
    · next file hfree =>
      split at h
      · cases h
      · cases h
        have hnone := find?_of_free hfree
        have hroot : file ≠ [] := ne_root_of_none hnone
        by_cases hplace : place = file
        · subst hplace
          rw [hnone, find?_insert_self _ hroot]
          exact .inr ⟨rfl, .made⟩
        · exact .inl (find?_insert_of_ne _ hplace)
    · next file htaken =>
      split at h
      · next content mode hfind =>
        split at h
        · cases h
        · cases h
          have hroot : file ≠ [] := ne_root_of_file hfind
          by_cases hplace : place = file
          · subst hplace
            rw [hfind, find?_insert_self _ hroot]
            cases appends with
            | true => exact .inl rfl
            | false =>
              exact .inr ⟨rfl, .emptied content mode _ rfl (writtenMode_cases t place mode)⟩
          · exact .inl (find?_insert_of_ne _ hplace)
      · cases h

end PipelineShell.FileTree
