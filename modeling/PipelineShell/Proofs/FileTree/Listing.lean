import PipelineShell.Proofs.FileTree.Vacancy

/-!
# Listings

A listing of a directory has the names of all that stands in it, so a file that a path leads to is
listed, under the last name of the path, in the directory that the path before that name leads to
(`listed_of_status`).
-/

namespace PipelineShell

/-- A name as it stands in a directory. -/
structure BareName (name : String) : Prop where
  full : name ≠ ""
  slash : '/' ∉ name.toList
  clean : hasNul name = false

instance (name : String) : Decidable (BareName name) :=
  decidable_of_iff (name ≠ "" ∧ '/' ∉ name.toList ∧ hasNul name = false)
    ⟨fun ⟨hfull, hslash, hclean⟩ => ⟨hfull, hslash, hclean⟩,
      fun h => ⟨h.full, h.slash, h.clean⟩⟩

namespace FileTree

variable {t t' : FileTree} {start place : Place} {name : String}

/-! ## Names in directories -/

theorem isSome_findEntry_iff {entries : List (Place × Entry)} :
    (findEntry place entries).isSome ↔ ∃ entry, (place, entry) ∈ entries := by
  induction entries with
  | nil => simp [findEntry]
  | cons head rest ih =>
    obtain ⟨p, e⟩ := head
    by_cases hp : p = place
    · subst hp
      simp [findEntry]
    · simp [findEntry, hp, ih, Ne.symm hp]

theorem mem_namesIn : name ∈ t.namesIn place ↔ (t.find? (name :: place)).isSome := by
  rw [find?, if_neg (List.cons_ne_nil name place), isSome_findEntry_iff]
  simp only [namesIn, List.mem_filterMap]
  constructor
  · rintro ⟨⟨p, entry⟩, hmem, hname⟩
    cases p with
    | nil => cases hname
    | cons first directory =>
      simp only at hname
      split at hname
      · next hdirectory =>
        cases hname
        subst hdirectory
        exact ⟨entry, hmem⟩
      · cases hname
  · rintro ⟨entry, hmem⟩
    exact ⟨(name :: place, entry), hmem, by simp⟩

/-- A directory that may be read is listed. -/
theorem list_of_directory? {path : String} (h : t.directory? start path = some place)
    (hreads : (t.grant place).reads = true) : t.list start path = .ok (t.namesIn place) := by
  obtain ⟨hnul, hstatus⟩ := directory?_eq_some_iff.1 h
  rw [list, if_neg (by simp [hnul]), hstatus]
  simp only [hreads, Bool.true_eq_false, if_false]

theorem directory?_of_list {path : String} {names : List String}
    (h : t.list start path = .ok names) :
    ∃ place, t.directory? start path = some place ∧ (t.grant place).reads = true ∧
      names = t.namesIn place := by
  unfold list at h
  split at h
  · cases h
  · next hnul =>
    split at h
    · cases h
    · next place hstatus =>
      split at h
      · cases h
      · next hreads =>
        cases h
        exact ⟨place, directory?_eq_some_iff.2 ⟨by simpa using hnul, hstatus⟩, by simpa using hreads,
          rfl⟩
    · cases h

/-- A listing is refused only for a path that cannot be put to the system. -/
theorem list_cases {path : String} {failure : Failure} (h : t.list start path = .error failure) :
    (hasNul path = true ∧ failure = .refused .embeddedNul) ∨
      hasNul path = false ∧ ∃ e, failure = .system e := by
  unfold list at h
  split at h
  · next hnul =>
    cases h
    exact .inl ⟨hnul, rfl⟩
  · next hnul =>
    right
    refine ⟨by simpa using hnul, ?_⟩
    split at h
    · cases h
      exact ⟨_, rfl⟩
    · split at h <;> cases h
      exact ⟨_, rfl⟩
    · cases h
      exact ⟨_, rfl⟩

/-- All names in the tree are names as they stand in directories. -/
def WellNamed (t : FileTree) : Prop :=
  ∀ place, (t.find? place).isSome → ∀ name ∈ place, BareName name

theorem wellNamed_of_entries (h : ∀ entry ∈ t.entries, ∀ name ∈ entry.1, BareName name) :
    t.WellNamed := by
  intro place hsome
  rw [find?] at hsome
  split at hsome
  · next hroot =>
    subst hroot
    intro name hname
    cases hname
  · obtain ⟨entry, hmem⟩ := isSome_findEntry_iff.1 hsome
    exact h (place, entry) hmem

/-- A name that leads from a directory to a file stands in the directory, which may be looked into. -/
theorem isSome_of_walkWith {jump : Place → String → List String → Except SystemError Spot}
    {dir : Place} {content : Bytes} {mode : Nat} (hname : name ≠ "") (hstanding : t.Standing dir)
    (h : t.walkWith .object jump dir [name] = .ok (.taken place))
    (hfile : t.find? place = some (.file content mode)) :
    (t.find? (name :: dir)).isSome ∧ (t.grant dir).enters = true := by
  have henters : (t.grant dir).enters = true := by
    cases henters : (t.grant dir).enters with
    | true => rfl
    | false =>
      rw [walkWith, if_neg hname, if_pos henters] at h
      cases h
  refine ⟨?_, henters⟩
  have hdirectory : ∀ p, t.Standing p → p ≠ place := by
    rintro p hp rfl
    rw [hp.here] at hfile
    cases hfile
  cases hfind : t.find? (name :: dir) with
  | some entry => rfl
  | none =>
    simp only [walkWith, hname, hfind, if_true, reduceCtorEq, false_and, if_false] at h
    split at h
    · cases h
    · split at h
      · cases h
        exact absurd rfl (hdirectory place hstanding)
      · split at h
        · cases h
          exact absurd rfl (hdirectory dir.tail hstanding.tail)
        · split at h <;> cases h

/-- A file that a directory has under a name stands there under that name, and the directory may be
looked into. -/
theorem listed_of_status {path : Path} {content : Bytes} {mode : Nat} (hpath : path.Canonical)
    (hfull : name ≠ "") (hslash : '/' ∉ name.toList)
    (hnul : hasNul (Path.append path.text name) = false)
    (h : t.status start (Path.append path.text name) = .ok (place, .file content mode)) :
    ∃ dir, t.directory? start path.text = some dir ∧ (t.find? (name :: dir)).isSome ∧
      (t.grant dir).enters = true := by
  obtain ⟨hlocate, hfile⟩ := status_eq_ok_iff.1 h
  have hproper : Path.Proper (path.names ++ [name]) := by
    intro n hn
    rcases List.mem_append.1 hn with hn | hn
    · exact hpath.proper n hn
    · rw [List.mem_singleton.1 hn]
      exact ⟨hfull, hslash⟩
  rw [hpath.append_text hslash] at hlocate hnul
  obtain ⟨dir, hdir, hstanding, links, hwalk⟩ :=
    directory?_spell hpath.ne_zero hproper (List.cons_ne_nil name []) hnul hlocate
  refine ⟨dir, ?_, ?_⟩
  · rw [hpath.text_eq]
    exact hdir
  · cases links with
    | zero => exact isSome_of_walkWith hfull hstanding hwalk hfile
    | succ links => exact isSome_of_walkWith hfull hstanding hwalk hfile

end FileTree

end PipelineShell
