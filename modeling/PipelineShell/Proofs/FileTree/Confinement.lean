import PipelineShell.Proofs.FileTree.Making

/-!
# Confined changes

Only three things happen to a tree: a directory is made, a file is opened and written, or the log is
written. `Confined` says at which places each of them may have happened, and that nothing else has.
So whatever happens, an object that was there still is, with its shape (`Confined.grown`); a file that is
written may lose set-ID bits besides getting other bytes.
-/

namespace PipelineShell.FileTree

/-- A mode after writes: what it was, or that without its set-ID bits. -/
def ModeKept (mode mode' : Nat) : Prop := mode' = mode ∨ mode' = Entry.withoutSetIds mode

namespace ModeKept

variable {mode mode' mode'' : Nat}

theorem trans (h : ModeKept mode mode') (h' : ModeKept mode' mode'') : ModeKept mode mode'' := by
  rcases h with rfl | rfl
  · exact h'
  · rcases h' with rfl | rfl
    · exact .inr rfl
    · exact .inr (Entry.withoutSetIds_withoutSetIds mode)

theorem lastingBits (h : ModeKept mode mode') : Entry.lastingBits mode' = Entry.lastingBits mode := by
  rcases h with rfl | rfl
  · rfl
  · exact Entry.lastingBits_withoutSetIds mode

end ModeKept

/-- The mode that a new file has is not changed by writes to it. -/
theorem ModeKept.newFile {mode : Nat} (h : ModeKept newFileMode mode) : mode = newFileMode := by
  rcases h with rfl | rfl <;> rfl

/-- What may become of what stands at a place. A directory is there newly only if `made`, a file only
if `opened`, and a file has other bytes or another mode than before only if `written`. -/
inductive Change (made opened written : Prop) : Option Entry → Option Entry → Prop
  | same (object : Option Entry) : Change made opened written object object
  | directory (h : made) : Change made opened written none (some .directory)
  | file (h : opened) (content : Bytes) :
    Change made opened written none (some (.file content newFileMode))
  | bytes (h : written) (content content' : Bytes) {mode mode' : Nat} (hmode : ModeKept mode mode') :
    Change made opened written (some (.file content mode)) (some (.file content' mode'))

namespace Change

variable {made opened written : Prop} {object : Option Entry}

theorem of_directory (h : Change made opened written (some .directory) object) :
    object = some .directory := by
  cases h
  rfl

theorem of_link {target : String} (h : Change made opened written (some (.link target)) object) :
    object = some (.link target) := by
  cases h
  rfl

/-- A file is still there, with its mode up to set-ID bits, and if it is not what it was it has been
written. -/
theorem of_file {content : Bytes} {mode : Nat}
    (h : Change made opened written (some (.file content mode)) object) :
    ∃ content' mode', object = some (.file content' mode') ∧ ModeKept mode mode' ∧
      (content' ≠ content ∨ mode' ≠ mode → written) := by
  cases h with
  | same => exact ⟨content, mode, rfl, .inl rfl, fun hne => hne.elim (absurd rfl) (absurd rfl)⟩
  | bytes hwritten _ content' hmode => exact ⟨content', _, rfl, hmode, fun _ => hwritten⟩

/-- Where nothing may happen, nothing does. -/
theorem eq_of_not {object' : Option Entry} (h : Change made opened written object object')
    (hmade : ¬made) (hopened : ¬opened) (hwritten : ¬written) : object' = object := by
  cases h with
  | same => rfl
  | directory h => exact absurd h hmade
  | file h => exact absurd h hopened
  | bytes h => exact absurd h hwritten

end Change

/-- `t'` is `t` with some directories made at places of `made`, files made or written at places of
`opened`, and files written at places of `logged`. -/
structure Confined (made opened logged : Place → Prop) (t t' : FileTree) : Prop where
  grants : t'.grants = t.grants
  change : ∀ place, Change (made place) (opened place) (opened place ∨ logged place) (t.find? place)
    (t'.find? place)

variable {made opened logged : Place → Prop} {t t' t'' : FileTree} {place start : Place}
  {path : String} {handle : Handle}

namespace Confined

theorem refl (t : FileTree) : Confined made opened logged t t := ⟨rfl, fun _ => .same _⟩

theorem trans (h : Confined made opened logged t t') (h' : Confined made opened logged t' t'') :
    Confined made opened logged t t'' := by
  refine ⟨h'.grants.trans h.grants, ?_⟩
  intro place
  have hfirst := h.change place
  have hsecond := h'.change place
  generalize t.find? place = object at hfirst ⊢
  generalize t'.find? place = object' at hfirst hsecond
  generalize t''.find? place = object'' at hsecond ⊢
  cases hfirst with
  | same => exact hsecond
  | directory hmade =>
    cases hsecond
    exact .directory hmade
  | file hopened content =>
    cases hsecond with
    | same => exact .file hopened content
    | bytes _ _ content' hmode =>
      rw [hmode.newFile]
      exact .file hopened content'
  | bytes hwritten content content' hmode =>
    cases hsecond with
    | same => exact .bytes hwritten content content' hmode
    | bytes _ _ content'' hmode' => exact .bytes hwritten content content'' (hmode.trans hmode')

theorem mono {made' opened' : Place → Prop} (h : Confined made opened logged t t')
    (hmade : ∀ place, made place → made' place) (hopened : ∀ place, opened place → opened' place) :
    Confined made' opened' logged t t' := by
  refine ⟨h.grants, ?_⟩
  intro place
  have hchange := h.change place
  generalize t.find? place = object at hchange ⊢
  generalize t'.find? place = object' at hchange ⊢
  cases hchange with
  | same => exact .same object
  | directory hhere => exact .directory (hmade place hhere)
  | file hhere content => exact .file (hopened place hhere) content
  | bytes hhere content content' hmode =>
    exact .bytes (hhere.imp_left (hopened place)) content content' hmode

/-- Nothing is taken away, and of what is there no more than the bytes of files and their set-ID bits
change. -/
theorem grown (h : Confined made opened logged t t') : Grown t t' := by
  refine ⟨h.grants, ?_⟩
  intro place hsome
  have hchange := h.change place
  unfold shape?
  generalize t.find? place = object at hsome hchange ⊢
  generalize t'.find? place = object' at hchange ⊢
  cases hchange with
  | same => rfl
  | directory => cases hsome
  | file => cases hsome
  | bytes _ _ _ hmode => simp only [Option.map_some, Entry.shape, hmode.lastingBits]

/-- A write to a file at a place where writes are allowed. -/
theorem write (hplace : opened handle.place ∨ logged handle.place) (t : FileTree) (bytes : Bytes) :
    Confined made opened logged t (handle.write t bytes).1 := by
  refine ⟨(grown_write t handle bytes).grants, ?_⟩
  intro place
  by_cases hne : place = handle.place
  · subst hne
    unfold Handle.write
    split
    · next content mode hfind =>
      have hroot : handle.place ≠ [] := ne_root_of_file hfind
      simp only
      split
      · rw [hfind, find?_insert_self _ hroot]
        exact .bytes hplace content _ (modeAfter_cases t _ _ mode)
      · rw [hfind, find?_insert_self _ hroot]
        exact .bytes hplace content _ (modeAfter_cases t _ _ mode)
    · exact .same _
  · rw [find?_write_of_ne hne]
    exact .same _

/-- Writes through handles change the files that these stand for. -/
theorem carry {out err : Option Handle} (hout : ∀ o ∈ out, opened o.place)
    (herr : ∀ e ∈ err, opened e.place) (writes : List (Sink × Bytes)) (t : FileTree) :
    Confined made opened logged t (t.carry out err writes) := by
  have hkept : ∀ {handle : Handle} (u : FileTree) (bytes : Bytes), opened handle.place →
      ∀ o ∈ some (handle.write u bytes).2, opened o.place := by
    rintro handle u bytes hplace o ⟨⟩
    rw [write_place]
    exact hplace
  induction writes generalizing t out err with
  | nil => exact .refl t
  | cons write rest ih =>
    obtain ⟨sink, bytes⟩ := write
    cases sink with
    | out =>
      cases out with
      | none => exact ih hout herr t
      | some handle =>
        have hplace := hout handle rfl
        exact (Confined.write (.inl hplace) t bytes).trans (ih (hkept t bytes hplace) herr _)
    | err =>
      cases err with
      | none => exact ih hout herr t
      | some handle =>
        have hplace := herr handle rfl
        exact (Confined.write (.inl hplace) t bytes).trans (ih hout (hkept t bytes hplace) _)

theorem of_made {paths : String → Prop} (h : Made start paths t t')
    (hmade : ∀ path place, paths path → t'.directory? start path = some place → made place) :
    Confined made opened logged t t' := by
  refine ⟨h.extended.grants, ?_⟩
  intro place
  by_cases hsame : t'.find? place = t.find? place
  · rw [hsame]
    exact .same _
  · obtain ⟨hnone, hfound, path, hpath, hleads⟩ := h.directory hsame
    rw [hnone, hfound]
    exact .directory (hmade path place hpath hleads)

theorem of_openFile {appends : Bool} (h : t.openFile start path appends = .ok (t', handle))
    (hplace : opened handle.place) :
    Confined made opened logged t t' := by
  refine ⟨(grown_openFile h).grants, ?_⟩
  intro place
  rcases openFile_changes h place with hsame | ⟨rfl, hopening⟩
  · rw [hsame]
    exact .same _
  · generalize t.find? handle.place = object at hopening ⊢
    generalize t'.find? handle.place = object' at hopening ⊢
    cases hopening with
    | made => exact .file hplace []
    | emptied content mode mode' _ hmode => exact .bytes (.inl hplace) content [] hmode

end Confined

end PipelineShell.FileTree
