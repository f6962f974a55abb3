import PipelineShell.Proofs.FileTree.Confinement

/-!
# The bytes of a file

What opening and writing do to the bytes of one file. Of a file that is emptied nothing stays, and what
goes to other files leaves it alone. What arrives of all that a program writes to its output is added to
it (`contents?_carry`).
-/

namespace PipelineShell.FileTree

variable {t made : FileTree} {place start : Place} {content : Bytes} {handle : Handle}

/-- The bytes of the file at a place, if there is one. -/
def contents? (t : FileTree) (place : Place) : Option Bytes :=
  match t.find? place with
  | some (.file content _) => some content
  | _ => none

theorem contents?_eq_some_iff :
    t.contents? place = some content ↔ ∃ mode, t.find? place = some (.file content mode) := by
  unfold contents?
  split
  · next held mode hfind => simp [hfind]
  · next hfile =>
    simp only [reduceCtorEq, false_iff, not_exists]
    exact fun mode => hfile content mode

theorem contents?_congr {t' : FileTree} (h : t'.find? place = t.find? place) :
    t'.contents? place = t.contents? place := by
  unfold contents?
  rw [h]

/-- A directory that is made stands where nothing was. -/
theorem contents?_ensureParents (t : FileTree) (limit : Nat) (start : Place) (path : Path)
    (place : Place) :
    (t.ensureParents limit start path).1.contents? place = t.contents? place := by
  have hmade := made_ensureParents t limit start path
  by_cases hsame : (t.ensureParents limit start path).1.find? place = t.find? place
  · exact contents?_congr hsame
  · obtain ⟨hnone, hdirectory, -⟩ := hmade.directory hsame
    unfold contents?
    rw [hnone, hdirectory]

/-! ## Opening -/

/-- A file that has been opened holds what it held or nothing, and the handle stands at its end. -/
theorem contents?_openFile {path : String} {appends : Bool}
    (h : t.openFile start path appends = .ok (made, handle)) :
    let left := if handle.appends then (t.contents? handle.place).getD [] else []
    AtEnd handle left ∧ made.contents? handle.place = some left := by
  unfold openFile at h
  split at h
  · cases h
  · split at h
    · cases h
    · next file hfree =>
      split at h
      · cases h
      cases h
      have hnone := find?_of_free hfree
      have hroot : file ≠ [] := ne_root_of_none hnone
      have hleft : (if appends then (t.contents? file).getD [] else []) = [] := by
        simp [contents?, hnone]
      simp only [hleft]
      exact ⟨.inr rfl, contents?_eq_some_iff.2 ⟨newFileMode, find?_insert_self _ hroot⟩⟩
    · next file htaken =>
      split at h
      · next held mode hfind =>
        split at h
        · cases h
        cases h
        have hroot : file ≠ [] := ne_root_of_file hfind
        have hheld : (t.contents? file).getD [] = held := by
          simp [contents?, hfind]
        simp only [hheld]
        cases appends with
        | true => exact ⟨.inl rfl, contents?_eq_some_iff.2 ⟨_, find?_insert_self _ hroot⟩⟩
        | false => exact ⟨.inr rfl, contents?_eq_some_iff.2 ⟨_, find?_insert_self _ hroot⟩⟩
      · cases h

theorem appends_of_openFile {path : String} {appends : Bool}
    (h : t.openFile start path appends = .ok (made, handle)) : handle.appends = appends := by
  unfold openFile at h
  split at h
  · cases h
  · split at h
    · cases h
    · split at h
      · cases h
      · cases h
        rfl
    · split at h
      · split at h
        · cases h
        · cases h
          rfl
      · cases h

/-! ## Writing -/

/-- What arrives of a write at the end of a file is added to it. -/
theorem contents?_write (hfile : t.contents? handle.place = some content) (hend : AtEnd handle content)
    (bytes : Bytes) :
    (handle.write t bytes).1.contents? handle.place =
      some (content ++ t.arriving handle.place bytes) := by
  obtain ⟨mode, hfind⟩ := contents?_eq_some_iff.1 hfile
  have hroot : handle.place ≠ [] := ne_root_of_file hfind
  rw [(write_atEnd hfind hend bytes).1]
  exact contents?_eq_some_iff.2 ⟨_, find?_insert_self _ hroot⟩

/-- Nothing is written over anything, wherever the handle stands. -/
theorem contents?_write_nil (handle : Handle) (t : FileTree) :
    (handle.write t []).1.contents? handle.place = t.contents? handle.place := by
  unfold Handle.write
  split
  · next content mode hfind =>
    have hroot : handle.place ≠ [] := ne_root_of_file hfind
    have hkept : ∀ entry, entry = Entry.file content mode →
        (t.insert handle.place entry).contents? handle.place = t.contents? handle.place := by
      rintro entry rfl
      exact contents?_congr ((find?_insert_self _ hroot).trans hfind.symm)
    simp only [arriving_nil]
    split
    · exact hkept _ (by rw [List.append_nil]; rfl)
    · exact hkept _ rfl
  · rfl

/-- A write goes to one file. -/
theorem contents?_write_of_ne (hne : handle.place ≠ place) (t : FileTree) (bytes : Bytes) :
    (handle.write t bytes).1.contents? place = t.contents? place :=
  contents?_congr (find?_write_of_ne hne.symm t bytes)

theorem contents?_carry_of_ne {out err : Option Handle} (hout : ∀ o ∈ out, o.place ≠ place)
    (herr : ∀ e ∈ err, e.place ≠ place) (writes : List (Sink × Bytes)) (t : FileTree) :
    (t.carry out err writes).contents? place = t.contents? place := by
  have hconfined : Confined (fun _ => False) (· ≠ place) (fun _ => False) t (t.carry out err writes) :=
    .carry hout herr writes t
  exact contents?_congr ((hconfined.change place).eq_of_not id (· rfl) (·.elim (· rfl) id))

end PipelineShell.FileTree
