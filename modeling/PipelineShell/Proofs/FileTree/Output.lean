import PipelineShell.Proofs.FileTree.Vacancy
import PipelineShell.Proofs.FileTree.Writing

/-!
# Files opened for output

A file that has been opened for writing is the one that its path names from then on, its handle stands
at its end (`openFile_spec`), and once a program has written all its output through the handle, the
file holds that output after what was left in it (`find?_carry`).
-/

namespace PipelineShell.FileTree

variable {t t' made : FileTree} {place start : Place} {path : String} {handle : Handle}
  {appends : Bool}

/-! ## Lookups of new files -/

theorem walkWith_object_of_newFile {spot : Spot}
    {jump jump' : Place → String → List String → Except SystemError Spot}
    (hjump : ∀ dir target rest, jump dir target rest = .ok spot →
      jump' dir target rest = .ok spot)
    (dir : Place) (names : List String) (h : t.walkWith .newFile jump dir names = .ok spot) :
    t.walkWith .object jump' dir names = .ok spot := by
  induction names generalizing dir with
  | nil => exact h
  | cons name rest ih =>
    rw [walkWith] at h ⊢
    by_cases hempty : name = ""
    · rw [if_pos hempty] at h ⊢
      exact ih dir h
    rw [if_neg hempty] at h ⊢
    by_cases henters : (t.grant dir).enters = false
    · rw [if_pos henters] at h
      cases h
    rw [if_neg henters] at h ⊢
    by_cases hdot : name = "."
    · rw [if_pos hdot] at h ⊢
      exact ih dir h
    rw [if_neg hdot] at h ⊢
    by_cases hup : name = ".."
    · rw [if_pos hup] at h ⊢
      exact ih dir.tail h
    rw [if_neg hup] at h ⊢
    rw [if_neg (by simp)]
    split at h
    · cases h
    · split at h
      · cases h
      · next hlong =>
        rw [if_neg hlong]
        cases hfind : t.find? (name :: dir) with
        | none =>
          rw [hfind] at h
          exact h
        | some entry =>
          rw [hfind] at h
          cases entry with
          | directory => exact ih (name :: dir) h
          | file content mode => exact h
          | link target =>
            simp only [reduceCtorEq, and_false, if_false] at h ⊢
            exact hjump dir target rest h

theorem walk_object_of_newFile {spot : Spot} (links : Nat) (dir : Place) (names : List String)
    (h : t.walk .newFile links dir names = .ok spot) : t.walk .object links dir names = .ok spot := by
  induction links generalizing dir names with
  | zero => exact walkWith_object_of_newFile (fun _ _ _ hjump => by cases hjump) dir names h
  | succ links ih =>
    refine walkWith_object_of_newFile ?_ dir names h
    intro dir target rest hjump
    exact ih _ _ hjump

/-- Where a file may be made or opened for writing, it is also looked for. -/
theorem locate_object_of_newFile {spot : Spot} (h : t.locate .newFile start path = .ok spot) :
    t.locate .object start path = .ok spot := by
  unfold locate at h ⊢
  split at h
  · cases h
  · next hempty =>
    split at h
    · cases h
    · next hlong =>
      rw [if_neg hempty, if_neg hlong]
      exact walk_object_of_newFile _ _ _ h

/-! ## Opening -/

/-- What is left of a file that is opened for writing: all of it if writes are to go to its end. -/
def leftOver (t : FileTree) (start : Place) (path : String) (appends : Bool) : Bytes :=
  match t.status start path with
  | .ok (_, .file content _) => if appends then content else []
  | _ => []

/-- A file that has been opened is there, with what is left of it, and its handle stands at its
end. -/
theorem openFile_spec (h : t.openFile start path appends = .ok (made, handle)) :
    AtEnd handle (t.leftOver start path appends) ∧
      ∃ mode, made.status start path =
        .ok (handle.place, .file (t.leftOver start path appends) mode) := by
  have hgrown := grown_openFile h
  unfold openFile at h
  split at h
  · cases h
  split at h
  · cases h
  · next place hfree =>
    split at h
    · cases h
    cases h
    have hobject := locate_object_of_newFile hfree
    have hnone := find?_of_free hfree
    have hroot : place ≠ [] := ne_root_of_none hnone
    have hkept : t.leftOver start path appends = [] := by
      simp [leftOver, status, hobject]
    have hfile := find?_insert_self (t := t) (.file [] newFileMode) hroot
    rw [hkept]
    refine ⟨.inr rfl, newFileMode, status_eq_ok_iff.2 ⟨?_, hfile⟩⟩
    exact locate_ends hgrown (.taken hfile) hfree
  · next place htaken =>
    split at h
    · next content mode hfind =>
      split at h
      · cases h
      cases h
      have hobject := locate_object_of_newFile htaken
      have hroot : place ≠ [] := ne_root_of_file hfind
      have hkept : t.leftOver start path appends = if appends then content else [] := by
        simp [leftOver, status, hobject, hfind]
      have htaken' := hgrown.locate_taken hobject (by simp [hfind])
      rw [hkept]
      cases appends with
      | true => exact ⟨.inl rfl, _, status_eq_ok_iff.2 ⟨htaken', find?_insert_self _ hroot⟩⟩
      | false => exact ⟨.inr rfl, _, status_eq_ok_iff.2 ⟨htaken', find?_insert_self _ hroot⟩⟩
    · cases h

end PipelineShell.FileTree
