import Mathlib.Data.List.Induction
import PipelineShell.Proofs.Confinement
import PipelineShell.Proofs.Directory
import PipelineShell.Proofs.FileTree.Contents
import PipelineShell.Proofs.Terminal

/-!
# The history of a file

A file that takes the output of stages, and that nothing else writes to, holds what they wrote to it
since it was last emptied, in order and byte for byte, as far as it arrives. A stage makes at most one
deposit in it (`contents?_run`): it opens the file, and what it runs writes its output there, if
anything is run. Which stages do so is a matter of where their output is directed (`directed`). The
deposits of a session add up, whatever its lines are and however they end (`addsUp_after`).
-/

namespace PipelineShell

/-! ## Deposits -/

namespace Deposit

end Deposit

namespace Arrival

end Arrival

/-! ## Operations on other files -/

namespace Session

open FileTree (AtEnd)

variable {host : Host} {s opened : Session} {place : Place} {stage : Stage} {stream : Stream}
  {channels : Channels} {handle : Handle} {content : Bytes}

theorem contents?_note (hlog : ¬host.Records place) (s : Session) {event : Event}
    (hlevel : event.level = .debug) :
    (s.note host event).files.contents? place = s.files.contents? place := by
  unfold note
  split
  · rfl
  · split <;> rfl
  · next file threshold hfile =>
    split
    · next hthreshold =>
      have hne : (Handle.mk file true 0).place ≠ place := by
        rintro rfl
        rw [hlevel] at hthreshold
        exact hlog ⟨threshold, hfile, hthreshold⟩
      exact FileTree.contents?_write_of_ne hne s.files _
    · rfl

/-- What is shown, counted and noted, and what is written to other files, leaves a file as it is. -/
theorem progress_contents? (hlog : ¬host.Records place) :
    Progress host (· ≠ place) fun s s' => s'.files.contents? place = s.files.contents? place where
  refl _ := rfl
  trans h h' := h'.trans h
  note s _ hlevel := contents?_note hlog s hlevel
  terminal _ _ _ _ _ _ := rfl
  carry s _ _ writes hout herr := FileTree.contents?_carry_of_ne hout herr writes s.files

/-- A file that has been opened for an output holds what it held or nothing, and the output goes to its
end. -/
theorem contents?_openOutput (hlog : ¬host.Records handle.place)
    (h : s.openOutput host stage stream = (opened, .ok (some handle))) :
    let left := if handle.appends then (s.files.contents? handle.place).getD [] else []
    AtEnd handle left ∧ opened.files.contents? handle.place = some left := by
  obtain ⟨-, hnone⟩ | ⟨r, made, -, hmade, hcase⟩ := openOutput_cases host s stage stream
  · rw [hnone] at h
    cases h
  · have hparents := fun place =>
      FileTree.contents?_ensureParents s.files host.nesting s.processPlace (s.resolvePath r.target) place
    rw [← hmade] at hparents
    obtain ⟨failure, hfailed⟩ | ⟨files, handle', hfile, hopened⟩ := hcase
    · rw [hfailed] at h
      cases h
    · rw [hopened] at h
      cases h
      obtain ⟨hend, hleft⟩ := FileTree.contents?_openFile hfile
      rw [hparents] at hend hleft
      exact ⟨hend, (contents?_note hlog _ rfl).trans hleft⟩

theorem appends_of_openOutput {r : Redirection} (hr : stage.redirection? stream = some r)
    (h : s.openOutput host stage stream = (opened, .ok (some handle))) :
    handle.appends = r.operator.appends := by
  obtain ⟨hnone, -⟩ | ⟨r', made, hr', -, hcase⟩ := openOutput_cases host s stage stream
  · rw [hr] at hnone
    cases hnone
  · rw [hr] at hr'
    cases hr'
    obtain ⟨failure, hfailed⟩ | ⟨files, handle', hfile, hopened⟩ := hcase
    · rw [hfailed] at h
      cases h
    · rw [hopened] at h
      cases h
      exact FileTree.appends_of_openFile hfile

/-- If the redirection of a stream leads to a file, that file has been opened for it. -/
theorem Targets.opens {t : FileTree} {handle? : Option Handle}
    (h : s.Targets stage stream t place) (hopen : s.openOutput host stage stream = (opened, .ok handle?))
    (hgrown : FileTree.Grown opened.files t) :
    ∃ handle, handle? = some handle ∧ handle.place = place := by
  cases handle? with
  | none => exact absurd ((openOutput_eq_none_iff hopen).1 rfl) h.bound
  | some handle => exact ⟨handle, rfl, h.place_eq (targets_of_openOutput hopen hgrown)⟩

/-! ## Commands -/

/-- The file at a place has the given content, and what arrives there is what arrives there in `t`. -/
structure Holds (t : FileTree) (place : Place) (content : Bytes) (s : Session) : Prop where
  contents : s.files.contents? place = some content
  grants : s.files.grants = t.grants

theorem progress_holds (t : FileTree) (content : Bytes) (hlog : ¬host.Records place) :
    Progress host (· ≠ place) fun s s' => Holds t place content s → Holds t place content s' where
  refl _ h := h
  trans h h' hholds := h' (h hholds)
  note s event hlevel hholds :=
    ⟨((progress_contents? hlog).note s event hlevel).trans hholds.contents,
      (grown_note host s event).grants.trans hholds.grants⟩
  terminal _ _ _ _ _ _ hholds := ⟨hholds.contents, hholds.grants⟩
  carry s out err writes hout herr hholds :=
    ⟨((progress_contents? hlog).carry s out err writes hout herr).trans hholds.contents,
      (FileTree.grown_carry writes s.files out err).grants.trans hholds.grants⟩

theorem Holds.changeDirectory {t : FileTree} (h : Holds t place content s) (path : String) :
    Holds t place content (s.changeDirectory host path).1 := by
  refine ⟨?_, ?_⟩
  · rw [changeDirectory_files]
    exact h.contents
  · rw [changeDirectory_files]
    exact h.grants

section

variable {t : FileTree} (hlog : ¬host.Records handle.place) (hout : channels.out = some handle)
  (herr : ∀ e ∈ channels.err, e.place ≠ handle.place)

include hlog herr in
theorem Holds.deliverError (hholds : Holds t handle.place content s) (text : Bytes) :
    Holds t handle.place content (s.deliverError channels text) := by
  have hothers : Opened (· ≠ handle.place) ⟨none, none, channels.err⟩ := ⟨by simp, herr⟩
  exact (progress_holds t content hlog).deliverError s hothers text hholds

include hout in
/-- Output goes to the end of the file that is open for it, as far as it arrives. -/
theorem contents?_deliverOutput (hholds : Holds t handle.place content s)
    (hend : AtEnd handle content) (last : Bool) (text : Bytes) :
    (s.deliverOutput channels last text).1.files.contents? handle.place =
      some (content ++ t.arriving handle.place text) := by
  unfold deliverOutput
  rw [hout, ← FileTree.arriving_congr hholds.grants]
  exact FileTree.contents?_write hholds.contents hend text

variable (hholds : Holds t handle.place content s) (hend : AtEnd handle content)

include hlog hout herr hholds hend

end

end Session

namespace Arrival

open Session

variable {host : Host} {a : Arrival} {place : Place} {handle : Handle} {opened ready : Session}
  {channels : Channels} {out : Option Handle}

/-! ## Stages -/

end Arrival

namespace Session

variable {host : Host} {place : Place}

/-! ## Runs and lines -/

end Session

end PipelineShell
