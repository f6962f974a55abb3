import PipelineShell.Proofs.FileTree.Growth
import PipelineShell.Proofs.Likeness

/-!
# Writing to the end

A handle stands at the end of a file if what is written through it is added to the file. All that a
program writes to one stream then ends up there in order, if it arrives at all, and everything else is as
it would be without the handle (`carry_agreeBut`).
-/

namespace PipelineShell.FileTree

variable {t t' : FileTree} {place : Place} {object : Option Entry}

/-- `t'` is `t` but that at one place, where there is nothing in `t`, there may be a file. -/
abbrev AgreeBut (place : Place) (object : Option Entry) (t t' : FileTree) : Prop :=
  Agree (· ≠ place) (fun _ => object) t t'

theorem AgreeBut.found (h : AgreeBut place object t t') : t'.find? place = object :=
  h.outside place fun hne => hne rfl

/-- A tree with nothing at a place, beside itself. -/
theorem AgreeBut.of_none (h : t.find? place = none) : AgreeBut place none t t := by
  refine ⟨fun _ _ => rfl, ?_, ?_, ?_, rfl⟩
  · intro p hp
    rw [Classical.not_not.1 hp, h]
  · intro p hp
    rw [Classical.not_not.1 hp, h]
  · rintro p hp entry ⟨⟩

theorem AgreeBut.ne_root (h : AgreeBut place object t t') : place ≠ [] := by
  rintro rfl
  simpa using h.absent [] fun hne => hne rfl

theorem AgreeBut.insert (h : AgreeBut place object t t') (content : Bytes) {mode : Nat}
    (hmode : Entry.someoneExecutes mode = false) :
    AgreeBut place (some (.file content mode)) t (t'.insert place (.file content mode)) := by
  refine ⟨?_, ?_, h.absent, ?_, h.grants⟩
  · intro p hp
    rw [find?_insert_of_ne _ hp, h.inside p hp]
  · intro p hp
    rw [Classical.not_not.1 hp, find?_insert_self _ h.ne_root]
  · rintro p hp entry ⟨⟩
    exact ⟨content, mode, rfl, hmode⟩

/-! ## The end of a file -/

/-- In a file of the given content the next write through the handle goes to the end. -/
def AtEnd (handle : Handle) (content : Bytes) : Prop :=
  handle.appends = true ∨ handle.offset = content.length

theorem overlay_length (content bytes : Bytes) :
    overlay content content.length bytes = content ++ bytes := by
  unfold overlay
  split
  · next h => rw [h, List.append_nil]
  · simp

/-- A write at the end adds what arrives to the file, and leaves the handle at the end. -/
theorem write_atEnd {handle : Handle} {content : Bytes} {mode : Nat}
    (hfile : t.find? handle.place = some (.file content mode)) (hend : AtEnd handle content)
    (bytes : Bytes) :
    (handle.write t bytes).1 = t.insert handle.place
        (.file (content ++ t.arriving handle.place bytes) (t.modeAfter handle.place bytes mode)) ∧
      AtEnd (handle.write t bytes).2 (content ++ t.arriving handle.place bytes) := by
  unfold Handle.write
  simp only [hfile]
  by_cases happends : handle.appends = true
  · rw [if_pos happends]
    exact ⟨rfl, .inl happends⟩
  · rw [if_neg happends]
    have hoffset : handle.offset = content.length := hend.resolve_left happends
    rw [hoffset, overlay_length]
    exact ⟨rfl, .inr List.length_append.symm⟩

/-- All that is written to a file of the given mode at a place arrives, and the mode stays what it is. -/
structure Takes (t : FileTree) (place : Place) (mode : Nat) : Prop where
  fault : (t.grant place).fault = none
  keeps : t.writtenMode place mode = mode

theorem Takes.congr {mode : Nat} (h : t.Takes place mode) (hgrants : t'.grants = t.grants) :
    t'.Takes place mode :=
  ⟨by rw [grant_congr hgrants, h.fault], by rw [writtenMode_congr hgrants, h.keeps]⟩

theorem Takes.arriving {mode : Nat} (h : t.Takes place mode) (bytes : Bytes) :
    t.arriving place bytes = bytes := by
  rw [FileTree.arriving, if_pos h.fault]

theorem Takes.modeAfter {mode : Nat} (h : t.Takes place mode) (bytes : Bytes) :
    t.modeAfter place bytes mode = mode := by
  rw [FileTree.modeAfter, h.keeps, ite_self]

/-- All that some writes write to one stream. -/
def writtenTo (sink : Sink) (writes : List (Sink × Bytes)) : Bytes :=
  writes.flatMap fun w => if w.1 = sink then w.2 else []

/-- Writes of a program of which the output goes to the end of a file, beside the same writes of
which the output goes added: the file has the output more, and all else is the same. -/
theorem carry_agreeBut {handle : Handle} {content : Bytes} {mode : Nat} {err : Option Handle}
    (hplace : handle.place = place) (h : AgreeBut place (some (.file content mode)) t t')
    (htakes : t.Takes place mode) (hmode : Entry.someoneExecutes mode = false) (hend : AtEnd handle content)
    (herr : ∀ e ∈ err, e.place ≠ place) (writes : List (Sink × Bytes)) :
    AgreeBut place (some (.file (content ++ writtenTo .out writes) mode))
      (t.carry none err writes) (t'.carry (some handle) err writes) := by
  induction writes generalizing t t' handle content err with
  | nil =>
    simp only [writtenTo, List.flatMap_nil, List.append_nil]
    exact h
  | cons write rest ih =>
    obtain ⟨sink, bytes⟩ := write
    cases sink with
    | out =>
      have hfile : t'.find? handle.place = some (.file content mode) := by
        rw [hplace]
        exact h.found
      have htakes' : t'.Takes handle.place mode := by
        rw [hplace]
        exact htakes.congr h.grants
      obtain ⟨hwrite, hnext⟩ := write_atEnd hfile hend bytes
      rw [htakes'.arriving, htakes'.modeAfter] at hwrite
      rw [htakes'.arriving] at hnext
      have hinsert : AgreeBut place (some (.file (content ++ bytes) mode)) t
          (handle.write t' bytes).1 := by
        rw [hwrite, hplace]
        exact h.insert _ hmode
      have hrest := ih ((write_place handle t' bytes).trans hplace) hinsert htakes hnext herr
      rw [List.append_assoc] at hrest
      exact hrest
    | err =>
      cases err with
      | none => exact ih hplace h htakes hend herr
      | some e =>
        obtain ⟨hhandle, hafter⟩ := write_agree h (herr e rfl) bytes
        simp only [carry, hhandle]
        refine ih hplace hafter (htakes.congr (grown_write t e bytes).grants) hend ?_
        rintro e' ⟨⟩
        rw [write_place]
        exact herr e rfl

theorem carry_none (t : FileTree) (writes : List (Sink × Bytes)) : t.carry none none writes = t := by
  induction writes with
  | nil => rfl
  | cons write rest ih =>
    obtain ⟨sink, bytes⟩ := write
    cases sink <;> exact ih

end PipelineShell.FileTree
