import PipelineShell.Proofs.Extraction

/-!
# The words of a line

The stages of a line are made of words, and these of characters of the line in their order
(`wordOf_of_mem_stages`). So what holds of all characters of a line holds of every argument and of
every target.
-/

namespace PipelineShell

/-! ## Characters -/

namespace Reading

/-- All that a reading has taken over, without the breaks. -/
def taken (r : Reading) : List Char := r.word ++ r.others.flatten

@[simp] theorem taken_push (c : Char) (r : Reading) : (r.push c).taken = c :: r.taken := rfl

theorem flatten_words (r : Reading) : r.words.flatten = r.taken := by
  unfold words taken
  split
  · next h => simp [h]
  · simp

@[simp] theorem taken_breakWord (r : Reading) : r.breakWord.taken = r.taken :=
  r.flatten_words

/-- Nothing is taken over that is not there, or twice. -/
theorem taken_sublist (q : Quoting) (text : List Char) :
    (ofText q text).taken.Sublist text := by
  fun_induction ofText q text with
  | case1 => exact .slnil
  | case2 => exact .slnil
  | case3 => exact .slnil
  | _ => simp_all [List.Sublist.cons]

end Reading

theorem flatten_wordsOf_sublist (text : List Char) : (wordsOf text).flatten.Sublist text := by
  rw [wordsOf, Reading.flatten_words]
  exact Reading.taken_sublist .bare text

theorem Cut.flatten_segments_sublist (q : Quoting) (line : List Char) :
    (Cut.ofLine q line).segments.flatten.Sublist line := by
  fun_induction Cut.ofLine q line with
  | _ => simp_all [Cut.segments, Cut.push, List.Sublist.cons]

/-- A text of a line: characters of one of its words, which has at least one. -/
def WordOf (line word : String) : Prop := word ≠ "" ∧ word.toList.Sublist line.toList

theorem wordOf_of_mem {line : String} {segment word : List Char}
    (hsegment : segment ∈ segmentsOf line.toList) (hword : word ∈ wordsOf segment) :
    WordOf line (String.ofList word) := by
  refine ⟨?_, ?_⟩
  · intro hempty
    have hnil : word = [] := by simpa using congrArg String.toList hempty
    exact nil_notMem_wordsOf segment (hnil ▸ hword)
  · rw [String.toList_ofList]
    have hinside : word.Sublist segment :=
      (List.sublist_flatten_of_mem hword).trans (flatten_wordsOf_sublist segment)
    exact hinside.trans
      ((List.sublist_flatten_of_mem hsegment).trans (Cut.flatten_segments_sublist .bare line.toList))

/-! ## Stages -/

/-- The arguments and the targets of a stage are words of the line. -/
theorem wordOf_of_mem_stages {line : String} {stage : Stage}
    (h : stage ∈ (Pipeline.ofLine line).stages) :
    (∀ word ∈ stage.argv, WordOf line word) ∧ ∀ r ∈ stage.redirections, WordOf line r.target := by
  unfold Pipeline.ofLine at h
  split at h
  · cases h
  · obtain ⟨segment, hsegment, rfl⟩ := List.mem_map.1 h
    have hword : ∀ word ∈ (wordsOf segment).map String.ofList, WordOf line word := by
      intro word hword
      obtain ⟨chars, hchars, rfl⟩ := List.mem_map.1 hword
      exact wordOf_of_mem hsegment hchars
    refine ⟨?_, ?_⟩
    · intro word hmem
      exact hword word ((Extraction.argv_sublist _).subset hmem)
    · intro r hr
      exact hword r.target ((Extraction.targets_sublist _).subset (List.mem_map_of_mem hr))

/-- Only a stage without words has no name. -/
theorem name_eq_empty_iff {line : String} {stage : Stage}
    (h : stage ∈ (Pipeline.ofLine line).stages) : stage.name = "" ↔ stage.argv = [] := by
  have hwords := (wordOf_of_mem_stages h).1
  unfold Stage.name
  cases hargv : stage.argv with
  | nil => simp
  | cons name args =>
    rw [hargv] at hwords
    simpa using (hwords name List.mem_cons_self).1

end PipelineShell
