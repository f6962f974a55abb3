import PipelineShell.Proofs.FileTree.Agreement
import PipelineShell.Proofs.Path

/-!
# Texts that can be put to the system

A text without the character that ends texts in the system is never refused. Paths that are made of
such texts are such texts, whatever form they are brought to (`clean_resolve`), and no operation on
files refuses them; only too many missing directories are refused (`ensureParents_refused`).
-/

namespace PipelineShell

theorem hasNul_eq_false_iff {text : String} : hasNul text = false ↔ '\x00' ∉ text.toList := by
  simp [hasNul]

/-! ## Paths -/

namespace Text

theorem flatten_fields_sublist (separator : Char) (text : List Char) :
    (fields separator text).flatten.Sublist text := by
  induction text with
  | nil => exact .slnil
  | cons c rest ih =>
    simp only [fields]
    split
    · exact ih.cons c
    · cases hf : fields separator rest with
      | nil => exact absurd hf (fields_ne_nil separator rest)
      | cons field others =>
        rw [hf] at ih
        exact ih.cons_cons c

theorem subset_of_mem_fields {separator : Char} {text field : List Char}
    (h : field ∈ fields separator text) : field ⊆ text :=
  ((List.sublist_flatten_of_mem h).trans (flatten_fields_sublist separator text)).subset

theorem mem_join {separator c : Char} {texts : List (List Char)} (h : c ∈ join separator texts) :
    c = separator ∨ ∃ text ∈ texts, c ∈ text := by
  induction texts with
  | nil => cases h
  | cons field others ih =>
    cases others with
    | nil => exact .inr ⟨field, List.mem_cons_self, h⟩
    | cons next more =>
      simp only [join, List.mem_append, List.mem_cons] at h
      rcases h with hfield | rfl | hrest
      · exact .inr ⟨field, List.mem_cons_self, hfield⟩
      · exact .inl rfl
      · rcases ih hrest with hsep | ⟨text, htext, hc⟩
        · exact .inl hsep
        · exact .inr ⟨text, List.mem_cons_of_mem _ htext, hc⟩

end Text

namespace Path

/-- Names that can be put to the system. -/
def Clean (names : List String) : Prop := ∀ name ∈ names, hasNul name = false

variable {names : List String}

theorem clean_push {absolute : Bool} {name : String} (h : Clean names) (hname : hasNul name = false) :
    Clean (push absolute names name) := by
  have hup : hasNul ".." = false := by decide
  unfold push
  split
  · exact h
  · split
    · cases names with
      | nil =>
        simp only
        split
        · exact h
        · exact List.forall_mem_singleton.2 hup
      | cons top below =>
        simp only
        split
        · exact List.forall_mem_cons.2 ⟨hup, h⟩
        · exact (List.forall_mem_cons.1 h).2
    · exact List.forall_mem_cons.2 ⟨hname, h⟩

theorem clean_namesOf {text : String} (h : hasNul text = false) : Clean (namesOf text) := by
  intro name hname
  obtain ⟨field, hfield, rfl⟩ := List.mem_map.1 hname
  rw [hasNul_eq_false_iff, String.toList_ofList]
  intro hnul
  exact hasNul_eq_false_iff.1 h (Text.subset_of_mem_fields hfield hnul)

theorem clean_foldl_push {absolute : Bool} {added : List String} (hadded : Clean added)
    (h : Clean names) : Clean (added.foldl (push absolute) names) := by
  induction added generalizing names with
  | nil => exact h
  | cons name rest ih =>
    obtain ⟨hname, hrest⟩ := List.forall_mem_cons.1 hadded
    exact ih hrest (clean_push h hname)

theorem clean_normalise {text : String} (h : hasNul text = false) : Clean (normalise text).names := by
  intro name hname
  have hnil : Clean [] := fun name hname => nomatch hname
  exact clean_foldl_push (clean_namesOf h) hnil name (List.mem_reverse.1 hname)

theorem hasNul_spell (slashes : Nat) (h : Clean names) : hasNul (spell slashes names) = false := by
  rw [hasNul_eq_false_iff, toList_spell]
  intro hnul
  rcases List.mem_append.1 hnul with hslash | hname
  · exact absurd (List.eq_of_mem_replicate hslash) (by decide)
  · rcases Text.mem_join hname with hslash | ⟨chars, hchars, hnul⟩
    · exact absurd hslash (by decide)
    · obtain ⟨name, hmem, rfl⟩ := List.mem_map.1 hchars
      exact hasNul_eq_false_iff.1 (h name hmem) hnul

theorem hasNul_text {path : Path} (h : Clean path.names) : hasNul path.text = false := by
  unfold text
  split
  · decide
  · exact hasNul_spell _ h

theorem hasNul_append {base path : String} (hbase : hasNul base = false)
    (hpath : hasNul path = false) : hasNul (append base path) = false := by
  rw [hasNul_eq_false_iff] at hbase hpath ⊢
  unfold append
  split
  · exact hpath
  · split <;> simp [hbase, hpath]

/-- Seen from a directory that can be put to the system, a path that can be put to it still can. -/
theorem clean_resolve {base path : String} (hbase : hasNul base = false)
    (hpath : hasNul path = false) : Clean (resolve base path).names :=
  clean_normalise (hasNul_append hbase hpath)

end Path

/-! ## Files -/

namespace FileTree

variable {t : FileTree} {start : Place} {path : String} {r : Refusal}

theorem hasNul_of_read_refused (h : t.read start path = .error (.refused r)) : hasNul path = true := by
  unfold read at h
  split at h
  · next hnul => exact hnul
  · split at h
    · cases h
    · split at h
      · cases h
      · split at h <;> cases h

theorem hasNul_of_openFile_refused {appends : Bool}
    (h : t.openFile start path appends = .error (.refused r)) : hasNul path = true := by
  unfold openFile at h
  split at h
  · next hnul => exact hnul
  · split at h
    · cases h
    · split at h <;> cases h
    · split at h
      · split at h <;> cases h
      · cases h

theorem hasNul_of_ensureDirectory_refused
    (h : (t.ensureDirectory start path).2 = .error (.refused r)) : hasNul path = true := by
  rw [ensureDirectory_eq] at h
  split at h
  · next hnul => exact hnul
  · split at h
    · split at h
      · cases h
      · split at h <;> cases h
    · split at h <;> cases h
    · split at h <;> cases h

theorem ensureDirectories_not_refused {slashes : Nat} {names : List String} (hclean : Path.Clean names)
    (t : FileTree) (start : Place) (r : Refusal) :
    (t.ensureDirectories start slashes names).2 ≠ .error (.refused r) := by
  have hlast : ∀ (u : FileTree) {dirs : List String}, Path.Clean dirs →
      (u.ensureDirectory start (Path.spell slashes dirs.reverse)).2 ≠ .error (.refused r) := by
    intro u dirs hdirs hrefused
    have hspelt : hasNul (Path.spell slashes dirs.reverse) = false :=
      Path.hasNul_spell slashes fun name hname => hdirs name (List.mem_reverse.1 hname)
    rw [hasNul_of_ensureDirectory_refused hrefused] at hspelt
    cases hspelt
  induction names with
  | nil =>
    have hroot := hlast t hclean
    rw [List.reverse_nil] at hroot
    simp only [ensureDirectories]
    exact hroot
  | cons name above ih =>
    have habove := ih (List.forall_mem_cons.1 hclean).2
    simp only [ensureDirectories]
    split
    · exact hlast t hclean
    · split
      · exact hlast _ hclean
      · exact hlast _ hclean
      · next hmade =>
        rw [hmade] at habove
        exact habove

/-- Directories above a path are refused only if too many are missing one inside the other. -/
theorem ensureParents_refused {limit : Nat} {path : Path} (hclean : Path.Clean path.names)
    (h : (t.ensureParents limit start path).2 = .error (.refused r)) :
    limit < t.nesting start path.slashes path.names.reverse.tail := by
  apply Nat.lt_of_not_le
  intro hshallow
  unfold ensureParents at h
  rw [if_neg (Nat.not_lt.2 hshallow)] at h
  refine ensureDirectories_not_refused ?_ t start r h
  intro name hname
  exact hclean name (List.mem_reverse.1 (List.mem_of_mem_tail hname))

end FileTree

end PipelineShell
