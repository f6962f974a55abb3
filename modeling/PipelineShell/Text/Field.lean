/-!
# Fields

A text cut at every occurrence of a separating character. `join_fields` says that the cut loses
nothing, `mem_fields` that no field holds the separator.
-/

namespace PipelineShell.Text

/-- The parts of `text` between the separators, at least one. -/
def fields (separator : Char) : List Char → List (List Char)
  | [] => [[]]
  | c :: rest =>
    if c = separator then [] :: fields separator rest
    else
      match fields separator rest with
      | [] => [[c]]
      | field :: others => (c :: field) :: others

/-- The fields with the separator between each two. -/
def join (separator : Char) : List (List Char) → List Char
  | [] => []
  | [field] => field
  | field :: others => field ++ separator :: join separator others

theorem fields_ne_nil (separator : Char) (text : List Char) : fields separator text ≠ [] := by
  cases text with
  | nil => simp [fields]
  | cons c rest =>
    simp only [fields]
    split
    · simp
    · split <;> simp

theorem join_fields (separator : Char) (text : List Char) :
    join separator (fields separator text) = text := by
  induction text with
  | nil => rfl
  | cons c rest ih =>
    simp only [fields]
    split
    · next h =>
      cases hf : fields separator rest with
      | nil => exact absurd hf (fields_ne_nil separator rest)
      | cons field others =>
        rw [hf] at ih
        simp only [join, ih, List.nil_append, h]
    · cases hf : fields separator rest with
      | nil => exact absurd hf (fields_ne_nil separator rest)
      | cons field others =>
        rw [hf] at ih
        cases others <;> simp_all [join]

theorem mem_fields {separator : Char} {text field : List Char}
    (h : field ∈ fields separator text) : separator ∉ field := by
  induction text generalizing field with
  | nil => simp_all [fields]
  | cons c rest ih =>
    simp only [fields] at h
    split at h
    · simp only [List.mem_cons] at h
      rcases h with rfl | h
      · simp
      · exact ih h
    · next hc =>
      cases hf : fields separator rest with
      | nil => exact absurd hf (fields_ne_nil separator rest)
      | cons first others =>
        simp only [hf, List.mem_cons] at h
        rcases h with rfl | h
        · have : separator ∉ first := ih (by simp [hf])
          simp [this, Ne.symm hc]
        · exact ih (by simp [hf, h])

end PipelineShell.Text
