import PipelineShell.Proofs.Path

/-!
# Names that cancel out

Names cancel out if they leave every stack of names as it is, as blank names do, and a name with `..`
after it. What a stack holds has been put there by names after which everything has cancelled out
(`exists_pushed`), and so the normal form of a path consists of some of its names, in their order, and
is no longer than the path (`normalise_sublist`).
-/

namespace PipelineShell

namespace Path

/-! ## Names that cancel out -/

/-- Names that cancel out: they leave every stack of names as it is. -/
def Neutral (names : List String) : Prop :=
  ∀ absolute stack, names.foldl (push absolute) stack = stack

variable {name top : String} {names below : List String} {absolute : Bool}

theorem push_blank (h : name = "" ∨ name = ".") (stack : List String) :
    push absolute stack name = stack := by
  unfold push
  rw [if_pos h]

theorem push_inward (h : Inward name) (stack : List String) :
    push absolute stack name = name :: stack := by
  obtain ⟨hfull, hdot, hup⟩ := h
  simp [push, hfull, hdot, hup]

theorem push_up (h : Inward top) (below : List String) : push absolute (top :: below) ".." = below := by
  obtain ⟨-, -, hup⟩ := h
  simp [push, hup]

theorem neutral_nil : Neutral [] := fun _ _ => rfl

/-- Names that cancel out, with a blank one after them. -/
theorem Neutral.blank (h : Neutral names) (hname : name = "" ∨ name = ".") :
    Neutral (names ++ [name]) := by
  intro absolute stack
  rw [List.foldl_append, h absolute stack, List.foldl_cons, push_blank hname, List.foldl_nil]

/-- A detour: after names that cancel out, a name that a later `..` takes away. -/
theorem Neutral.detour {between : List String} (h : Neutral names) (htop : Inward top)
    (hbetween : Neutral between) : Neutral (names ++ top :: between ++ [".."]) := by
  intro absolute stack
  rw [List.foldl_append, List.foldl_append, h absolute stack, List.foldl_cons (l := between),
    push_inward htop, hbetween absolute (top :: stack), List.foldl_cons, push_up htop,
    List.foldl_nil]

/-- What stands on top of a stack was put there by a name after which everything has cancelled out. -/
theorem exists_pushed (h : names.foldl (push true) [] = top :: below) :
    ∃ before between, names = before ++ top :: between ∧ Inward top ∧
      before.foldl (push true) [] = below ∧ Neutral between := by
  -- by the number of names, for `..` uncovers a name that was put there much earlier
  induction hlength : names.length using Nat.strongRecOn generalizing names top below with
  | ind n ih =>
    subst hlength
    obtain rfl | ⟨init, name, hsplit⟩ := List.eq_nil_or_concat names
    · cases h
    rw [List.concat_eq_append] at hsplit
    subst hsplit
    rw [List.foldl_append, List.foldl_cons, List.foldl_nil] at h
    rcases blank_or_up_or_inward name with hblank | rfl | hname
    · rw [push_blank hblank] at h
      obtain ⟨before, between, rfl, htop, hbefore, hbetween⟩ := ih init.length (by simp) h rfl
      exact ⟨before, between ++ [name], by simp, htop, hbefore, hbetween.blank hblank⟩
    · -- `..` takes the name on top away: what was below it has been put there before it
      cases hstack : init.foldl (push true) [] with
      | nil =>
        rw [hstack] at h
        cases h
      | cons taken rest =>
        obtain ⟨first, second, rfl, htaken, hfirst, hsecond⟩ := ih init.length (by simp) hstack rfl
        rw [hstack, push_up htaken] at h
        subst h
        obtain ⟨before, between, rfl, htop, hbefore, hbetween⟩ :=
          ih first.length (by simp) hfirst rfl
        exact ⟨before, between ++ taken :: second ++ [".."], by simp, htop, hbefore,
          hbetween.detour htaken hsecond⟩
    · rw [push_inward hname] at h
      cases h
      exact ⟨init, [], rfl, hname, rfl, neutral_nil⟩

end Path

/-! ## Texts without some of the names -/

theorem Text.join_sublist (separator : Char) {texts texts' : List (List Char)}
    (h : texts.Sublist texts') : (join separator texts).Sublist (join separator texts') := by
  induction h with
  | slnil => exact List.Sublist.slnil
  | @cons texts others field hrest ih =>
    cases others with
    | nil =>
      cases List.sublist_nil.1 hrest
      exact List.nil_sublist _
    | cons next others =>
      exact (ih.cons separator).trans (List.sublist_append_right field _)
  | @cons_cons texts others field hrest ih =>
    cases others with
    | nil =>
      cases List.sublist_nil.1 hrest
      exact List.Sublist.refl _
    | cons next others =>
      cases texts with
      | nil => exact List.sublist_append_left field _
      | cons first texts => exact (ih.cons_cons separator).append_left field

theorem Text.length_encode_le {text text' : String} (h : text.toList.Sublist text'.toList) :
    (encode text).length ≤ (encode text').length := by
  unfold encode
  generalize text.toList = chars, text'.toList = chars' at h
  induction h with
  | slnil => exact Nat.le_refl _
  | cons c _ ih =>
    rw [List.flatMap_cons, List.length_append]
    omega
  | cons_cons c _ ih =>
    rw [List.flatMap_cons, List.flatMap_cons, List.length_append, List.length_append]
    omega

namespace Path

/-- The names in a path text, empty ones left out. -/
def followed (text : String) : List String := (namesOf text).filter (· ≠ "")

theorem proper_followed (text : String) : Proper (followed text) := by
  intro name hname
  obtain ⟨hmem, hfull⟩ := List.mem_filter.1 hname
  obtain ⟨field, hfield, rfl⟩ := List.mem_map.1 hmem
  rw [String.toList_ofList]
  exact ⟨by simpa using hfull, Text.mem_fields hfield⟩

theorem names_normalise {text : String} (h : isAbsolute text = true) :
    (normalise text).names = ((followed text).foldl (push true) []).reverse := by
  have habsolute : decide (leadingSlashes text.toList ≠ 0) = true := decide_eq_true (slashes_normalise h)
  rw [normalise, habsolute, foldl_push_filter, followed]

theorem reverse_push_sublist (absolute : Bool) (stack : List String) (name : String) :
    (push absolute stack name).reverse.Sublist (stack.reverse ++ [name]) := by
  unfold push
  split
  · exact List.sublist_append_left _ _
  · split
    · next hup =>
      subst hup
      cases stack with
      | nil => cases absolute <;> simp
      | cons top below =>
        simp only
        split
        · simp
        · simp
    · simp

/-- The normal form has some of the names that it is made of, in their order. -/
theorem reverse_foldl_push_sublist (absolute : Bool) (added stack : List String) :
    (added.foldl (push absolute) stack).reverse.Sublist (stack.reverse ++ added) := by
  induction added generalizing stack with
  | nil => simp
  | cons name rest ih =>
    have hname := (reverse_push_sublist absolute stack name).append_right rest
    rw [List.append_assoc] at hname
    exact (ih (push absolute stack name)).trans hname

/-- Some of the names in a text, after slashes that it starts with, have a text that is a part of it. -/
theorem spell_sublist {text : String} {slashes : Nat} {rest : List Char} {names : List String}
    (htext : text.toList = List.replicate slashes '/' ++ rest) (h : names.Sublist (followed text)) :
    (spell slashes names).toList.Sublist text.toList := by
  have hblank : ((List.replicate slashes ([] : List Char)).map String.ofList).filter (· ≠ "") = [] := by
    simp
  have hfollowed : followed text = ((Text.fields '/' rest).map String.ofList).filter (· ≠ "") := by
    rw [followed, namesOf, htext, fields_replicate, List.map_append, List.filter_append, hblank,
      List.nil_append]
  have hfields : (names.map String.toList).Sublist (Text.fields '/' rest) := by
    rw [hfollowed] at h
    have hnames := (h.trans List.filter_sublist).map String.toList
    simpa [Function.comp_def] using hnames
  have hjoin := Text.join_sublist '/' hfields
  rw [Text.join_fields] at hjoin
  rw [toList_spell, htext]
  exact hjoin.append_left _

theorem exists_leadingSlashes (text : List Char) :
    ∃ rest, text = List.replicate (leadingSlashes text) '/' ++ rest := by
  unfold leadingSlashes
  split
  · next rest => exact ⟨'/' :: '/' :: rest, rfl⟩
  · next rest _ => exact ⟨rest, rfl⟩
  · next rest _ _ => exact ⟨rest, rfl⟩
  · exact ⟨text, rfl⟩

theorem names_normalise_sublist {text : String} (h : isAbsolute text = true) :
    (normalise text).names.Sublist (followed text) := by
  rw [names_normalise h]
  exact reverse_foldl_push_sublist true (followed text) []

/-- The text of the normal form is a part of the text. -/
theorem normalise_sublist {text : String} (h : isAbsolute text = true) :
    (normalise text).text.toList.Sublist text.toList := by
  obtain ⟨rest, hrest⟩ := exists_leadingSlashes text.toList
  rw [(canonical_normalise h).text_eq]
  exact spell_sublist hrest (names_normalise_sublist h)

end Path

end PipelineShell
