import PipelineShell.FileTree.Lookup

/-!
# Paths in normal form

The names of a path in normal form are proper: not empty and without a slash. So the text of an
absolute path spells its names and nothing else, and a lookup follows exactly these
(`steps_spell`).
-/

namespace PipelineShell

/-! ## Fields -/

namespace Text

variable {separator : Char}

theorem fields_of_notMem {field : List Char} (h : separator ∉ field) :
    fields separator field = [field] := by
  induction field with
  | nil => rfl
  | cons c rest ih =>
    obtain ⟨hc, hrest⟩ := not_or.1 (mt List.mem_cons.2 h)
    simp only [fields, if_neg (Ne.symm hc), ih hrest]

theorem fields_append {field : List Char} (h : separator ∉ field) (rest : List Char) :
    fields separator (field ++ separator :: rest) = field :: fields separator rest := by
  induction field with
  | nil => simp [fields]
  | cons c others ih =>
    obtain ⟨hc, hothers⟩ := not_or.1 (mt List.mem_cons.2 h)
    simp only [List.cons_append, fields, if_neg (Ne.symm hc), ih hothers]

/-- Joined fields are cut into the same fields. -/
theorem fields_join {texts : List (List Char)} (hne : texts ≠ [])
    (h : ∀ field ∈ texts, separator ∉ field) : fields separator (join separator texts) = texts := by
  induction texts with
  | nil => exact absurd rfl hne
  | cons field others ih =>
    have hfield := h field List.mem_cons_self
    cases others with
    | nil => exact fields_of_notMem hfield
    | cons next others =>
      have hothers := ih (List.cons_ne_nil _ _) fun f hf => h f (List.mem_cons_of_mem _ hf)
      simp only [join, fields_append hfield, hothers]

/-- The text of some fields is the start of the text of these and more. -/
theorem join_append (separator : Char) (texts more : List (List Char)) :
    ∃ rest, join separator (texts ++ more) = join separator texts ++ rest := by
  induction texts with
  | nil => exact ⟨_, rfl⟩
  | cons field others ih =>
    obtain ⟨rest, hrest⟩ := ih
    cases others with
    | nil =>
      cases more with
      | nil => exact ⟨[], by simp [join]⟩
      | cons next more => exact ⟨separator :: join separator (next :: more), rfl⟩
    | cons next others =>
      refine ⟨rest, ?_⟩
      simp only [List.cons_append, join] at hrest ⊢
      rw [hrest, List.append_assoc, List.cons_append]

theorem join_ne_nil {field : List Char} (h : field ≠ []) (others : List (List Char)) :
    join separator (field :: others) ≠ [] := by
  obtain ⟨rest, hrest⟩ := join_append separator [field] others
  simp only [List.singleton_append] at hrest
  simp [hrest, join, h]

theorem join_concat {texts : List (List Char)} (hne : texts ≠ []) (field : List Char) :
    join separator (texts ++ [field]) = join separator texts ++ separator :: field := by
  induction texts with
  | nil => exact absurd rfl hne
  | cons first others ih =>
    cases others with
    | nil => rfl
    | cons next others =>
      have hothers := ih (List.cons_ne_nil next others)
      simp only [List.cons_append, join] at hothers ⊢
      rw [hothers, List.append_assoc, List.cons_append]

theorem getLast?_join {texts : List (List Char)} (h : ∀ field ∈ texts, separator ∉ field)
    (hfull : ∀ field ∈ texts, field ≠ []) : (join separator texts).getLast? ≠ some separator := by
  induction texts with
  | nil => simp [join]
  | cons field others ih =>
    cases others with
    | nil =>
      intro hlast
      exact h field List.mem_cons_self (List.mem_of_getLast? hlast)
    | cons next others =>
      have hothers := ih (fun f hf => h f (List.mem_cons_of_mem _ hf))
        fun f hf => hfull f (List.mem_cons_of_mem _ hf)
      have hne : join separator (next :: others) ≠ [] := join_ne_nil (hfull next (by simp)) others
      simpa [join, List.getLast?_append, List.getLast?_cons, List.getLast?_eq_some_getLast hne]
        using hothers

end Text

/-! ## Proper names -/

namespace Path

/-- Names that are not empty and hold no slash. -/
def Proper (names : List String) : Prop := ∀ name ∈ names, name ≠ "" ∧ '/' ∉ name.toList

variable {names : List String}

theorem Proper.of_append {more : List String} (h : Proper (names ++ more)) : Proper names :=
  fun name hname => h name (List.mem_append_left _ hname)

/-- A name that leads from a directory to an object in it. -/
def Inward (name : String) : Prop := name ≠ "" ∧ name ≠ "." ∧ name ≠ ".."

/-- A name is blank, leads up or leads to an object. -/
theorem blank_or_up_or_inward (name : String) :
    (name = "" ∨ name = ".") ∨ name = ".." ∨ Inward name := by
  by_cases hblank : name = "" ∨ name = "."
  · exact .inl hblank
  · obtain ⟨hfull, hdot⟩ := not_or.1 hblank
    by_cases hup : name = ".."
    · exact .inr (.inl hup)
    · exact .inr (.inr ⟨hfull, hdot, hup⟩)

theorem proper_push {absolute : Bool} {name : String} (h : Proper names)
    (hname : '/' ∉ name.toList) : Proper (push absolute names name) := by
  unfold push
  split
  · exact h
  · next hdot =>
    have hfull : name ≠ "" := fun hempty => hdot (.inl hempty)
    split
    · have hup : Proper [".."] := by
        intro n hn
        rw [List.mem_singleton.1 hn]
        decide
      cases names with
      | nil =>
        simp only
        split
        · exact h
        · exact hup
      | cons top below =>
        simp only
        split
        · intro n hn
          rcases List.mem_cons.1 hn with rfl | hn
          · exact hup _ List.mem_cons_self
          · exact h n hn
        · exact fun n hn => h n (List.mem_cons_of_mem _ hn)
    · intro n hn
      rcases List.mem_cons.1 hn with rfl | hn
      · exact ⟨hfull, hname⟩
      · exact h n hn

theorem proper_foldl_push {absolute : Bool} (added : List String)
    (hadded : ∀ name ∈ added, '/' ∉ name.toList) {stack : List String} (h : Proper stack) :
    Proper (added.foldl (push absolute) stack) := by
  induction added generalizing stack with
  | nil => exact h
  | cons name rest ih =>
    have hpush : Proper (push absolute stack name) := proper_push h (hadded name List.mem_cons_self)
    exact ih (fun n hn => hadded n (List.mem_cons_of_mem _ hn)) hpush

theorem proper_normalise (text : String) : Proper (normalise text).names := by
  intro name hname
  have hstack : Proper ((namesOf text).foldl (push (leadingSlashes text.toList ≠ 0)) []) := by
    refine proper_foldl_push _ ?_ (by simp [Proper])
    intro n hn
    simp only [namesOf, List.mem_map] at hn
    obtain ⟨field, hfield, rfl⟩ := hn
    rw [String.toList_ofList]
    exact Text.mem_fields hfield
  exact hstack name (List.mem_reverse.1 hname)

/-! ## Spelling -/

variable {slashes : Nat}

theorem toList_spell (slashes : Nat) (names : List String) :
    (spell slashes names).toList =
      List.replicate slashes '/' ++ Text.join '/' (names.map String.toList) := by
  rw [spell, String.toList_ofList]

theorem spell_append (slashes : Nat) (names more : List String) :
    ∃ rest, (spell slashes (names ++ more)).toList = (spell slashes names).toList ++ rest := by
  obtain ⟨rest, hrest⟩ := Text.join_append '/' (names.map String.toList) (more.map String.toList)
  exact ⟨rest, by rw [toList_spell, toList_spell, List.map_append, hrest, List.append_assoc]⟩

theorem isAbsolute_spell (h : slashes ≠ 0) (names : List String) :
    isAbsolute (spell slashes names) = true := by
  obtain ⟨k, rfl⟩ := Nat.exists_eq_succ_of_ne_zero h
  simp [isAbsolute, toList_spell, List.replicate_succ]

theorem fields_replicate (slashes : Nat) (text : List Char) :
    Text.fields '/' (List.replicate slashes '/' ++ text) =
      List.replicate slashes [] ++ Text.fields '/' text := by
  induction slashes with
  | zero => rfl
  | succ k ih => simp [List.replicate_succ, Text.fields, ih]

theorem filter_namesOf_spell (h : Proper names) :
    (namesOf (spell slashes names)).filter (· ≠ "") = names := by
  have hblank : (List.replicate slashes ([] : List Char)).map String.ofList =
      List.replicate slashes "" := by simp
  rw [namesOf, toList_spell, fields_replicate, List.map_append, List.filter_append, hblank]
  have hleading : (List.replicate slashes "").filter (· ≠ "") = [] := by simp
  rw [hleading, List.nil_append]
  cases names with
  | nil => rfl
  | cons name rest =>
    rw [Text.fields_join (by simp)]
    · simp only [List.map_map, Function.comp_def, String.ofList_toList, List.map_id_fun', id]
      exact List.filter_eq_self.2 fun n hn => by simpa using (h n hn).1
    · intro field hfield
      obtain ⟨n, hn, rfl⟩ := List.mem_map.1 hfield
      exact (h n hn).2

/-- The text of some names does not end with a slash. -/
theorem getLast?_spell (hproper : Proper names) (hne : names ≠ []) :
    (spell slashes names).toList.getLast? ≠ some '/' := by
  have hjoin : (Text.join '/' (names.map String.toList)).getLast? ≠ some '/' := by
    refine Text.getLast?_join ?_ ?_
    · intro field hfield
      obtain ⟨n, hn, rfl⟩ := List.mem_map.1 hfield
      exact (hproper n hn).2
    · intro field hfield
      obtain ⟨n, hn, rfl⟩ := List.mem_map.1 hfield
      simpa using (hproper n hn).1
  rw [toList_spell]
  cases names with
  | nil => exact absurd rfl hne
  | cons name rest =>
    have hfull : Text.join '/' ((name :: rest).map String.toList) ≠ [] :=
      Text.join_ne_nil (by simpa using (hproper name List.mem_cons_self).1) _
    rw [List.getLast?_append]
    rw [List.getLast?_eq_some_getLast hfull] at hjoin ⊢
    exact hjoin

/-- The normal form of an absolute path is absolute. -/
theorem slashes_normalise {text : String} (h : isAbsolute text = true) :
    (normalise text).slashes ≠ 0 := by
  have hhead : text.toList.head? = some '/' := by simpa [isAbsolute] using h
  change leadingSlashes text.toList ≠ 0
  cases hchars : text.toList with
  | nil => simp [hchars] at hhead
  | cons c rest =>
    rw [hchars] at hhead
    cases hhead
    unfold leadingSlashes
    split
    · simp
    · simp
    · simp
    · next hnot => exact absurd rfl (hnot rest)

/-- An absolute path is seen the same from everywhere. -/
theorem resolve_of_isAbsolute {path : String} (h : isAbsolute path = true) (base : String) :
    resolve base path = normalise path := by
  rw [resolve, append, if_pos h]

/-! ## Normal forms -/

/-- A path that the normal form leaves as it is: absolute, of proper names, none of them a dot or two. -/
structure Canonical (path : Path) : Prop where
  slashes : path.slashes = 1 ∨ path.slashes = 2
  proper : Proper path.names
  plain : ∀ name ∈ path.names, name ≠ "." ∧ name ≠ ".."

theorem Canonical.ne_zero {path : Path} (h : Canonical path) : path.slashes ≠ 0 := by
  rcases h.slashes with hone | htwo
  · simp [hone]
  · simp [htwo]

theorem Canonical.text_eq {path : Path} (h : Canonical path) :
    path.text = spell path.slashes path.names := by
  rw [text, if_neg (by simp [h.ne_zero])]

theorem leadingSlashes_le (text : List Char) : leadingSlashes text ≤ 2 := by
  unfold leadingSlashes
  split <;> simp

/-- Up to two slashes before anything that starts otherwise all count. -/
theorem leadingSlashes_replicate (h : slashes ≤ 2) {text : List Char} (hhead : text.head? ≠ some '/') :
    leadingSlashes (List.replicate slashes '/' ++ text) = slashes := by
  cases text with
  | nil =>
    match slashes, h with
    | 0, _ => rfl
    | 1, _ => rfl
    | 2, _ => rfl
  | cons c rest =>
    have hc : c ≠ '/' := by simpa using hhead
    match slashes, h with
    | 0, _ => simp [leadingSlashes, hc]
    | 1, _ => simp [leadingSlashes, hc]
    | 2, _ => simp [leadingSlashes, List.replicate_succ, hc]

theorem head?_join (h : Proper names) : (Text.join '/' (names.map String.toList)).head? ≠ some '/' := by
  cases names with
  | nil => simp [Text.join]
  | cons name rest =>
    obtain ⟨hfull, hslash⟩ := h name List.mem_cons_self
    obtain ⟨more, hmore⟩ := Text.join_append '/' [name.toList] (rest.map String.toList)
    intro hhead
    rw [List.map_cons, ← List.singleton_append, hmore, Text.join] at hhead
    cases hchars : name.toList with
    | nil => exact hfull (by simpa using hchars)
    | cons c others =>
      rw [hchars] at hhead hslash
      cases hhead
      exact hslash List.mem_cons_self

theorem foldl_push_filter (absolute : Bool) (added stack : List String) :
    added.foldl (push absolute) stack = (added.filter (· ≠ "")).foldl (push absolute) stack := by
  induction added generalizing stack with
  | nil => rfl
  | cons name rest ih =>
    by_cases hname : name = ""
    · subst hname
      simpa [push] using ih stack
    · simpa [hname] using ih (push absolute stack name)

theorem foldl_push_of_plain (absolute : Bool) (h : Proper names)
    (hplain : ∀ name ∈ names, name ≠ "." ∧ name ≠ "..") (stack : List String) :
    names.foldl (push absolute) stack = names.reverse ++ stack := by
  induction names generalizing stack with
  | nil => rfl
  | cons name rest ih =>
    obtain ⟨hfull, -⟩ := h name List.mem_cons_self
    obtain ⟨hdot, hup⟩ := hplain name List.mem_cons_self
    have hpush : push absolute stack name = name :: stack := by
      simp [push, hfull, hdot, hup]
    rw [List.foldl_cons, hpush, ih (fun n hn => h n (List.mem_cons_of_mem _ hn))
      fun n hn => hplain n (List.mem_cons_of_mem _ hn)]
    simp

/-- The text of a canonical path has that path as its normal form. -/
theorem Canonical.normalise_text {path : Path} (h : Canonical path) : normalise path.text = path := by
  have hle : path.slashes ≤ 2 := by
    rcases h.slashes with hone | htwo <;> omega
  have hleading : leadingSlashes (spell path.slashes path.names).toList = path.slashes := by
    rw [toList_spell]
    exact leadingSlashes_replicate hle (head?_join h.proper)
  have hnames : (namesOf (spell path.slashes path.names)).foldl (push (path.slashes ≠ 0)) [] =
      path.names.reverse := by
    rw [foldl_push_filter, filter_namesOf_spell h.proper, foldl_push_of_plain _ h.proper h.plain,
      List.append_nil]
  rw [h.text_eq, normalise, hleading, hnames, List.reverse_reverse]

theorem isAbsolute_text {path : Path} (h : path.slashes ≠ 0) : isAbsolute path.text = true := by
  rw [text, if_neg (by simp [h])]
  exact isAbsolute_spell h path.names

theorem plain_push {stack : List String} {name : String}
    (h : ∀ n ∈ stack, n ≠ "." ∧ n ≠ "..") : ∀ n ∈ push true stack name, n ≠ "." ∧ n ≠ ".." := by
  unfold push
  split
  · exact h
  · next hdot =>
    split
    · cases stack with
      | nil => exact h
      | cons top below =>
        obtain ⟨-, hup⟩ := h top List.mem_cons_self
        simp only [if_neg hup]
        exact fun n hn => h n (List.mem_cons_of_mem _ hn)
    · next hup =>
      have hname : name ≠ "." := fun hsame => hdot (.inr hsame)
      exact List.forall_mem_cons.2 ⟨⟨hname, hup⟩, h⟩

/-- The normal form of an absolute path is canonical. -/
theorem canonical_normalise {text : String} (h : isAbsolute text = true) :
    Canonical (normalise text) := by
  have hslashes := slashes_normalise h
  refine ⟨?_, proper_normalise text, ?_⟩
  · have hle : (normalise text).slashes ≤ 2 := leadingSlashes_le text.toList
    omega
  · have habsolute : decide (leadingSlashes text.toList ≠ 0) = true := decide_eq_true hslashes
    have hfold : ∀ (added stack : List String), (∀ n ∈ stack, n ≠ "." ∧ n ≠ "..") →
        ∀ n ∈ added.foldl (push true) stack, n ≠ "." ∧ n ≠ ".." := by
      intro added
      induction added with
      | nil => exact fun stack hstack => hstack
      | cons name rest ih => exact fun stack hstack => ih _ (plain_push hstack)
    intro name hname
    rw [normalise, habsolute] at hname
    exact hfold _ [] (by simp) name (List.mem_reverse.1 hname)

/-- A path seen from an absolute directory is absolute. -/
theorem isAbsolute_append {base : String} (h : isAbsolute base = true) (path : String) :
    isAbsolute (append base path) = true := by
  have hbase : base.toList.head? = some '/' := by simpa [isAbsolute] using h
  have hstart : ∀ rest : String, isAbsolute (base ++ rest) = true := by
    intro rest
    simp [isAbsolute, List.head?_append, hbase]
  unfold append
  split
  · assumption
  · split
    · exact hstart path
    · rw [String.append_assoc]
      exact hstart _

theorem canonical_resolve {base : String} (h : isAbsolute base = true) (path : String) :
    Canonical (resolve base path) :=
  canonical_normalise (isAbsolute_append h path)

theorem not_isAbsolute_of_notMem {name : String} (h : '/' ∉ name.toList) : ¬isAbsolute name = true := by
  intro habsolute
  have hhead : name.toList.head? = some '/' := by simpa [isAbsolute] using habsolute
  exact h (List.mem_of_mem_head? hhead)

/-- Seen from a canonical path, a name stands after the names of the path. -/
theorem Canonical.append_text {path : Path} (h : Canonical path) {name : String}
    (hslash : '/' ∉ name.toList) :
    append path.text name = spell path.slashes (path.names ++ [name]) := by
  rw [h.text_eq, append, if_neg (not_isAbsolute_of_notMem hslash)]
  apply String.toList_injective
  by_cases hnames : path.names = []
  · have hlast : (spell path.slashes path.names).toList.getLast? = some '/' := by
      simp [hnames, toList_spell, Text.join, List.getLast?_replicate, h.ne_zero]
    rw [if_pos (.inr hlast)]
    simp [hnames, toList_spell, Text.join]
  · have hlast : (spell path.slashes path.names).toList.getLast? ≠ some '/' :=
      getLast?_spell h.proper hnames
    have htext : spell path.slashes path.names ≠ "" := by
      intro hempty
      have habsolute := isAbsolute_spell h.ne_zero path.names
      simp [hempty, isAbsolute] at habsolute
    rw [if_neg (not_or.2 ⟨htext, hlast⟩)]
    have hchars : path.names.map String.toList ≠ [] := mt List.map_eq_nil_iff.1 hnames
    simp [toList_spell, Text.join_concat hchars]

end Path

namespace FileTree

variable {slashes : Nat} {names : List String}

theorem steps_spell_nil (h : slashes ≠ 0) : steps (Path.spell slashes []) = [""] := by
  have hnames : (Path.namesOf (Path.spell slashes [])).filter (· ≠ "") = [] :=
    Path.filter_namesOf_spell (by simp [Path.Proper])
  obtain ⟨k, rfl⟩ := Nat.exists_eq_succ_of_ne_zero h
  have hlast : (Path.spell (k + 1) []).toList.getLast? = some '/' := by
    simp [Path.toList_spell, Text.join, List.getLast?_replicate]
  rw [steps, hnames, if_pos hlast, List.nil_append]

/-- A lookup follows the names that an absolute path spells. -/
theorem steps_spell (hproper : Path.Proper names) (hne : names ≠ []) :
    steps (Path.spell slashes names) = names := by
  have hnames : (Path.namesOf (Path.spell slashes names)).filter (· ≠ "") = names :=
    Path.filter_namesOf_spell hproper
  rw [steps, hnames, if_neg (Path.getLast?_spell hproper hne)]

end FileTree

end PipelineShell
