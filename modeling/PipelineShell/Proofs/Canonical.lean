import PipelineShell.Proofs.Deeds
import PipelineShell.Proofs.Path
import PipelineShell.Proofs.Small

/-!
# Paths seen from a directory

A path seen from an absolute directory has a canonical text (`CanonicalText`): one or two slashes, then
names with one slash between each two, none of them a dot or two. Such a text is seen the same from
everywhere. Joining paths is associative (`append_assoc`), and what a relative path leads to depends on
the normal form of the directory only (`normalise_append`), so seeing one path from where another one
leads is seeing the two joined (`resolve_resolve`). The `cd`s of a session add up in the same way
(`directory_of_cds`).
-/

namespace PipelineShell

/-! ## Fields of texts put together -/

theorem Text.fields_append_separator (separator : Char) (a b : List Char) :
    fields separator (a ++ separator :: b) = fields separator a ++ fields separator b := by
  induction a with
  | nil => simp [fields]
  | cons c rest ih =>
    obtain ⟨field, others, hfields⟩ := List.exists_cons_of_ne_nil (fields_ne_nil separator rest)
    rw [List.cons_append]
    simp only [fields, ih, hfields, List.cons_append]
    split <;> rfl

namespace Path

variable {base path text : String}

/-! ## Leading slashes -/

/-- How many slashes a text starts with. -/
def slashRun (text : List Char) : Nat := (text.takeWhile (· = '/')).length

theorem slashRun_replicate (n : Nat) {rest : List Char} (h : rest.head? ≠ some '/') :
    slashRun (List.replicate n '/' ++ rest) = n := by
  induction n with
  | zero =>
    cases rest with
    | nil => rfl
    | cons c rest =>
      have hc : c ≠ '/' := by simpa using h
      simp [slashRun, hc]
  | succ n ih => simpa [slashRun, List.replicate_succ] using ih

theorem dropWhile_replicate (n : Nat) {rest : List Char} (h : rest.head? ≠ some '/') :
    (List.replicate n '/' ++ rest).dropWhile (· = '/') = rest := by
  induction n with
  | zero =>
    cases rest with
    | nil => rfl
    | cons c rest =>
      have hc : c ≠ '/' := by simpa using h
      simp [hc]
  | succ n ih => simpa [List.replicate_succ] using ih

theorem exists_slashes (text : List Char) :
    ∃ n rest, text = List.replicate n '/' ++ rest ∧ rest.head? ≠ some '/' := by
  induction text with
  | nil => exact ⟨0, [], rfl, by simp⟩
  | cons c rest ih =>
    by_cases hc : c = '/'
    · obtain ⟨n, rest, rfl, hrest⟩ := ih
      exact ⟨n + 1, rest, by rw [hc]; rfl, hrest⟩
    · exact ⟨0, c :: rest, rfl, by simpa using hc⟩

/-- Two leading slashes are kept, any other number of them counts as one. -/
theorem leadingSlashes_eq (text : List Char) :
    leadingSlashes text = if slashRun text = 2 then 2 else min (slashRun text) 1 := by
  obtain ⟨n, rest, rfl, hrest⟩ := exists_slashes text
  rw [slashRun_replicate n hrest]
  match n with
  | 0 => exact leadingSlashes_replicate (by omega) hrest
  | 1 => exact leadingSlashes_replicate (by omega) hrest
  | 2 => exact leadingSlashes_replicate (by omega) hrest
  | n + 3 => simp [List.replicate_succ, leadingSlashes]

/-- What comes after a text that ends in a name, or starts with a name, adds no leading slash. -/
theorem leadingSlashes_append {text rest : List Char}
    (h : (text ≠ [] ∧ text.getLast? ≠ some '/') ∨ rest.head? ≠ some '/') :
    leadingSlashes (text ++ rest) = leadingSlashes text := by
  have hrun : slashRun (text ++ rest) = slashRun text := by
    obtain ⟨n, more, rfl, hmore⟩ := exists_slashes text
    rw [slashRun_replicate n hmore, List.append_assoc]
    apply slashRun_replicate
    cases more with
    | cons c more => exact hmore
    | nil =>
      rcases h with ⟨hne, hlast⟩ | hrest
      · have hn : n ≠ 0 := by
          rintro rfl
          exact hne rfl
        simp [List.getLast?_replicate, hn] at hlast
      · exact hrest
  rw [leadingSlashes_eq, leadingSlashes_eq, hrun]

/-! ## Joining -/

/-- The text of a directory, ready for a relative path. -/
def opened (base : String) : String :=
  if base = "" ∨ base.toList.getLast? = some '/' then base else base ++ "/"

theorem append_eq (base path : String) :
    append base path = if isAbsolute path then path else opened base ++ path := by
  unfold append opened
  split
  · rfl
  · split <;> rfl

theorem isAbsolute_opened (h : base ≠ "") (path : String) :
    isAbsolute (opened base ++ path) = isAbsolute base := by
  have hchars : base.toList ≠ [] := by simpa using h
  obtain ⟨c, rest, hbase⟩ := List.exists_cons_of_ne_nil hchars
  unfold opened
  split <;> simp [isAbsolute, hbase]

/-- A text that is open stays so. -/
theorem opened_append (base path : String) :
    opened (opened base ++ path) = opened base ++ opened path := by
  by_cases hpath : path = ""
  · subst hpath
    have hopened : opened base = "" ∨ (opened base).toList.getLast? = some '/' := by
      unfold opened
      split
      · assumption
      · exact .inr (by simp)
    have hempty : opened "" = "" := rfl
    rw [String.append_empty, hempty, String.append_empty, opened, if_pos hopened]
  · have hchars : path.toList ≠ [] := by simpa using hpath
    have hlast : (opened base ++ path).toList.getLast? = path.toList.getLast? := by
      rw [String.toList_append, List.getLast?_append_of_ne_nil _ hchars]
    have hfull : opened base ++ path ≠ "" := by
      intro hempty
      have hnil := congrArg String.toList hempty
      simp [hchars] at hnil
    rw [opened, hlast]
    conv => rhs; rw [opened.eq_def path]
    simp only [hfull, hpath, false_or]
    split
    · rfl
    · rw [String.append_assoc]

/-- Joining paths is associative. -/
theorem append_assoc (base a b : String) : append (append base a) b = append base (append a b) := by
  by_cases hb : isAbsolute b = true
  · simp only [append_eq, if_pos hb]
  by_cases ha : isAbsolute a = true
  · have hab := isAbsolute_append ha b
    rw [append_eq base a, if_pos ha, append_eq base, if_pos hab]
  have hab : ¬isAbsolute (opened a ++ b) = true := by
    by_cases hempty : a = ""
    · have hopened : opened a ++ b = b := by simp [hempty, opened]
      rwa [hopened]
    · rwa [isAbsolute_opened hempty]
  simp only [append_eq, if_neg ha, if_neg hb, if_neg hab, opened_append, String.append_assoc]

/-! ## Normal forms of joined paths -/

/-- The names of a relative path stand after those of the directory. -/
theorem filter_namesOf_append (hbase : base ≠ "") (hpath : ¬isAbsolute path = true) :
    (namesOf (append base path)).filter (· ≠ "") =
      (namesOf base).filter (· ≠ "") ++ (namesOf path).filter (· ≠ "") := by
  rw [append_eq, if_neg hpath, opened]
  by_cases hlast : base.toList.getLast? = some '/'
  · -- the slash at the end makes an empty name
    obtain ⟨start, hstart⟩ := List.getLast?_eq_some_iff.1 hlast
    rw [if_pos (.inr hlast)]
    simp [namesOf, hstart, Text.fields_append_separator, Text.fields]
  · rw [if_neg (not_or.2 ⟨hbase, hlast⟩)]
    simp [namesOf, Text.fields_append_separator]

theorem ne_empty_of_isAbsolute (h : isAbsolute text = true) : text ≠ "" := by
  rintro rfl
  cases h

/-- What a relative path leads to depends on the normal form of the directory only. -/
theorem normalise_append (hbase : isAbsolute base = true) (hpath : ¬isAbsolute path = true) :
    normalise (append base path) =
      ⟨(normalise base).slashes,
        ((namesOf path).foldl (push true) (normalise base).names.reverse).reverse⟩ := by
  have hfull := ne_empty_of_isAbsolute hbase
  have hslashes : leadingSlashes (append base path).toList = leadingSlashes base.toList := by
    have hhead : path.toList.head? ≠ some '/' := by simpa [isAbsolute] using hpath
    rw [append_eq, if_neg hpath, opened]
    split
    · rw [String.toList_append]
      exact leadingSlashes_append (.inr hhead)
    · next hopen =>
      obtain ⟨-, hlast⟩ := not_or.1 hopen
      rw [String.append_assoc, String.toList_append]
      exact leadingSlashes_append (.inl ⟨by simpa using hfull, hlast⟩)
  have habsolute : decide (leadingSlashes base.toList ≠ 0) = true :=
    decide_eq_true (slashes_normalise hbase)
  have hnames : (namesOf (append base path)).foldl (push true) [] =
      (namesOf path).foldl (push true) ((namesOf base).foldl (push true) []) := by
    rw [foldl_push_filter, filter_namesOf_append hfull hpath, List.foldl_append, ← foldl_push_filter,
      ← foldl_push_filter]
  simp only [normalise, hslashes, habsolute, hnames, List.reverse_reverse]

/-- To see one path from where another one leads is to see the two joined. -/
theorem resolve_resolve (hbase : isAbsolute base = true) (a b : String) :
    resolve (resolve base a).text b = resolve base (append a b) := by
  by_cases hb : isAbsolute b = true
  · have hab : append a b = b := by rw [append_eq, if_pos hb]
    rw [hab, resolve_of_isAbsolute hb, resolve_of_isAbsolute hb]
  · have hcanonical := canonical_resolve hbase a
    have habsolute := isAbsolute_text hcanonical.ne_zero
    have hjoined := isAbsolute_append hbase a
    have hsame : normalise (resolve base a).text = normalise (append base a) :=
      hcanonical.normalise_text
    calc resolve (resolve base a).text b
        = ⟨(normalise (append base a)).slashes,
            ((namesOf b).foldl (push true) (normalise (append base a)).names.reverse).reverse⟩ := by
          rw [resolve, normalise_append habsolute hb, hsame]
      _ = normalise (append (append base a) b) := (normalise_append hjoined hb).symm
      _ = resolve base (append a b) := by rw [append_assoc, resolve]

/-! ## Canonical texts -/

/-- The text of an absolute path in canonical form. -/
structure CanonicalText (text : String) : Prop where
  slashes : slashRun text.toList = 1 ∨ slashRun text.toList = 2
  /-- After the leading slashes there is nothing, or names with a slash between each two. -/
  names : let rest := text.toList.dropWhile (· = '/')
    rest = [] ∨ ∀ name ∈ Text.fields '/' rest, name ≠ [] ∧ name ≠ ['.'] ∧ name ≠ ['.', '.']
  /-- Only a text of slashes ends with one. -/
  last : text.toList.getLast? = some '/' → ∀ c ∈ text.toList, c = '/'

theorem Canonical.canonicalText {path : Path} (h : Canonical path) : CanonicalText path.text := by
  have hhead := head?_join h.proper
  have hchars : path.text.toList =
      List.replicate path.slashes '/' ++ Text.join '/' (path.names.map String.toList) := by
    rw [h.text_eq, toList_spell]
  constructor
  case slashes =>
    rw [hchars, slashRun_replicate _ hhead]
    exact h.slashes
  case names =>
    simp only
    rw [hchars, dropWhile_replicate _ hhead]
    cases hnames : path.names with
    | nil => exact .inl rfl
    | cons first others =>
      right
      rw [← hnames, Text.fields_join (by simp [hnames])]
      · intro name hname
        obtain ⟨n, hn, rfl⟩ := List.mem_map.1 hname
        obtain ⟨hfull, -⟩ := h.proper n hn
        obtain ⟨hdot, hup⟩ := h.plain n hn
        refine ⟨by simpa using hfull, ?_, ?_⟩
        · exact fun hsame => hdot (String.toList_injective hsame)
        · exact fun hsame => hup (String.toList_injective hsame)
      · intro field hfield
        obtain ⟨n, hn, rfl⟩ := List.mem_map.1 hfield
        exact (h.proper n hn).2
  case last =>
    intro hlast
    by_cases hnames : path.names = []
    · intro c hc
      rw [hchars, hnames, List.map_nil, Text.join, List.append_nil] at hc
      exact List.eq_of_mem_replicate hc
    · rw [h.text_eq] at hlast
      exact absurd hlast (getLast?_spell h.proper hnames)

/-- Some paths joined from left to right. -/
def joined : List String → String
  | [] => ""
  | first :: rest => rest.foldl append first

theorem joined_cons (first second : String) (rest : List String) :
    joined (first :: second :: rest) = append first (joined (second :: rest)) := by
  have hjoined : ∀ (paths : List String) (second : String),
      paths.foldl append (append first second) = append first (paths.foldl append second) := by
    intro paths
    induction paths with
    | nil => exact fun _ => rfl
    | cons path paths ih =>
      intro second
      rw [List.foldl_cons, List.foldl_cons, append_assoc, ih]
  exact hjoined rest second

end Path

namespace Session

open PipelineShell.Path (CanonicalText joined)

variable {host : Host} {s s' : Session} {arg : String} {args : List String}

/-! ## Sequences of `cd` -/

/-- The session after a `cd` to each of some arguments, all of which succeed. -/
inductive Cds (host : Host) : Session → List String → Session → Prop
  | done (s : Session) : Cds host s [] s
  | step {s s' : Session} {arg : String} {args : List String}
    (hmoved : (s.perform host .cd [arg]).2.ending = .ok 0)
    (hrest : Cds host (s.perform host .cd [arg]).1 args s') : Cds host s (arg :: args) s'

theorem expandHome_congr (h : s'.environment = s.environment) (path : String) :
    s'.expandHome path = s.expandHome path := by
  unfold expandHome home
  rw [h]

/-- A `cd` that succeeds leads to its argument. -/
theorem perform_cd_of_ok (h : (s.perform host .cd [arg]).2.ending = .ok 0) :
    (s.perform host .cd [arg]).1.directory = (s.resolvePath (s.expandHome arg)).text ∧
      (s.perform host .cd [arg]).1.environment = s.environment := by
  have hnoted := note_directory host s (.builtin Builtin.cd.name [arg])
  have henvironment := note_environment host s (.builtin Builtin.cd.name [arg])
  change ((s.note host (.builtin Builtin.cd.name [arg])).moveTo host [arg]).2.ending = .ok 0 at h
  change ((s.note host (.builtin Builtin.cd.name [arg])).moveTo host [arg]).1.directory = _ ∧
    ((s.note host (.builtin Builtin.cd.name [arg])).moveTo host [arg]).1.environment = _
  generalize s.note host (.builtin Builtin.cd.name [arg]) = noted at h hnoted henvironment ⊢
  rw [← expandHome_congr henvironment]
  rw [moveTo_eq host noted (show [arg].length ≤ 1 from Nat.le_refl 1), moveTarget] at h ⊢
  unfold enter at h ⊢
  split at h
  · cases h
  · next hfull =>
    rw [if_neg hfull]
    obtain ⟨e, hstays⟩ | ⟨place, -, hmoved⟩ := changeDirectory_cases host noted (noted.expandHome arg)
    · rw [hstays] at h
      cases h
    · rw [hmoved]
      simp [resolvePath, hnoted, henvironment]

/-- The `cd`s of a session lead to where the joined arguments lead. -/
theorem directory_of_cds (habsolute : Path.isAbsolute s.directory = true) (h : Cds host s args s')
    (hargs : args ≠ []) :
    s'.directory = (s.resolvePath (joined (args.map s.expandHome))).text := by
  induction h with
  | done => exact absurd rfl hargs
  | @step s s' arg args hmoved hrest ih =>
    obtain ⟨hdirectory, henvironment⟩ := perform_cd_of_ok hmoved
    have hcanonical := Path.canonical_resolve habsolute (s.expandHome arg)
    cases args with
    | nil =>
      cases hrest
      exact hdirectory
    | cons next others =>
      have hthere : Path.isAbsolute (s.perform host .cd [arg]).1.directory = true := by
        rw [hdirectory]
        exact Path.isAbsolute_text hcanonical.ne_zero
      have hhome : (next :: others).map (s.perform host .cd [arg]).1.expandHome =
          (next :: others).map s.expandHome :=
        List.map_congr_left fun path _ => expandHome_congr henvironment path
      have hend := ih hthere (List.cons_ne_nil next others)
      rw [hhome, resolvePath, hdirectory, resolvePath, Path.resolve_resolve habsolute] at hend
      simp only [hend, List.map_cons, resolvePath, Path.joined_cons]

/-- Wherever a session is, `resolvePath` gives canonical texts, which it leaves as they are in every
session. To move to one path and then see another one from there is to see the two joined, and so the
`cd`s of a session lead to where their arguments lead if they are joined. -/
theorem resolvePath_canonical (s : Session) (habsolute : Path.isAbsolute s.directory = true) :
    (∀ path, CanonicalText (s.resolvePath path).text ∧
      ∀ u : Session, (u.resolvePath (s.resolvePath path).text).text = (s.resolvePath path).text) ∧
    (∀ a b, { s with directory := (s.resolvePath a).text }.resolvePath b =
      s.resolvePath (Path.append a b)) ∧
    ∀ (host : Host) (args : List String) (s' : Session), args ≠ [] → Cds host s args s' →
      s'.directory = (s.resolvePath (joined (args.map s.expandHome))).text := by
  refine ⟨?_, Path.resolve_resolve habsolute, ?_⟩
  case refine_2 => exact fun host args s' hargs h => directory_of_cds habsolute h hargs
  intro path
  have hcanonical : (s.resolvePath path).Canonical := Path.canonical_resolve habsolute path
  refine ⟨hcanonical.canonicalText, fun u => ?_⟩
  rw [resolvePath, Path.resolve_of_isAbsolute (Path.isAbsolute_text hcanonical.ne_zero),
    hcanonical.normalise_text]

/-- A session behind a link: a path that goes up beyond the root, and two `cd`s of which the second one
goes on from where the first one leads. -/
theorem resolvePath_canonical_linked :
    Path.isAbsolute Small.linked.directory = true ∧
    CanonicalText (Small.linked.resolvePath "../..//x/.").text ∧
    (Small.linked.resolvePath "../..//x/.").text = "/x" ∧
    ∃ s', Cds Small.movingHost Small.linked ["..", "d/./"] s' ∧ s'.directory = "/d" := by
  obtain ⟨htexts, -, hcds⟩ := resolvePath_canonical Small.linked rfl
  have hmoves : Cds Small.movingHost Small.linked ["..", "d/./"] _ :=
    .step (by decide +kernel) (.step (by decide +kernel) (.done _))
  have hend :
      (Small.linked.resolvePath (joined (["..", "d/./"].map Small.linked.expandHome))).text = "/d" := by
    decide +kernel
  refine ⟨rfl, (htexts "../..//x/.").1, by decide +kernel, _, hmoves, ?_⟩
  rw [hcds Small.movingHost _ _ (by simp) hmoves, hend]

end Session

end PipelineShell
