import PipelineShell.Proofs.FileTree.Growth
import PipelineShell.Proofs.FileTree.Steps

/-!
# Vacant paths

A path is vacant if it names a free place in a directory that exists. Opening it for writing makes
no directory, only the file (`Vacant.opens`), and reading it later gives what the file holds then
(`Vacant.read`). Nothing but an object at the place itself ends the vacancy (`Vacant.of_grown`).
-/

namespace PipelineShell.FileTree

variable {t t' : FileTree} {place start : Place} {path : String}

/-! ## Lookups of an object that has been made -/

/-- Where a lookup that had found `place` free ends in a tree where there may be a file or a directory
now. -/
inductive Ends (t : FileTree) (place : Place) : Spot → Prop
  | free (h : t.find? place = none) : Ends t place (.free place)
  | taken {content : Bytes} {mode : Nat} (h : t.find? place = some (.file content mode)) :
    Ends t place (.taken place)
  | entered (h : t.find? place = some .directory) : Ends t place (.taken place)

theorem walkWith_ends {aim : Aim} {spot : Spot}
    {jump jump' : Place → String → List String → Except SystemError Spot} (hgrown : Grown t t')
    (hends : t'.Ends place spot)
    (hjump : ∀ dir target rest, jump dir target rest = .ok (.free place) →
      jump' dir target rest = .ok spot)
    (dir : Place) (names : List String) (h : t.walkWith aim jump dir names = .ok (.free place)) :
    t'.walkWith .object jump' dir names = .ok spot := by
  fun_induction walkWith t aim jump dir names with
  | case1 => cases h
  | case2 dir rest ih =>
    rw [walkWith, if_pos rfl]
    exact ih h
  | case3 => cases h
  | case4 dir rest henters hempty ih =>
    rw [walkWith, if_neg hempty, grant_congr hgrown.grants, if_neg henters, if_pos rfl]
    exact ih h
  | case5 dir rest henters hempty hdot ih =>
    rw [walkWith, if_neg hempty, grant_congr hgrown.grants, if_neg henters, if_neg hdot, if_pos rfl]
    exact ih h
  | case6 => cases h
  | case7 => cases h
  | case8 dir name hempty henters hdot hup hlong hfind =>
    cases h
    rw [walkWith, if_neg hempty, grant_congr hgrown.grants, if_neg henters, if_neg hdot, if_neg hup,
      if_neg (by simp), if_neg hlong]
    cases hends with
    | free hnone => simp [hnone]
    | taken hfile => simp [hfile]
    | entered hdirectory => simp [hdirectory, walkWith]
  | case9 => cases h
  | case10 dir name rest hempty henters hdot hup _ hlong hfind ih =>
    have hshape := hgrown.shape (name :: dir) (by simp [hfind])
    rw [shape?_eq_directory_iff.2 hfind, shape?_eq_directory_iff] at hshape
    rw [walkWith, if_neg hempty, grant_congr hgrown.grants, if_neg henters, if_neg hdot, if_neg hup,
      if_neg (by simp), if_neg hlong, hshape]
    exact ih h
  | case11 => cases h
  | case12 => cases h
  | case13 => cases h
  | case14 dir name rest hempty henters hdot hup _ hlong target hfind =>
    have hshape := hgrown.shape (name :: dir) (by simp [hfind])
    rw [shape?_eq_link_iff.2 hfind, shape?_eq_link_iff] at hshape
    rw [walkWith, if_neg hempty, grant_congr hgrown.grants, if_neg henters, if_neg hdot, if_neg hup,
      if_neg (by simp), if_neg hlong, hshape]
    simp only [if_neg (by simp : ¬(rest = [] ∧ Aim.object = .name))]
    exact hjump dir target rest h

theorem walk_ends {aim : Aim} {spot : Spot} (hgrown : Grown t t') (hends : t'.Ends place spot)
    (links : Nat) (dir : Place) (names : List String)
    (h : t.walk aim links dir names = .ok (.free place)) :
    t'.walk .object links dir names = .ok spot := by
  induction links generalizing dir names with
  | zero => exact walkWith_ends hgrown hends (fun _ _ _ hjump => by cases hjump) dir names h
  | succ links ih =>
    refine walkWith_ends hgrown hends ?_ dir names h
    intro dir target rest hjump
    exact ih _ _ hjump

/-- A lookup that once found `place` free finds what was put there. -/
theorem locate_ends {aim : Aim} {spot : Spot} (hgrown : Grown t t') (hends : t'.Ends place spot)
    (h : t.locate aim start path = .ok (.free place)) : t'.locate .object start path = .ok spot := by
  unfold locate at h ⊢
  split at h
  · cases h
  · next hempty =>
    split at h
    · cases h
    · next hlong =>
      rw [if_neg hempty, if_neg hlong]
      exact walk_ends hgrown hends _ _ _ h

/-! ## Directories on the way -/

/-- There is a directory at a place and at all places above it. -/
def Standing (t : FileTree) (place : Place) : Prop :=
  ∀ p, p <:+ place → t.find? p = some .directory

theorem standing_root (t : FileTree) : t.Standing [] := by
  intro p hp
  rw [List.suffix_nil.1 hp]
  exact find?_root t

theorem Standing.cons {name : String} (h : t.Standing place)
    (hfind : t.find? (name :: place) = some .directory) : t.Standing (name :: place) := by
  intro p hp
  rcases List.suffix_cons_iff.1 hp with rfl | hp
  · exact hfind
  · exact h p hp

theorem Standing.tail (h : t.Standing place) : t.Standing place.tail :=
  fun p hp => h p (hp.trans (List.tail_suffix place))

theorem Standing.here (h : t.Standing place) : t.find? place = some .directory :=
  h place List.suffix_rfl

/-- A lookup that ends at `spot` comes, before it follows the names `more`, to the directory at
`found`. -/
structure Passes (t : FileTree) (aim : Aim) (more : List String) (spot : Spot) (found : Place) :
    Prop where
  standing : t.Standing found
  rest : ∃ links, t.walk aim links found more = .ok spot

/-- A lookup that goes on after some names has found a directory with these. -/
theorem walkWith_prefix {aim : Aim} {spot : Spot} {more : List String} (hmore : more ≠ [])
    {jump jump' : Place → String → List String → Except SystemError Spot}
    (hrest : ∀ dir, t.walkWith aim jump dir more = .ok spot →
      ∃ links, t.walk aim links dir more = .ok spot)
    (hjump : ∀ dir target rest, t.Standing dir → jump dir target (rest ++ more) = .ok spot →
      ∃ found, jump' dir target rest = .ok (.taken found) ∧ t.Passes aim more spot found)
    (dir : Place) (names : List String) (hstanding : t.Standing dir)
    (h : t.walkWith aim jump dir (names ++ more) = .ok spot) :
    ∃ found, t.walkWith .object jump' dir names = .ok (.taken found) ∧
      t.Passes aim more spot found := by
  induction names generalizing dir with
  | nil => exact ⟨dir, rfl, hstanding, hrest dir h⟩
  | cons name rest ih =>
    rw [List.cons_append, walkWith] at h
    rw [walkWith]
    by_cases hempty : name = ""
    · rw [if_pos hempty] at h ⊢
      exact ih dir hstanding h
    rw [if_neg hempty] at h ⊢
    by_cases henters : (t.grant dir).enters = false
    · rw [if_pos henters] at h
      cases h
    rw [if_neg henters] at h ⊢
    by_cases hdot : name = "."
    · rw [if_pos hdot] at h ⊢
      exact ih dir hstanding h
    rw [if_neg hdot] at h ⊢
    by_cases hup : name = ".."
    · rw [if_pos hup] at h ⊢
      exact ih dir.tail hstanding.tail h
    rw [if_neg hup] at h ⊢
    rw [if_neg (by simp)]
    split at h
    · cases h
    · by_cases hlong : (Text.encode name).length > maxName
      · rw [if_pos hlong] at h
        cases h
      · rw [if_neg hlong] at h ⊢
        have hrest : rest ++ more ≠ [] := by simp [hmore]
        cases hfind : t.find? (name :: dir) with
        | none => simp [hfind, hrest] at h
        | some entry =>
          cases entry with
          | directory =>
            rw [hfind] at h
            exact ih (name :: dir) (hstanding.cons hfind) h
          | file content mode => simp [hfind, hrest] at h
          | link target =>
            simp only [hfind, hrest, false_and, if_false] at h
            simp only [reduceCtorEq, and_false, if_false]
            exact hjump dir target rest hstanding h

theorem walk_prefix {aim : Aim} {spot : Spot} {more : List String} (hmore : more ≠ []) (links : Nat)
    (dir : Place) (names : List String) (hstanding : t.Standing dir)
    (h : t.walk aim links dir (names ++ more) = .ok spot) :
    ∃ found, t.walk .object links dir names = .ok (.taken found) ∧
      t.Passes aim more spot found := by
  induction links generalizing dir names with
  | zero =>
    apply walkWith_prefix hmore (fun dir hdir => ⟨0, hdir⟩) ?_ dir names hstanding h
    exact fun _ _ _ _ hjump => by cases hjump
  | succ links ih =>
    apply walkWith_prefix hmore (fun dir hdir => ⟨links + 1, hdir⟩) ?_ dir names hstanding h
    intro dir target rest hdir hjump
    rw [← List.append_assoc] at hjump
    apply ih _ _ ?_ hjump
    unfold origin
    split
    · exact standing_root t
    · exact hdir

/-! ## Directories that need not be made -/

variable {slashes : Nat} {names more : List String}

/-- A lookup of a longer path passes the directory at the shorter one. -/
theorem directory?_spell {aim : Aim} {spot : Spot} (hslashes : slashes ≠ 0)
    (hproper : Path.Proper (names ++ more)) (hmore : more ≠ [])
    (hnul : hasNul (Path.spell slashes (names ++ more)) = false)
    (h : t.locate aim start (Path.spell slashes (names ++ more)) = .ok spot) :
    ∃ found, t.directory? start (Path.spell slashes names) = some found ∧
      t.Passes aim more spot found := by
  obtain ⟨rest, hrest⟩ := Path.spell_append slashes names more
  have hnul' : hasNul (Path.spell slashes names) = false := by
    simp only [hasNul, hrest, List.contains_append, Bool.or_eq_false_iff] at hnul
    exact hnul.1
  have hlong := length_le_of_locate h
  have hshort : (Text.encode (Path.spell slashes names)).length ≤ maxPath := by
    simp only [Text.encode, hrest, List.flatMap_append, List.length_append] at hlong ⊢
    omega
  rw [locate_spell hslashes hproper hlong] at h
  obtain ⟨found, hfound, hpasses⟩ := walk_prefix hmore maxLinks [] names (standing_root t) h
  have hlocate : t.locate .object start (Path.spell slashes names) = .ok (.taken found) := by
    rw [locate_spell hslashes hproper.of_append hshort, hfound]
  have hstatus := status_eq_ok_iff.2 ⟨hlocate, hpasses.standing.here⟩
  exact ⟨found, directory?_eq_some_iff.2 ⟨hnul', hstatus⟩, hpasses⟩

theorem ensureDirectory_of_directory? (h : t.directory? start path = some place) :
    t.ensureDirectory start path = (t, .ok ()) := by
  have hnul : hasNul path = false := (directory?_eq_some_iff.1 h).1
  have hsome : (t.directory? start path).isSome := by simp [h]
  rw [ensureDirectory_eq, if_neg (by simp [hnul])]
  split
  · next place hfree =>
    -- the name of a directory is not free
    have hobject := locate_ends (.refl t) (.free (find?_of_free hfree)) hfree
    simp [directory?, status, hobject] at h
  · rw [if_pos hsome]
  · rw [if_pos hsome]

/-- Where a lookup passes through some names, their directories need not be made. -/
theorem ensureDirectories_of_locate {aim : Aim} {spot : Spot} (hslashes : slashes ≠ 0)
    (hproper : Path.Proper (names ++ more)) (hmore : more ≠ [])
    (hnul : hasNul (Path.spell slashes (names ++ more)) = false)
    (h : t.locate aim start (Path.spell slashes (names ++ more)) = .ok spot) :
    t.nesting start slashes names.reverse = 0 ∧
      t.ensureDirectories start slashes names.reverse = (t, .ok ()) := by
  obtain ⟨last, hdirectory, -⟩ := directory?_spell hslashes hproper hmore hnul h
  have hlast := ensureDirectory_of_directory? hdirectory
  cases hnames : names.reverse with
  | nil =>
    have hnil : names = [] := List.reverse_eq_nil_iff.1 hnames
    subst hnil
    exact ⟨rfl, hlast⟩
  | cons name above =>
    have hsplit : names = above.reverse ++ [name] := by
      rw [← List.reverse_reverse names, hnames, List.reverse_cons]
    have habove : t.pathExists start (Path.spell slashes above.reverse) = true := by
      subst hsplit
      rw [List.append_assoc] at hproper hnul h
      obtain ⟨found, hfound, -⟩ := directory?_spell hslashes hproper (by simp) hnul h
      obtain ⟨hnul', hstatus⟩ := directory?_eq_some_iff.1 hfound
      simp [pathExists, hnul', hstatus, Except.isOk, Except.toBool]
    refine ⟨?_, ?_⟩
    · rw [nesting, if_pos (.inr habove)]
    · rw [ensureDirectories, if_pos (.inr habove), ← hnames, List.reverse_reverse]
      exact hlast

/-- Where a lookup of an absolute path comes to an end, no directories need to be made for it. -/
theorem ensureParents_of_locate {aim : Aim} {spot : Spot} {path : Path} (hslashes : path.slashes ≠ 0)
    (hproper : Path.Proper path.names) (hnul : hasNul path.text = false)
    (h : t.locate aim start path.text = .ok spot) (limit : Nat) :
    t.ensureParents limit start path = (t, .ok ()) := by
  have htext : path.text = Path.spell path.slashes path.names := by
    rw [Path.text, if_neg (by simp [hslashes])]
  rw [htext] at hnul h
  have hparents : t.nesting start path.slashes path.names.reverse.tail = 0 ∧
      t.ensureDirectories start path.slashes path.names.reverse.tail = (t, .ok ()) := by
    rcases List.eq_nil_or_concat path.names with hnames | ⟨dirs, name, hnames⟩
    · -- the root is there
      have hshort := length_le_of_locate h
      rw [hnames] at hshort
      have hroot : t.locate .object start (Path.spell path.slashes []) = .ok (.taken []) := by
        rw [locate_spell hslashes (by simp [Path.Proper]) hshort, walk_nil]
      have hdirectory : t.directory? start (Path.spell path.slashes []) = some [] :=
        directory?_eq_some_iff.2 ⟨hnames ▸ hnul, status_eq_ok_iff.2 ⟨hroot, find?_root t⟩⟩
      rw [hnames]
      exact ⟨rfl, ensureDirectory_of_directory? hdirectory⟩
    · rw [List.concat_eq_append] at hnames
      rw [hnames] at hproper hnul h
      have hdirs : path.names.reverse.tail = dirs.reverse := by simp [hnames]
      rw [hdirs]
      exact ensureDirectories_of_locate hslashes hproper (List.cons_ne_nil name []) hnul h
  obtain ⟨hnesting, hnone⟩ := hparents
  simp only [ensureParents, hnesting, Nat.not_lt_zero, if_false, hnone]

/-! ## Vacant paths -/

/-- An absolute path of a file that may be made at `place`: nothing is there, but the directory
is. -/
structure Vacant (t : FileTree) (path : Path) (place : Place) : Prop where
  absolute : path.slashes ≠ 0
  proper : Path.Proper path.names
  free : t.locate .newFile [] path.text = .ok (.free place)

namespace Vacant

variable {path : Path}

theorem text_eq (h : t.Vacant path place) : path.text = Path.spell path.slashes path.names := by
  rw [Path.text, if_neg (by simp [h.absolute])]

theorem locate_eq (h : t.Vacant path place) (aim : Aim) (start : Place) :
    t'.locate aim start path.text = t'.locate aim [] path.text := by
  refine locate_of_isAbsolute ?_ start []
  rw [h.text_eq]
  exact Path.isAbsolute_spell h.absolute path.names

theorem find?_eq (h : t.Vacant path place) : t.find? place = none := find?_of_free h.free

theorem of_grown (h : t.Vacant path place) (hgrown : Grown t t') (hnone : t'.find? place = none) :
    t'.Vacant path place :=
  ⟨h.absolute, h.proper, hgrown.locate_free h.free hnone⟩

/-- Opening a vacant path makes the file and nothing else. -/
theorem opens (h : t.Vacant path place) {limit : Nat} {appends : Bool} {made made' : FileTree}
    {handle : Handle} (hparents : t.ensureParents limit start path = (made, .ok ()))
    (hopen : made.openFile start path.text appends = .ok (made', handle)) :
    hasNul path.text = false ∧ made' = t.insert place (.file [] newFileMode) ∧
      handle = ⟨place, appends, 0⟩ := by
  have hnul : hasNul path.text = false := by
    cases hnul : hasNul path.text with
    | false => rfl
    | true => simp [openFile, hnul] at hopen
  have hmade : made = t := by
    have hfree := (h.locate_eq .newFile start).trans h.free
    rw [ensureParents_of_locate h.absolute h.proper hnul hfree] at hparents
    cases hparents
    rfl
  subst hmade
  have hfree := (h.locate_eq .newFile start).trans h.free
  simp only [openFile, hnul, Bool.false_eq_true, if_false, hfree] at hopen
  split at hopen
  · cases hopen
  · cases hopen
    exact ⟨hnul, rfl, rfl⟩

/-- Once there is a file that may be read, reading the path gives what it holds. -/
theorem read (h : t.Vacant path place) (hgrown : Grown t t') {content : Bytes} {mode : Nat}
    (hreads : (t'.grant place).reads = true) (hfile : t'.find? place = some (.file content mode))
    (hnul : hasNul path.text = false)
    (start : Place) : t'.read start path.text = .ok content := by
  have hlocate := locate_ends hgrown (.taken hfile) h.free
  have hstatus := status_eq_ok_iff.2 ⟨(h.locate_eq .object start).trans hlocate, hfile⟩
  rw [FileTree.read, if_neg (by simp [hnul]), hstatus]
  simp only [hreads, Bool.true_eq_false, if_false]

end Vacant

end PipelineShell.FileTree
