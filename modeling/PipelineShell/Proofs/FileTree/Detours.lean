import PipelineShell.Proofs.Cancelling
import PipelineShell.Proofs.FileTree.Vacancy

/-!
# Detours

A name and a later `..` that takes it away make a detour. The normal form of a path leaves all detours
out. A lookup that makes a detour through a directory comes back to where it was, with as many links
left as before, so it is as if it had not made it (`walk_append_normal`). Only a detour through a link
may lead elsewhere. If a path makes none of these, its normal form leads to where the path leads
(`locate_normalise`), and so does a name seen from it (`walk_append_followed_iff`).
-/

namespace PipelineShell.FileTree

open PipelineShell.Path (Inward Neutral)

variable {t : FileTree} {aim : Aim} {links : Nat} {dir found place start : Place} {name path : String}
  {names more : List String}

/-! ## Lookups put together -/

/-- A lookup that comes to a directory goes on from there with the links that are left. -/
theorem exists_walk_append (h : t.walk .object links dir names = .ok (.taken found))
    (hdirectory : t.find? found = some .directory) :
    ∃ left, ∀ aim more, aim = .object ∨ aim = .name ∧ more ≠ [] →
      t.walk aim links dir (names ++ more) = t.walk aim left found more := by
  induction links using Nat.strongRecOn generalizing dir names with
  | ind links ihlinks =>
    induction names generalizing dir with
    | nil =>
      rw [walk_nil] at h
      cases h
      exact ⟨links, fun _ _ _ => rfl⟩
    | cons name rest ih =>
      rcases Path.blank_or_up_or_inward name with hblank | rfl | hname
      · have hsame := walk_blank_of_ok hblank h
        rw [hsame] at h
        obtain ⟨left, hleft⟩ := ih h
        refine ⟨left, fun aim more haim => ?_⟩
        rw [List.cons_append, hsame, hleft aim more haim]
      · have hlooks := enters_of_ok (by decide) h
        rw [walk_up hlooks] at h
        obtain ⟨left, hleft⟩ := ih h
        refine ⟨left, fun aim more haim => ?_⟩
        rw [List.cons_append, walk_up hlooks, hleft aim more haim]
      · have hlooks := enters_of_ok hname.1 h
        obtain ⟨hlong, henters⟩ := enters_of_walk hname h
        cases henters with
        | directory hfind hrest =>
          obtain ⟨left, hleft⟩ := ih hrest
          refine ⟨left, fun aim more haim => ?_⟩
          have hnew : aim ≠ .newFile := by rcases haim with rfl | ⟨rfl, -⟩ <;> simp
          rw [List.cons_append, walk_inward hname hlooks (by simp [hnew]), if_neg (Nat.not_lt.2 hlong), hfind]
          exact hleft aim more haim
        | file hfind hplace =>
          rw [hplace, hfind] at hdirectory
          cases hdirectory
        | @link target left hfind hlinks hrest =>
          subst hlinks
          obtain ⟨left', hleft⟩ := ihlinks left (Nat.lt_succ_self left) hrest
          refine ⟨left', fun aim more haim => ?_⟩
          have hnew : aim ≠ .newFile := by rcases haim with rfl | ⟨rfl, -⟩ <;> simp
          have hfollowed : ¬(rest ++ more = [] ∧ aim = .name) := by
            rcases haim with rfl | ⟨rfl, hmore⟩
            · simp
            · simp [hmore]
          rw [List.cons_append, walk_inward hname hlooks (by simp [hnew]), if_neg (Nat.not_lt.2 hlong), hfind]
          simp only [if_neg hfollowed, follow]
          rw [← List.append_assoc]
          exact hleft aim more haim

/-! ## Detours through directories -/

/-- None of the names that a later `..` takes away is a link. -/
def KeepsLinksAmong (t : FileTree) (links : Nat) (names : List String) : Prop :=
  ∀ before name between after, names = before ++ name :: between ++ ".." :: after → Inward name →
    Neutral between → ∀ place target, t.walk .name links [] (before ++ [name]) = .ok (.taken place) →
      t.find? place ≠ some (.link target)

theorem KeepsLinksAmong.of_append (h : t.KeepsLinksAmong links (names ++ more)) :
    t.KeepsLinksAmong links names := by
  intro before name between after hnames
  exact h before name between (after ++ more) (by simp [hnames])

/-- A lookup that goes on after some names has come to a directory with these. -/
theorem exists_passed {spot : Spot} (hmore : more ≠ [])
    (h : t.walk aim links [] (names ++ more) = .ok spot) :
    ∃ found, t.walk .object links [] names = .ok (.taken found) ∧ t.Passes aim more spot found :=
  walk_prefix hmore links [] names (standing_root t) h

/-- Where a name leads to from a directory that a lookup has come to, if it is no link. -/
theorem directory_of_entered {before : List String} (hname : Inward name)
    (hbefore : t.walk .object links [] before = .ok (.taken dir)) (hdir : t.find? dir = some .directory)
    (hlink : ∀ place target, t.walk .name links [] (before ++ [name]) = .ok (.taken place) →
      t.find? place ≠ some (.link target))
    (h : t.walk .object links [] (before ++ [name]) = .ok (.taken found))
    (hfound : t.find? found = some .directory) :
    found = name :: dir ∧ (t.grant dir).enters = true ∧ (Text.encode name).length ≤ maxName := by
  obtain ⟨left, hleft⟩ := exists_walk_append hbefore hdir
  rw [hleft .object [name] (.inl rfl)] at h
  have hlooks := enters_of_ok hname.1 h
  obtain ⟨hlong, henters⟩ := enters_of_walk hname h
  cases henters with
  | directory hfind hrest =>
    rw [walk_nil] at hrest
    cases hrest
    exact ⟨rfl, hlooks, hlong⟩
  | file hfind hplace =>
    rw [hplace, hfind] at hfound
    cases hfound
  | link hfind _ _ =>
    -- the same lookup, with the link at its end not followed, ends at that link
    have hends : t.walk .name links [] (before ++ [name]) = .ok (.taken (name :: dir)) := by
      rw [hleft .name [name] (.inr ⟨rfl, by simp⟩), walk_inward hname hlooks (by simp),
        if_neg (Nat.not_lt.2 hlong), hfind]
      simp
    exact absurd hfind (hlink _ _ hends)

/-- The detour through a name can be made at once, if a lookup comes back to `..` after it by names that
cancel out. -/
theorem walk_append_detour {before between : List String} (hname : Inward name)
    (hbetween : Neutral between) (hlinks : t.KeepsLinksAmong links (before ++ name :: between ++ [".."]))
    (h : t.walk .object links [] (before ++ name :: between ++ [".."]) = .ok (.taken found))
    (more : List String) :
    t.walk .object links [] (before ++ name :: ".." :: more) =
      t.walk .object links [] (before ++ more) := by
  -- the lookup comes to a directory before the detour, and to one that the detour goes through
  have hbefore : t.walk .object links [] (before ++ (name :: between ++ [".."])) =
      .ok (.taken found) := by simpa using h
  have hthrough : t.walk .object links [] ((before ++ [name]) ++ (between ++ [".."])) =
      .ok (.taken found) := by simpa using h
  obtain ⟨dir, hdir, hstanding, -⟩ := exists_passed (by simp) hbefore
  obtain ⟨entered, hentered, hstanding', links', hback⟩ := exists_passed (by simp) hthrough
  have hlink := hlinks before name between [] rfl hname hbetween
  obtain ⟨rfl, hlooks, hlong⟩ :=
    directory_of_entered hname hdir hstanding.here hlink hentered hstanding'.here
  have hlooksBack : (t.grant (name :: dir)).enters = true :=
    enters_of_mem (by decide) (List.mem_append_right _ (List.mem_singleton_self "..")) hback
  obtain ⟨left, hleft⟩ := exists_walk_append hdir hstanding.here
  rw [hleft .object _ (.inl rfl), hleft .object _ (.inl rfl), walk_inward hname hlooks (by simp),
    if_neg (Nat.not_lt.2 hlong), hstanding'.here]
  exact walk_up hlooksBack more

/-- A lookup that comes to a directory goes on from there as if it had made no detours. -/
theorem walk_append_normal (hlinks : t.KeepsLinksAmong links names)
    (h : t.walk .object links [] names = .ok (.taken found)) (hfound : t.find? found = some .directory)
    (more : List String) :
    t.walk .object links [] (names ++ more) =
      t.walk .object links [] ((names.foldl (Path.push true) []).reverse ++ more) := by
  -- by the number of names: `..` falls back on the names before the one that it takes away
  induction hlength : names.length using Nat.strongRecOn generalizing names found more with
  | ind n ih =>
    subst hlength
    obtain rfl | ⟨init, name, hsplit⟩ := List.eq_nil_or_concat names
    · rfl
    rw [List.concat_eq_append] at hsplit
    subst hsplit
    obtain ⟨passed, hpassed, hpasses⟩ := exists_passed (List.cons_ne_nil name []) h
    have hinit : ∀ more, t.walk .object links [] (init ++ more) =
        t.walk .object links [] ((init.foldl (Path.push true) []).reverse ++ more) :=
      fun more => ih init.length (by simp) hlinks.of_append hpassed hpasses.standing.here more rfl
    rw [List.foldl_append, List.foldl_cons, List.foldl_nil, List.append_assoc, List.singleton_append]
    rcases Path.blank_or_up_or_inward name with hblank | rfl | hname
    · obtain ⟨left, hleft⟩ := exists_walk_append hpassed hpasses.standing.here
      obtain ⟨links', hlast⟩ := hpasses.rest
      rw [Path.push_blank hblank, ← hinit, hleft .object _ (.inl rfl), hleft .object _ (.inl rfl),
        walk_blank_of_ok hblank hlast]
    · cases hstack : init.foldl (Path.push true) [] with
      | nil =>
        rw [hinit, hstack] at h
        rw [hinit, hstack]
        exact walk_up (enters_of_ok (by decide) h) more
      | cons top below =>
        obtain ⟨before, between, rfl, htop, rfl, hbetween⟩ := Path.exists_pushed hstack
        obtain ⟨dir, hdir, hdirPasses⟩ := exists_passed (List.cons_ne_nil top between) hpassed
        have hkept : t.KeepsLinksAmong links before := hlinks.of_append.of_append
        have hbefore : ∀ more, t.walk .object links [] (before ++ more) =
            t.walk .object links [] ((before.foldl (Path.push true) []).reverse ++ more) :=
          fun more => ih before.length (by simp) hkept hdir hdirPasses.standing.here more rfl
        rw [Path.push_up htop]
        calc t.walk .object links [] ((before ++ top :: between) ++ ".." :: more)
            = t.walk .object links []
                ((before.foldl (Path.push true) []).reverse ++ top :: ".." :: more) := by
              rw [hinit, hstack, List.reverse_cons, List.append_assoc, List.singleton_append]
          _ = t.walk .object links [] (before ++ top :: ".." :: more) := (hbefore _).symm
          _ = t.walk .object links [] (before ++ more) :=
              walk_append_detour htop hbetween hlinks h more
          _ = t.walk .object links [] ((before.foldl (Path.push true) []).reverse ++ more) :=
              hbefore more
    · rw [hinit, Path.push_inward hname, List.reverse_cons, List.append_assoc, List.singleton_append]

/-- Where names lead to, their normal form leads to. -/
theorem walk_normal {spot : Spot} (hlinks : t.KeepsLinksAmong links names)
    (h : t.walk .object links [] names = .ok spot) :
    t.walk .object links [] (names.foldl (Path.push true) []).reverse = .ok spot := by
  obtain rfl | ⟨init, name, hsplit⟩ := List.eq_nil_or_concat names
  · exact h
  rw [List.concat_eq_append] at hsplit
  subst hsplit
  obtain ⟨passed, hpassed, hstanding, left, hlast⟩ := exists_passed (List.cons_ne_nil name []) h
  by_cases hname : Inward name
  · -- the last name stays the last one
    have hinit := walk_append_normal hlinks.of_append hpassed hstanding.here [name]
    rw [List.foldl_append, List.foldl_cons, List.foldl_nil, Path.push_inward hname, List.reverse_cons,
      ← hinit, h]
  · -- the lookup ends at a directory, the one that it has passed or the one above
    obtain ⟨place, rfl, hdirectory⟩ :
        ∃ place, spot = .taken place ∧ t.find? place = some .directory := by
      rcases Path.blank_or_up_or_inward name with hblank | rfl | hinward
      · rw [walk_blank_of_ok hblank hlast, walk_nil] at hlast
        cases hlast
        exact ⟨passed, rfl, hstanding.here⟩
      · rw [walk_up (enters_of_ok (by decide) hlast), walk_nil] at hlast
        cases hlast
        exact ⟨passed.tail, rfl, hstanding.tail.here⟩
      · exact absurd hinward hname
    have hnormal := walk_append_normal hlinks h hdirectory []
    rwa [List.append_nil, List.append_nil, h, eq_comm] at hnormal

/-! ## Detours in paths -/

/-- An absolute path names a link, if a link at its end is not followed. -/
def NamesLink (t : FileTree) (path : String) : Prop :=
  ∃ place target, t.locate .name [] path = .ok (.taken place) ∧ t.find? place = some (.link target)

/-- None of the names in an absolute path that a later `..` takes away is a link: where names that cancel
out stand between a name and `..`, the path up to that name names no link. -/
def KeepsLinks (t : FileTree) (path : String) : Prop :=
  ∀ before name between after, Path.followed path = before ++ name :: between ++ ".." :: after →
    Inward name → Neutral between → ¬t.NamesLink (Path.spell 1 (before ++ [name]))

/-- A slash at the end of a path makes no difference to where it leads, if it leads anywhere. -/
theorem walk_followed {spot : Spot} (habsolute : Path.isAbsolute path = true)
    (h : t.locate .object start path = .ok spot) :
    t.walk .object maxLinks [] (Path.followed path) = .ok spot := by
  rw [locate_eq_walk habsolute (length_le_of_locate h), steps] at h
  change t.walk .object maxLinks [] (if _ then Path.followed path ++ [""] else Path.followed path) = _ at h
  split at h
  · obtain ⟨found, hfound, -, left, hlast⟩ := exists_passed (List.cons_ne_nil "" []) h
    rw [walk_empty, walk_nil] at hlast
    cases hlast
    exact hfound
  · exact h

theorem KeepsLinks.among (h : t.KeepsLinks path) (habsolute : Path.isAbsolute path = true)
    (hshort : (Text.encode path).length ≤ maxPath) :
    t.KeepsLinksAmong maxLinks (Path.followed path) := by
  intro before name between after hnames hname hbetween place target hwalk hfind
  have hpart : (before ++ [name]).Sublist (Path.followed path) := by
    rw [hnames]
    simp
  have hproper : Path.Proper (before ++ [name]) :=
    fun n hn => Path.proper_followed path n (hpart.subset hn)
  obtain ⟨rest, hrest⟩ : ∃ rest, path.toList = '/' :: rest := by
    have hhead : path.toList.head? = some '/' := by simpa [Path.isAbsolute] using habsolute
    exact List.head?_eq_some_iff.1 hhead
  have hslash : path.toList = List.replicate 1 '/' ++ rest := hrest
  have hlength := Text.length_encode_le (Path.spell_sublist hslash hpart)
  refine h before name between after hnames hname hbetween ⟨place, target, ?_, hfind⟩
  rw [locate_spell Nat.one_ne_zero hproper (Nat.le_trans hlength hshort)]
  exact hwalk

/-- Where no link is taken away, the normal form of a path leads to where the path leads. -/
theorem locate_normalise {spot : Spot} (habsolute : Path.isAbsolute path = true)
    (hlinks : t.KeepsLinks path) (h : t.locate .object start path = .ok spot) (start' : Place) :
    t.locate .object start' (Path.normalise path).text = .ok spot := by
  have hshort := length_le_of_locate h
  have hcanonical := Path.canonical_normalise habsolute
  have hlength := Text.length_encode_le (Path.normalise_sublist habsolute)
  have hnormal := walk_normal (hlinks.among habsolute hshort) (walk_followed habsolute h)
  rw [← Path.names_normalise habsolute] at hnormal
  rw [hcanonical.text_eq] at hlength ⊢
  rw [locate_spell hcanonical.ne_zero hcanonical.proper (Nat.le_trans hlength hshort), hnormal]

/-- What a name leads to from the normal form of a directory's path, it leads to from the path. -/
theorem walk_append_followed_iff (habsolute : Path.isAbsolute path = true)
    (hlinks : t.KeepsLinks path) (h : t.locate .object start path = .ok (.taken place))
    (name : String) (spot : Spot) :
    t.walk .object maxLinks [] ((Path.normalise path).names ++ [name]) = .ok spot ↔
      t.walk .object maxLinks [] (Path.followed path ++ [name]) = .ok spot := by
  have hamong := hlinks.among habsolute (length_le_of_locate h)
  have hraw := walk_followed habsolute h
  have hnormal := walk_normal hamong hraw
  rw [← Path.names_normalise habsolute] at hnormal
  -- if either lookup goes on, there is a directory to go on from
  have hsame (hdirectory : t.find? place = some .directory) :=
    walk_append_normal hamong hraw hdirectory [name]
  rw [← Path.names_normalise habsolute] at hsame
  constructor
  · intro hlast
    obtain ⟨passed, hpassed, hpasses⟩ := exists_passed (List.cons_ne_nil name []) hlast
    cases hnormal.symm.trans hpassed
    rw [hsame hpasses.standing.here, hlast]
  · intro hlast
    obtain ⟨passed, hpassed, hpasses⟩ := exists_passed (List.cons_ne_nil name []) hlast
    cases hraw.symm.trans hpassed
    rw [← hsame hpasses.standing.here, hlast]

/-! ## Lookups of new files -/

theorem walk_newFile_trailing (hname : Inward name) (henters : (t.grant dir).enters = true) :
    t.walk .newFile links dir [name, ""] = .error .isDirectory := by
  obtain ⟨hfull, hdot, hup⟩ := hname
  cases links <;> simp [walk, walkWith, hfull, hdot, hup, henters]

/-- What is looked for may also be opened for writing, or made, unless it is a directory. -/
theorem walk_newFile_of_object {spot : Spot} (hstanding : t.Standing dir)
    (h : t.walk .object links dir names = .ok spot) :
    t.walk .newFile links dir names = .ok spot ∨
      t.walk .newFile links dir names = .error .isDirectory ∧
        ∃ place, spot = .taken place ∧ t.find? place = some .directory := by
  induction links using Nat.strongRecOn generalizing dir names with
  | ind links ihlinks =>
    induction names generalizing dir with
    | nil =>
      rw [walk_nil] at h ⊢
      exact .inl h
    | cons name rest ih =>
      rcases Path.blank_or_up_or_inward name with hblank | rfl | hname
      · have hsame := walk_blank_of_ok hblank h
        rw [hsame] at h ⊢
        exact ih hstanding h
      · have hlooks := enters_of_ok (by decide) h
        rw [walk_up hlooks] at h ⊢
        exact ih hstanding.tail h
      have hlooks := enters_of_ok hname.1 h
      by_cases hrest : rest = [""]
      · -- a slash at the end asks for a directory
        subst hrest
        obtain ⟨passed, -, hstanding', left, hlast⟩ :=
          walk_prefix (List.cons_ne_nil "" []) links dir [name] hstanding h
        rw [walk_empty, walk_nil] at hlast
        cases hlast
        exact .inr ⟨walk_newFile_trailing hname hlooks, passed, rfl, hstanding'.here⟩
      rw [walk_inward hname hlooks (by simp)] at h
      rw [walk_inward hname hlooks (by simp [hrest])]
      split at h
      · cases h
      next hlong =>
        rw [if_neg hlong]
        cases hfind : t.find? (name :: dir) with
        | none =>
          rw [hfind] at h
          exact .inl h
        | some entry =>
          rw [hfind] at h
          cases entry with
          | directory => exact ih (hstanding.cons hfind) h
          | file content mode => exact .inl h
          | link target =>
            simp only [reduceCtorEq, and_false, if_false] at h ⊢
            cases links with
            | zero => cases h
            | succ left =>
              refine ihlinks left (Nat.lt_succ_self left) ?_ h
              unfold origin
              split
              · exact standing_root t
              · exact hstanding

theorem locate_newFile_of_object {spot : Spot} (habsolute : Path.isAbsolute path = true)
    (h : t.locate .object start path = .ok spot) :
    t.locate .newFile start path = .ok spot ∨
      t.locate .newFile start path = .error .isDirectory ∧
        ∃ place, spot = .taken place ∧ t.find? place = some .directory := by
  have hshort := length_le_of_locate h
  rw [locate_eq_walk habsolute hshort] at h ⊢
  exact walk_newFile_of_object (standing_root t) h

end PipelineShell.FileTree
