import PipelineShell.Proofs.Path

/-!
# The steps of a lookup

What a lookup does at one name (`walk_dot`, `walk_up`, `walk_inward`) in a directory that it may look
into, and where it starts and which
names it follows for an absolute path (`locate_eq_walk`, `locate_spell`). Where a lookup finds an object,
its first name gave it a directory, a file at the end, or a link that it could follow (`Enters`).
-/

namespace PipelineShell.FileTree

open PipelineShell.Path (Inward)

variable {t : FileTree} {aim : Aim} {links slashes : Nat} {dir place start : Place} {name path : String}
  {names : List String}

/-! ## One name -/

theorem walk_nil (t : FileTree) (aim : Aim) (links : Nat) (dir : Place) :
    t.walk aim links dir [] = .ok (.taken dir) := by
  cases links <;> rfl

theorem walk_empty (rest : List String) :
    t.walk aim links dir ("" :: rest) = t.walk aim links dir rest := by
  cases links <;> simp [walk, walkWith]

/-- No name leads on from a directory that may not be looked into. -/
theorem walk_barred (hname : name ≠ "") (h : (t.grant dir).enters = false) (rest : List String) :
    t.walk aim links dir (name :: rest) = .error .permissionDenied := by
  cases links <;> simp [walk, walkWith, hname, h]

/-- A lookup that ends somewhere has looked into the directory in which it starts. -/
theorem enters_of_ok (hname : name ≠ "") {rest : List String} {spot : Spot}
    (h : t.walk aim links dir (name :: rest) = .ok spot) : (t.grant dir).enters = true := by
  cases henters : (t.grant dir).enters with
  | true => rfl
  | false =>
    rw [walk_barred hname henters] at h
    cases h

theorem walk_dot (henters : (t.grant dir).enters = true) (rest : List String) :
    t.walk aim links dir ("." :: rest) = t.walk aim links dir rest := by
  cases links <;> simp [walk, walkWith, henters]

/-- A lookup that ends somewhere is not changed by a blank name. -/
theorem walk_blank_of_ok (h : name = "" ∨ name = ".") {rest : List String} {spot : Spot}
    (hwalk : t.walk aim links dir (name :: rest) = .ok spot) (aim' : Aim) (links' : Nat)
    (rest' : List String) :
    t.walk aim' links' dir (name :: rest') = t.walk aim' links' dir rest' := by
  rcases h with rfl | rfl
  · exact walk_empty rest'
  · exact walk_dot (enters_of_ok (by decide) hwalk) rest'

/-- A lookup that follows any name has looked into the directory in which it starts. -/
theorem enters_of_mem {spot : Spot} (hname : name ≠ "") (hmem : name ∈ names)
    (h : t.walk aim links dir names = .ok spot) : (t.grant dir).enters = true := by
  induction names with
  | nil => cases hmem
  | cons first rest ih =>
    by_cases hfirst : first = ""
    · subst hfirst
      rw [walk_empty] at h
      rcases List.mem_cons.1 hmem with rfl | hrest
      · exact absurd rfl hname
      · exact ih hrest h
    · exact enters_of_ok hfirst h

theorem walk_up (henters : (t.grant dir).enters = true) (rest : List String) :
    t.walk aim links dir (".." :: rest) = t.walk aim links dir.tail rest := by
  cases links <;> simp [walk, walkWith, henters]

/-- Where a lookup goes on from a link, if it may follow one more. -/
def follow (t : FileTree) (aim : Aim) (dir : Place) (target : String) (rest : List String) :
    Nat → Except SystemError Spot
  | 0 => .error .tooManyLinks
  | links + 1 => t.walk aim links (origin dir target) (steps target ++ rest)

theorem walk_inward (hname : Inward name) (henters : (t.grant dir).enters = true)
    {rest : List String} (haim : ¬(aim = .newFile ∧ rest = [""])) :
    t.walk aim links dir (name :: rest) =
      if (Text.encode name).length > maxName then .error .nameTooLong
      else
        match t.find? (name :: dir) with
        | none => if rest = [] then .ok (.free (name :: dir)) else .error .noEntry
        | some .directory => t.walk aim links (name :: dir) rest
        | some (.file _ _) => if rest = [] then .ok (.taken (name :: dir)) else .error .notDirectory
        | some (.link target) =>
          if rest = [] ∧ aim = .name then .ok (.taken (name :: dir))
          else t.follow aim dir target rest links := by
  obtain ⟨hfull, hdot, hup⟩ := hname
  cases hfind : t.find? (name :: dir) with
  | none => cases links <;> simp [walk, walkWith, hfull, hdot, hup, henters, haim, hfind]
  | some entry =>
    cases entry <;> cases links <;>
      simp [walk, walkWith, follow, hfull, hdot, hup, henters, haim, hfind]

/-- How a lookup that finds an object at `place` gets past its first name. -/
inductive Enters (t : FileTree) (links : Nat) (dir : Place) (name : String) (rest : List String)
    (place : Place) : Prop
  | directory (hfind : t.find? (name :: dir) = some .directory)
    (hrest : t.walk .object links (name :: dir) rest = .ok (.taken place)) :
    Enters t links dir name rest place
  | file {content : Bytes} {mode : Nat} (hfind : t.find? (name :: dir) = some (.file content mode))
    (hplace : place = name :: dir) : Enters t links dir name rest place
  | link {target : String} {left : Nat} (hfind : t.find? (name :: dir) = some (.link target))
    (hlinks : links = left + 1)
    (hrest : t.walk .object left (origin dir target) (steps target ++ rest) = .ok (.taken place)) :
    Enters t links dir name rest place

theorem enters_of_walk (hname : Inward name) {rest : List String}
    (h : t.walk .object links dir (name :: rest) = .ok (.taken place)) :
    (Text.encode name).length ≤ maxName ∧ t.Enters links dir name rest place := by
  rw [walk_inward hname (enters_of_ok hname.1 h) (by simp)] at h
  split at h
  · cases h
  next hlong =>
    refine ⟨Nat.le_of_not_lt hlong, ?_⟩
    split at h
    · split at h <;> cases h
    · next hfind => exact .directory hfind h
    · next hfind =>
      split at h
      · cases h
        exact .file hfind rfl
      · cases h
    · next hfind =>
      cases links with
      | zero => simp [follow] at h
      | succ left => exact .link hfind rfl (by simpa [follow] using h)

/-! ## Absolute paths -/

theorem locate_of_isAbsolute (h : Path.isAbsolute path = true) (start start' : Place) :
    t.locate aim start path = t.locate aim start' path := by
  simp only [locate, origin, h, if_true]

theorem walk_steps_spell (hslashes : slashes ≠ 0) (hproper : Path.Proper names) :
    t.walk aim links dir (steps (Path.spell slashes names)) = t.walk aim links dir names := by
  cases names with
  | nil => rw [steps_spell_nil hslashes, walk_empty]
  | cons name rest => rw [steps_spell hproper (List.cons_ne_nil name rest)]

theorem locate_eq_walk (habsolute : Path.isAbsolute path = true)
    (hshort : (Text.encode path).length ≤ maxPath) :
    t.locate aim start path = t.walk aim maxLinks [] (steps path) := by
  have hfull : path ≠ "" := by
    rintro rfl
    cases habsolute
  rw [locate, if_neg hfull, if_neg (Nat.not_lt.2 hshort), origin, if_pos habsolute]

theorem locate_spell (hslashes : slashes ≠ 0) (hproper : Path.Proper names)
    (hshort : (Text.encode (Path.spell slashes names)).length ≤ maxPath) :
    t.locate aim start (Path.spell slashes names) = t.walk aim maxLinks [] names := by
  rw [locate_eq_walk (Path.isAbsolute_spell hslashes names) hshort, walk_steps_spell hslashes hproper]

theorem length_le_of_locate {spot : Spot} (h : t.locate aim start path = .ok spot) :
    (Text.encode path).length ≤ maxPath := by
  unfold locate at h
  split at h
  · cases h
  · split at h
    · cases h
    · next hshort => exact Nat.le_of_not_lt hshort

end PipelineShell.FileTree
