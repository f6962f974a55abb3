import PipelineShell.SystemError
import PipelineShell.Text.Utf8

/-!
# File trees

A file tree maps places to directories, files and symbolic links. A place is the list of names
from an object up to the root, so it goes through no link and every object has one. What the system
grants at a place stands beside the objects: no session changes it.
-/

namespace PipelineShell

/-- Where an object is: its name, the name of its directory, and so on up to the root. -/
abbrev Place := List String

/-- The path of a place, without links and dots. -/
def Place.text (place : Place) : String := "/" ++ "/".intercalate place.reverse

/-- An object of the file tree. -/
inductive Entry
  | directory
  | link (target : String)
  /-- A file: its bytes and its permission bits. -/
  | file (content : Bytes) (mode : Nat)
  deriving DecidableEq, Repr

namespace Entry

/-- Whether the owner may execute a file of this mode. -/
def ownerExecutes (mode : Nat) : Bool := mode &&& 0o100 ≠ 0

/-- Whether anybody may execute a file of this mode. -/
def someoneExecutes (mode : Nat) : Bool := mode &&& 0o111 ≠ 0

/-- A mode without its set-ID bits. That of the group means something else in a file that the group may
not execute, and stays there. -/
def withoutSetIds (mode : Nat) : Nat :=
  if mode &&& 0o010 = 0 then mode &&& 0o3777 else mode &&& 0o1777

/-- The bits of a mode without any set-ID bit: no write takes one of them away. -/
def lastingBits (mode : Nat) : Nat := mode &&& 0o1777

theorem lastingBits_withoutSetIds (mode : Nat) :
    lastingBits (withoutSetIds mode) = lastingBits mode := by
  unfold withoutSetIds lastingBits
  split <;> rw [Nat.and_assoc] <;> rfl

theorem withoutSetIds_withoutSetIds (mode : Nat) :
    withoutSetIds (withoutSetIds mode) = withoutSetIds mode := by
  unfold withoutSetIds
  split
  · next h => simp only [Nat.and_assoc, Nat.reduceAnd, h, if_true]
  · next h => simp only [Nat.and_assoc, Nat.reduceAnd, h, if_false]

theorem ownerExecutes_congr {mode mode' : Nat} (h : lastingBits mode' = lastingBits mode) :
    ownerExecutes mode' = ownerExecutes mode := by
  have hbits (m : Nat) : m &&& 0o100 = lastingBits m &&& 0o100 := by
    simp only [lastingBits, Nat.and_assoc, Nat.reduceAnd]
  rw [ownerExecutes, ownerExecutes, hbits, hbits mode, h]

theorem someoneExecutes_congr {mode mode' : Nat} (h : lastingBits mode' = lastingBits mode) :
    someoneExecutes mode' = someoneExecutes mode := by
  have hbits (m : Nat) : m &&& 0o111 = lastingBits m &&& 0o111 := by
    simp only [lastingBits, Nat.and_assoc, Nat.reduceAnd]
  rw [someoneExecutes, someoneExecutes, hbits, hbits mode, h]

end Entry

/-- What the system grants at a place, and what it does with a file that is written there. -/
structure Grant where
  /-- A file may be read, a directory listed. -/
  reads : Bool
  /-- A file may be opened for writing, a directory changed. -/
  writes : Bool
  /-- A file may be started, a directory looked into. -/
  enters : Bool
  /-- Who writes to a file takes its set-ID bits away. -/
  strips : Bool
  /-- Why nothing that is written to a file arrives there, if nothing does. -/
  fault : Option SystemError
  deriving DecidableEq, Repr

/-- All is granted, and what is written arrives. -/
def Grant.full : Grant := ⟨true, true, true, false, none⟩

/-- The objects below the root, each at its place. -/
structure FileTree where
  entries : List (Place × Entry)
  /-- What the system grants at some places. At all others it grants everything. -/
  grants : List (Place × Grant)
  deriving DecidableEq, Repr

namespace FileTree

/-- The first entry at `place`. -/
def findEntry (place : Place) : List (Place × Entry) → Option Entry
  | [] => none
  | (p, e) :: rest => if p = place then some e else findEntry place rest

/-- The object at a place. The root is always a directory. -/
def find? (t : FileTree) (place : Place) : Option Entry :=
  if place = [] then some .directory else findEntry place t.entries

/-- What the system grants at a place. -/
def grant (t : FileTree) (place : Place) : Grant := (t.grants.lookup place).getD .full

/-- Entries with `entry` at `place`. -/
def insertEntry (place : Place) (entry : Entry) : List (Place × Entry) → List (Place × Entry)
  | [] => [(place, entry)]
  | (p, e) :: rest => if p = place then (p, entry) :: rest else (p, e) :: insertEntry place entry rest

/-- The tree with `entry` at `place`. -/
def insert (t : FileTree) (place : Place) (entry : Entry) : FileTree :=
  { t with entries := insertEntry place entry t.entries }

/-- The names in the directory at a place. -/
def namesIn (t : FileTree) (place : Place) : List String :=
  t.entries.filterMap fun
    | (name :: directory, _) => if directory = place then some name else none
    | ([], _) => none

-- ---------------------------------------------------------------------------
-- Lemmas
-- ---------------------------------------------------------------------------

@[simp] theorem grants_insert (t : FileTree) (place : Place) (entry : Entry) :
    (t.insert place entry).grants = t.grants := rfl

@[simp] theorem grant_insert (t : FileTree) (place p : Place) (entry : Entry) :
    (t.insert place entry).grant p = t.grant p := rfl

theorem grant_congr {t t' : FileTree} (h : t'.grants = t.grants) (place : Place) :
    t'.grant place = t.grant place := by
  rw [grant, grant, h]

@[simp] theorem find?_root (t : FileTree) : t.find? [] = some .directory := by simp [find?]

theorem ne_root_of_none {t : FileTree} {place : Place} (h : t.find? place = none) : place ≠ [] := by
  rintro rfl
  simp at h

theorem ne_root_of_file {t : FileTree} {place : Place} {content : Bytes} {mode : Nat}
    (h : t.find? place = some (.file content mode)) : place ≠ [] := by
  rintro rfl
  simp at h

theorem findEntry_insertEntry (entries : List (Place × Entry)) (place p : Place) (entry : Entry) :
    findEntry p (insertEntry place entry entries) =
      if p = place then some entry else findEntry p entries := by
  induction entries with
  | nil => simp [insertEntry, findEntry, eq_comm]
  | cons head rest ih =>
    obtain ⟨q, e⟩ := head
    by_cases hq : q = place
    · subst hq
      by_cases hp : q = p
      · simp [insertEntry, findEntry, hp]
      · simp [insertEntry, findEntry, hp, Ne.symm hp]
    · by_cases hp : q = p
      · subst hp
        simp [insertEntry, findEntry, hq]
      · simp [insertEntry, findEntry, hq, hp, ih]

theorem find?_insert_self {t : FileTree} {place : Place} (entry : Entry) (h : place ≠ []) :
    (t.insert place entry).find? place = some entry := by
  simp [find?, insert, findEntry_insertEntry, h]

theorem find?_insert_of_ne {t : FileTree} {place p : Place} (entry : Entry) (h : p ≠ place) :
    (t.insert place entry).find? p = t.find? p := by
  simp [find?, insert, findEntry_insertEntry, h]

end FileTree

end PipelineShell
