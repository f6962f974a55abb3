import PipelineShell.FileTree.Basic

/-!
# Changes of file trees

What is different between two file trees below a place. Of the mode of a file only the owner's
right to execute it counts.
-/

namespace PipelineShell.FileTree

/-- What shows of an object. -/
inductive Sight
  | directory
  | link (target : String)
  | file (content : Bytes) (executable : Bool)
  deriving DecidableEq, Repr

/-- What shows of an entry. -/
def Sight.ofEntry : Entry → Sight
  | .directory => .directory
  | .link target => .link target
  | .file content mode => .file content (Entry.ownerExecutes mode)

/-- What shows at a place. -/
def sight? (t : FileTree) (place : Place) : Option Sight := (t.find? place).map Sight.ofEntry

/-- The places of a tree below a place. -/
def placesBelow (t : FileTree) (top : Place) : List Place :=
  (t.entries.map Prod.fst).filter fun place => top.isSuffixOf place && place ≠ top

/-- The path from a place to one below it. -/
def pathBelow (top place : Place) : String :=
  "/".intercalate (place.take (place.length - top.length)).reverse

/-- An item put in its place in a list that increases by its first parts, unless it is there. -/
def insertChange (change : String × Option Sight) :
    List (String × Option Sight) → List (String × Option Sight)
  | [] => [change]
  | head :: rest =>
    if change.1 < head.1 then change :: head :: rest
    else if change.1 = head.1 then head :: rest
    else head :: insertChange change rest

/-- The paths below a place at which something else shows afterwards, in order, with what shows
there: nothing if the object is gone. -/
def changes (before after : FileTree) (top : Place) : List (String × Option Sight) :=
  (((before.placesBelow top ++ after.placesBelow top).filter fun place =>
    before.sight? place ≠ after.sight? place).map fun place =>
      (pathBelow top place, after.sight? place)).foldr insertChange []

end PipelineShell.FileTree
