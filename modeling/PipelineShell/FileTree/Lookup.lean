import PipelineShell.FileTree.Basic
import PipelineShell.Path
import PipelineShell.SystemError

/-!
# Lookup

What a path text names in a file tree: names are followed one by one from the root or a starting
place, `..` goes up, and a symbolic link is replaced by its target, at most `maxLinks` times.
-/

namespace PipelineShell.FileTree

/-- The most links that one lookup follows. -/
def maxLinks : Nat := 40

/-- The longest name, in bytes. -/
def maxName : Nat := 255

/-- The longest path, in bytes. -/
def maxPath : Nat := 4095

/-- Where a lookup ends. -/
inductive Spot
  /-- At an object. -/
  | taken (place : Place)
  /-- At a name that is free in a directory that exists. -/
  | free (place : Place)
  deriving DecidableEq, Repr

/-- What a lookup is for. -/
inductive Aim
  /-- The object at the end, links followed. -/
  | object
  /-- The object at the end, or the link that stands there. -/
  | name
  /-- A file at the end, links followed, that may have to be made. -/
  | newFile
  deriving DecidableEq, Repr

/-- The names to follow for a path text. A slash at the end is an empty name after the others. -/
def steps (path : String) : List String :=
  let names := (Path.namesOf path).filter (· ≠ "")
  if path.toList.getLast? = some '/' then names ++ [""] else names

/-- Where to start for a path text. -/
def origin (start : Place) (path : String) : Place :=
  if Path.isAbsolute path then [] else start

/-- Follow names from the directory at a place, each in a directory that may be looked into. A link in
the way goes to `jump` with its directory, its target and the names after it, and so does a link at the
end, unless it is aimed at. A slash after the name of a new file asks for what no file is. -/
def walkWith (t : FileTree) (aim : Aim)
    (jump : Place → String → List String → Except SystemError Spot) :
    Place → List String → Except SystemError Spot
  | place, [] => .ok (.taken place)
  | place, name :: rest =>
    if name = "" then walkWith t aim jump place rest
    else if (t.grant place).enters = false then .error .permissionDenied
    else if name = "." then walkWith t aim jump place rest
    else if name = ".." then walkWith t aim jump place.tail rest
    else if aim = .newFile ∧ rest = [""] then .error .isDirectory
    else if (Text.encode name).length > maxName then .error .nameTooLong
    else
      match t.find? (name :: place) with
      | none => if rest = [] then .ok (.free (name :: place)) else .error .noEntry
      | some .directory => walkWith t aim jump (name :: place) rest
      | some (.file _ _) =>
        if rest = [] then .ok (.taken (name :: place)) else .error .notDirectory
      | some (.link target) =>
        if rest = [] ∧ aim = .name then .ok (.taken (name :: place))
        else jump place target rest

/-- Follow names through at most `links` links. -/
def walk (t : FileTree) (aim : Aim) : Nat → Place → List String → Except SystemError Spot
  | 0 => t.walkWith aim fun _ _ _ => .error .tooManyLinks
  | links + 1 => t.walkWith aim fun place target rest =>
    walk t aim links (origin place target) (steps target ++ rest)

/-- What `path` names as seen from the place `start`. -/
def locate (t : FileTree) (aim : Aim) (start : Place) (path : String) :
    Except SystemError Spot :=
  if path = "" then .error .noEntry
  else if (Text.encode path).length > maxPath then .error .nameTooLong
  else t.walk aim maxLinks (origin start path) (steps path)

/-- The object that `path` names, links followed. -/
def status (t : FileTree) (start : Place) (path : String) : Except SystemError (Place × Entry) :=
  match t.locate .object start path with
  | .error e => .error e
  | .ok (.free _) => .error .noEntry
  | .ok (.taken place) =>
    match t.find? place with
    | none => .error .noEntry
    | some entry => .ok (place, entry)

/-- Whether `path` names an object. -/
def pathExists (t : FileTree) (start : Place) (path : String) : Bool :=
  !hasNul path && (t.status start path).isOk

/-- The place of the directory that `path` names. -/
def directory? (t : FileTree) (start : Place) (path : String) : Option Place :=
  if hasNul path then none
  else
    match t.status start path with
    | .ok (place, .directory) => some place
    | _ => none

end PipelineShell.FileTree
