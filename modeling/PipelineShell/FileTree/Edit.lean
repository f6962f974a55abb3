import PipelineShell.FileTree.Operation

/-!
# Editing file trees

Changes to a file tree from outside a session: putting objects in, taking them out, and changing
the mode of a file.
-/

namespace PipelineShell.FileTree

/-- The tree without the object at a place and all below it. -/
def erase (t : FileTree) (place : Place) : FileTree :=
  { t with entries := t.entries.filter fun entry => !place.isSuffixOf entry.1 }

/-- The tree with the directories in which a path lies. -/
def withParents (t : FileTree) (start : Place) (path : String) : FileTree :=
  let path := Path.normalise path
  (t.ensureParents path.names.length start path).1

/-- Put a directory in. -/
def putDirectory (t : FileTree) (start : Place) (path : String) : FileTree :=
  let t := t.withParents start path
  (t.ensureDirectory start path).1

/-- Put a symbolic link in. -/
def putLink (t : FileTree) (start : Place) (path target : String) : FileTree :=
  let t := t.withParents start path
  match t.locate .name start path with
  | .ok (.free place) => t.insert place (.link target)
  | _ => t

/-- Put a file in. One that is there gets the new content and the new mode. -/
def putFile (t : FileTree) (start : Place) (path : String) (content : Bytes) (mode : Nat) :
    FileTree :=
  let t := t.withParents start path
  match t.locate .newFile start path with
  | .ok (.free place) => t.insert place (.file content mode)
  | .ok (.taken place) =>
    match t.find? place with
    | some (.file _ _) => t.insert place (.file content mode)
    | _ => t
  | .error _ => t

/-- Take out what a path names, a directory with all that is in it. Of a link the link goes. -/
def remove (t : FileTree) (start : Place) (path : String) : FileTree :=
  match t.locate .name start path with
  | .ok (.taken place) => t.erase place
  | _ => t

/-- Give a file a mode. -/
def changeMode (t : FileTree) (start : Place) (path : String) (mode : Nat) : FileTree :=
  match t.status start path with
  | .ok (place, .file content _) => t.insert place (.file content mode)
  | _ => t

end PipelineShell.FileTree
