import PipelineShell.Text.Field

/-!
# Paths

The text of a path and its normal form: empty names and `.` are dropped, and `..` takes the name
before it away. Two leading slashes are kept, any other number of them counts as one. The form is
lexical, it looks at no file.
-/

namespace PipelineShell

/-- A path in normal form. -/
structure Path where
  /-- The leading slashes: none for a relative path, one or two for an absolute one. -/
  slashes : Nat
  /-- The names from the outermost on. -/
  names : List String
  deriving DecidableEq, Repr

namespace Path

/-- The leading slashes that count. -/
def leadingSlashes : List Char → Nat
  | '/' :: '/' :: '/' :: _ => 1
  | '/' :: '/' :: _ => 2
  | '/' :: _ => 1
  | _ => 0

/-- Whether a path text starts at the root. -/
def isAbsolute (text : String) : Bool := text.toList.head? = some '/'

/-- The names in a path text, empty ones included. -/
def namesOf (text : String) : List String := (Text.fields '/' text.toList).map String.ofList

/-- One name more on a stack of names, the innermost one first. -/
def push (absolute : Bool) (stack : List String) (name : String) : List String :=
  if name = "" ∨ name = "." then stack
  else if name = ".." then
    match stack with
    | [] => if absolute then [] else [".."]
    | top :: below => if top = ".." then ".." :: stack else below
  else name :: stack

/-- The normal form of a path text. -/
def normalise (text : String) : Path :=
  let slashes := leadingSlashes text.toList
  ⟨slashes, ((namesOf text).foldl (push (slashes ≠ 0)) []).reverse⟩

/-- The text of leading slashes and names. -/
def spell (slashes : Nat) (names : List String) : String :=
  String.ofList (List.replicate slashes '/' ++ Text.join '/' (names.map String.toList))

/-- The text of a path; a path of nothing is a dot. -/
def text (path : Path) : String :=
  if path.slashes = 0 ∧ path.names = [] then "." else spell path.slashes path.names

/-- `path` as seen from the directory `base`: an absolute path is itself. -/
def append (base path : String) : String :=
  if isAbsolute path then path
  else if base = "" ∨ base.toList.getLast? = some '/' then base ++ path
  else base ++ "/" ++ path

/-- The normal form of `path` as seen from the directory `base`. -/
def resolve (base path : String) : Path := normalise (append base path)

end Path

end PipelineShell
