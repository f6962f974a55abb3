/-!
# Redirections

The operators that bind a stream of a stage to a file, and the separation of the words of a stage
into its command and its redirections.
-/

namespace PipelineShell

-- ---------------------------------------------------------------------------
-- Operators
-- ---------------------------------------------------------------------------

/-- A stream that a redirection binds. -/
inductive Stream
  | stdin
  | stdout
  | stderr
  deriving DecidableEq, Repr

/-- The name of a stream. -/
def Stream.name : Stream → String
  | .stdin => "stdin"
  | .stdout => "stdout"
  | .stderr => "stderr"

/-- What an operator does with the file after it. -/
inductive Operator
  | read
  | write
  | append
  | writeErrors
  | appendErrors
  deriving DecidableEq, Repr

namespace Operator

/-- The operator that a word spells. The stream number 1 is the default and may be written. -/
def ofWord? : String → Option Operator
  | "<" => some .read
  | ">" => some .write
  | "1>" => some .write
  | ">>" => some .append
  | "1>>" => some .append
  | "2>" => some .writeErrors
  | "2>>" => some .appendErrors
  | _ => none

/-- The shortest spelling of an operator. -/
def word : Operator → String
  | .read => "<"
  | .write => ">"
  | .append => ">>"
  | .writeErrors => "2>"
  | .appendErrors => "2>>"

/-- The stream that an operator binds. -/
def stream : Operator → Stream
  | .read => .stdin
  | .write => .stdout
  | .append => .stdout
  | .writeErrors => .stderr
  | .appendErrors => .stderr

/-- Whether what the file holds is kept. -/
def appends : Operator → Bool
  | .append => true
  | .appendErrors => true
  | _ => false

theorem ofWord?_word (op : Operator) : ofWord? op.word = some op := by
  cases op <;> rfl

end Operator

-- ---------------------------------------------------------------------------
-- Extraction
-- ---------------------------------------------------------------------------

/-- An operator with its target. -/
structure Redirection where
  operator : Operator
  target : String
  deriving DecidableEq, Repr

/-- An operator at the end of a stage, with nothing after it. -/
structure Dangling where
  /-- The operator as it was written. -/
  operator : String
  /-- The command of the stage, if it has one. -/
  command : Option String
  deriving DecidableEq, Repr

/-- The words of a stage, sorted. -/
structure Extraction where
  /-- The command and its arguments. -/
  argv : List String
  redirections : List Redirection
  /-- An operator left at the end, as it was written. -/
  leftover : Option String
  deriving DecidableEq, Repr

namespace Extraction

/-- Sort words from left to right: an operator takes the next word as its target, whatever that
word is, and all other words make the command. -/
def ofWords : List String → Extraction
  | [] => ⟨[], [], none⟩
  | word :: rest =>
    match Operator.ofWord? word, rest with
    | none, rest =>
      let e := ofWords rest
      { e with argv := word :: e.argv }
    | some _, [] => ⟨[], [], some word⟩
    | some op, target :: rest =>
      let e := ofWords rest
      { e with redirections := ⟨op, target⟩ :: e.redirections }

/-- What is wrong with the words: an operator at the end belongs to the command of the stage. -/
def diagnostics (e : Extraction) : List Dangling :=
  e.leftover.toList.map fun op => ⟨op, e.argv.head?⟩

end Extraction

end PipelineShell
