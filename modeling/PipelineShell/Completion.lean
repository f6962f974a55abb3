import PipelineShell.Command

/-!
# Completion

Completing the first word of a line to the name of a command. A line editor asks for one match
after the other by number; the matches are looked up when it asks for number 0 and kept for the
numbers after it.
-/

namespace PipelineShell

/-- The matches of the last question. -/
structure Completer where
  found : List String
  deriving DecidableEq, Repr

/-- Why a question has no answer. -/
inductive CompletionFailure
  | refused (refusal : Refusal)
  /-- The number lies before the first match. -/
  | outOfRange
  deriving DecidableEq, Repr

namespace Session

/-- The names of commands that start with `start`, in order, each once. -/
def candidates (host : Host) (s : Session) (start : String) :
    Session × Except Refusal (List String) :=
  match s.listPrograms host with
  | (s, .error r) => (s, .error r)
  | (s, .ok names) =>
    (s, .ok ((sortNames (Builtin.all.map Builtin.name ++ names)).filter
      fun name => start.toList.isPrefixOf name.toList))

end Session

namespace Completer

/-- The part of a text before a position. A negative position counts from the end. -/
def upTo (text : List Char) (position : Int) : List Char :=
  if position < 0 then text.take (text.length - position.natAbs) else text.take position.natAbs

/-- The item at a position. A negative position counts from the end, and one before the first item
is out of range; after the last item there is nothing. -/
def itemAt (items : List String) (position : Int) : Except CompletionFailure (Option String) :=
  if 0 ≤ position then .ok items[position.natAbs]?
  else if position.natAbs ≤ items.length then .ok items[items.length - position.natAbs]?
  else .error .outOfRange

/-- The names as they are put into the line: one that is alone has a space after it. -/
def finish : List String → List String
  | [name] => [name ++ " "]
  | names => names

/-- Look the matches up for a word of a line that starts at a position. Only the first word of a
line has matches. -/
def lookUp (host : Host) (s : Session) (text line : String) (position : Int) :
    Session × Except Refusal Completer :=
  if Text.isBlankText (upTo line.toList position) then
    match s.candidates host text with
    | (s, .error r) => (s, .error r)
    | (s, .ok names) => (s, .ok ⟨finish names⟩)
  else (s, .ok ⟨[]⟩)

/-- The match of a number for a word of a line. -/
def complete (host : Host) (s : Session) (completer : Completer) (text : String) (number : Int)
    (line : String) (position : Int) :
    Session × Completer × Except CompletionFailure (Option String) :=
  if number = 0 then
    match lookUp host s text line position with
    | (s, .error r) => (s, completer, .error (.refused r))
    | (s, .ok completer) =>
      (s.note host (.completed text completer.found.length), completer,
        itemAt completer.found number)
  else (s, completer, itemAt completer.found number)

end Completer

-- ---------------------------------------------------------------------------
-- Line editors
-- ---------------------------------------------------------------------------

/-- A line editor, as far as completion has to do with it. -/
structure LineEditor where
  /-- Its description of itself. -/
  description : Option String
  /-- The line it holds. -/
  line : String
  /-- Where the word to complete starts. -/
  position : Int
  deriving DecidableEq, Repr

/-- A setting of a line editor. -/
inductive EditorSetting
  /-- The characters between words. -/
  | delimiters (characters : String)
  /-- Matches come from the completer. -/
  | useCompleter
  /-- A binding of a key. -/
  | bind (binding : String)
  deriving DecidableEq, Repr

namespace LineEditor

/-- Whether `part` occurs in `text`. -/
def occurs (part : List Char) : List Char → Bool
  | [] => part.isEmpty
  | c :: rest => part.isPrefixOf (c :: rest) || occurs part rest

/-- What a line editor is told when completion is installed: the tabulator completes. -/
def settings (editor : LineEditor) : List EditorSetting :=
  let bindsOwnWay := occurs "libedit".toList (editor.description.getD "").toList
  [.delimiters " \t\n><|", .useCompleter,
    .bind (if bindsOwnWay then "bind ^I rl_complete" else "tab: complete")]

end LineEditor

/-- The line and the position that a question is about: those of the editor, or without one the
text itself from its start on. -/
def LineEditor.context (editor : Option LineEditor) (text : String) : String × Int :=
  match editor with
  | some e => (e.line, e.position)
  | none => (text, 0)

end PipelineShell
