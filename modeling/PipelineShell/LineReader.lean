import PipelineShell.Text.Utf8

/-!
# Line readers

Lines of an input that is read in pieces. A line ends at a line feed, at a carriage return, or at a
carriage return with a line feed after it, and without any of them at the end of the input. What a
piece holds beyond the line that is handed out stays with the reader.
-/

namespace PipelineShell

/-- A reader of lines: what it has read and not yet handed out. -/
structure LineReader where
  /-- Characters, each end of a line a line feed. -/
  waiting : List Char
  /-- A carriage return after them, which a line feed may follow. -/
  returned : Bool
  /-- The bytes after that: the start of a character. -/
  tail : Bytes
  deriving DecidableEq, Repr

namespace LineReader

/-- A reader that has read nothing. -/
def empty : LineReader := ⟨[], false, []⟩

/-- How many bytes are read at once. -/
def chunk : Nat := 8192

/-- A text with a line feed at each end of a line. -/
def unifyEnds : List Char → List Char
  | [] => []
  | '\r' :: '\n' :: rest => '\n' :: unifyEnds rest
  | '\r' :: rest => '\n' :: unifyEnds rest
  | c :: rest => c :: unifyEnds rest

/-- Take in a piece. There is no reader after a piece that is no text. -/
def take? (r : LineReader) (piece : Bytes) : Option LineReader :=
  match Text.decodePiece? (r.tail ++ piece) with
  | none => none
  | some ([], tail) => some { r with tail := tail }
  | some (c :: rest, tail) =>
    let text := if r.returned then '\r' :: c :: rest else c :: rest
    if text.getLast? = some '\r' then
      some ⟨r.waiting ++ unifyEnds text.dropLast, true, tail⟩
    else some ⟨r.waiting ++ unifyEnds text, false, tail⟩

/-- Take in the end of the input. There is no reader after one that ends inside a character. -/
def finish? (r : LineReader) : Option LineReader :=
  if r.tail = [] then some ⟨r.waiting ++ if r.returned then ['\n'] else [], false, []⟩ else none

/-- The first line that waits, if the end of one does, and the reader after it. -/
def line? (r : LineReader) : Option (List Char × LineReader) :=
  match r.waiting.dropWhile (· ≠ '\n') with
  | [] => none
  | _ :: rest => some (r.waiting.takeWhile (· ≠ '\n'), { r with waiting := rest })

/-- What comes of asking for a line. -/
inductive Answer
  /-- A line, the reader after it and the input that is left. -/
  | line (text : List Char) (reader : LineReader) (input : Bytes)
  /-- There are no more lines. -/
  | ended
  /-- The input is no text. -/
  | garbled
  deriving DecidableEq, Repr

/-- The last line, when the input is at its end. -/
def lastLine (r : LineReader) : Answer :=
  match r.finish? with
  | none => .garbled
  | some r =>
    match r.line? with
    | some (text, r) => .line text r []
    | none => if r.waiting = [] then .ended else .line r.waiting empty []

/-- The next line. Pieces are taken in until the end of a line waits. -/
def next (r : LineReader) (input : Bytes) : Answer :=
  match r.line? with
  | some (text, r) => .line text r input
  | none =>
    if _h : input = [] then r.lastLine
    else
      match r.take? (input.take chunk) with
      | none => .garbled
      | some r => next r (input.drop chunk)
termination_by input.length
decreasing_by
  have := List.length_pos_iff.2 _h
  simp only [List.length_drop, chunk]
  omega

end LineReader

end PipelineShell
