import PipelineShell.Segment
import PipelineShell.Word

/-!
# Scanning

A line is cut into segments, and a segment into words, by two readers with different rules for
backslashes: the first passes over any character after one, the second only over those that it
escapes. `Mode` says where a reader stands between two characters, and both readers are written
here as machines that take one character after the other: `Cut.ofLine_eq_scan` for the segments
and `Reading.ofText_eq_scan` for the words. The machines move through the same modes.
-/

namespace PipelineShell

/-! ## Modes -/

/-- Where a reader of a line stands between two characters: the quotes it is inside, and whether
the character before is a backslash that may escape the next one. -/
inductive Mode
  | bare
  | escaped
  | single
  | double
  | doubleEscaped
  deriving DecidableEq, Repr

namespace Mode

/-- The mode of a reader that has just come inside some quotes. -/
def ofQuoting : Quoting → Mode
  | .bare => .bare
  | .single => .single
  | .double => .double

/-- The mode after one more character. -/
def next : Mode → Char → Mode
  | .bare, c =>
    if c = '\'' then .single else if c = '"' then .double else if c = '\\' then .escaped else .bare
  | .escaped, _ => .bare
  | .single, c => if c = '\'' then .bare else .single
  | .double, c => if c = '"' then .bare else if c = '\\' then .doubleEscaped else .double
  | .doubleEscaped, _ => .double

/-- The mode after a text. -/
def after (m : Mode) (text : List Char) : Mode := text.foldl next m

@[simp] theorem after_nil (m : Mode) : m.after [] = m := rfl

@[simp] theorem after_cons (m : Mode) (c : Char) (text : List Char) :
    m.after (c :: text) = (m.next c).after text := rfl

@[simp] theorem after_append (m : Mode) (a b : List Char) :
    m.after (a ++ b) = (m.after a).after b := by
  simp [after]

/-- Whether a character in front of a reader in mode `m` is a bar between two stages. -/
def atBar (m : Mode) (c : Char) : Bool := m = .bare && c = '|'

theorem atBar_iff {m : Mode} {c : Char} : m.atBar c = true ↔ m = .bare ∧ c = '|' := by
  simp [atBar]

@[simp] theorem next_bare_bar : next .bare '|' = .bare := rfl

end Mode

/-! ## Segments -/

namespace Cut

@[simp] theorem segment_push (c : Char) (cut : Cut) :
    (cut.push c).segment = c :: cut.segment := rfl

@[simp] theorem others_push (c : Char) (cut : Cut) : (cut.push c).others = cut.others := rfl

/-- Cut a line one character at a time. -/
def scan : Mode → List Char → Cut
  | _, [] => ⟨[], []⟩
  | m, c :: rest =>
    if m.atBar c then ⟨[], (scan (m.next c) rest).segments⟩ else (scan (m.next c) rest).push c

theorem scan_nil (m : Mode) : scan m [] = ⟨[], []⟩ := by
  cases m <;> rfl

theorem scan_bar (rest : List Char) : scan .bare ('|' :: rest) = ⟨[], (scan .bare rest).segments⟩ :=
  rfl

theorem scan_cons {m : Mode} {c : Char} (h : m.atBar c = false) (rest : List Char) :
    scan m (c :: rest) = (scan (m.next c) rest).push c := by
  simp [scan, h]

theorem ofLine_eq_scan (q : Quoting) (line : List Char) :
    ofLine q line = scan (.ofQuoting q) line := by
  fun_induction ofLine q line with
  | case1 q => cases q <;> rfl
  | _ => simp_all [scan, push, Mode.ofQuoting, Mode.next, Mode.atBar]

end Cut

theorem segmentsOf_eq_scan (line : List Char) : segmentsOf line = (Cut.scan .bare line).segments := by
  rw [segmentsOf, Cut.ofLine_eq_scan]
  rfl

/-! ## Words -/

namespace Reading

/-- What a character does to the reading of the text after it. -/
def take (m : Mode) (c : Char) (r : Reading) : Reading :=
  match m with
  | .bare =>
    if c = '\'' ∨ c = '"' ∨ c = '\\' then r else if Text.isBlank c then r.breakWord else r.push c
  | .escaped => r.push c
  | .single => if c = '\'' then r else r.push c
  | .double => if c = '"' ∨ c = '\\' then r else r.push c
  | .doubleEscaped => if Quoting.escapable c then r.push c else (r.push c).push '\\'

/-- The reading of nothing: a backslash inside double quotes that has nothing to escape stands for
itself. -/
def atEnd : Mode → Reading
  | .bare => ⟨[], [], true⟩
  | .escaped => ⟨[], [], true⟩
  | .single => ⟨[], [], false⟩
  | .double => ⟨[], [], false⟩
  | .doubleEscaped => ⟨['\\'], [], false⟩

/-- Read a text one character at a time. -/
def scan (m : Mode) : List Char → Reading
  | [] => atEnd m
  | c :: rest => take m c (scan (m.next c) rest)

theorem ofText_eq_scan (q : Quoting) (text : List Char) :
    ofText q text = scan (.ofQuoting q) text := by
  fun_induction ofText q text with
  | _ => simp_all [scan, take, atEnd, push, Mode.ofQuoting, Mode.next, Quoting.escapable]

end Reading

theorem wordsOf_eq_scan (text : List Char) : wordsOf text = (Reading.scan .bare text).words := by
  rw [wordsOf, Reading.ofText_eq_scan]
  rfl

end PipelineShell
