import PipelineShell.Pipeline
import PipelineShell.Proofs.Scan

/-!
# Closing a line

A line that ends inside quotes, or after a backslash that has nothing to escape, is no error: it is read
as if it were closed at its end. `closedLine` closes it, and `ofSegment_closed` says that a closed line
has the stages of the line that it was made of. Only the last segment of the two lines is different
(`exists_last_segments`), and a reader cannot tell how it ends (`IndistinctEnds`).
-/

namespace PipelineShell

-- ---------------------------------------------------------------------------
-- Closed lines
-- ---------------------------------------------------------------------------

/-- A line with what it leaves open closed at its end. Quotes get their closing quote, and a backslash
inside them that has nothing to escape is escaped; outside quotes it is taken away. -/
def closedLine (line : List Char) : List Char :=
  match Mode.bare.after line with
  | .bare => line
  | .escaped => line.dropLast
  | .single => line ++ ['\'']
  | .double => line ++ ['"']
  | .doubleEscaped => line ++ ['\\', '"']

/-- Outside quotes, and only there, a backslash is left to escape what follows whatever it is. -/
theorem Mode.next_eq_escaped_iff {m : Mode} {c : Char} :
    m.next c = .escaped ↔ m = .bare ∧ c = '\\' := by
  cases m with
  | bare => simp [next]; grind
  | escaped => simp [next]
  | single => simp [next]; grind
  | double => simp [next]; grind
  | doubleEscaped => simp [next]

theorem Mode.eq_concat_of_after_escaped {text : List Char} (h : Mode.bare.after text = .escaped) :
    ∃ start, text = start ++ ['\\'] ∧ Mode.bare.after start = .bare := by
  rcases List.eq_nil_or_concat text with rfl | ⟨start, c, rfl⟩
  · cases h
  · rw [List.concat_eq_append] at h ⊢
    rw [Mode.after_append] at h
    obtain ⟨hstart, rfl⟩ := Mode.next_eq_escaped_iff.1 h
    exact ⟨start, rfl, hstart⟩

-- ---------------------------------------------------------------------------
-- Readings that differ in the quotes only
-- ---------------------------------------------------------------------------

namespace Reading

/-- What a character does to a reading has nothing to do with the quotes at the end. -/
theorem take_closed (m : Mode) (c : Char) (r : Reading) (closed : Bool) :
    take m c { r with closed := closed } = { take m c r with closed := closed } := by
  cases m with
  | bare =>
    simp only [take]
    split
    · rfl
    · split <;> rfl
  | escaped => rfl
  | single => simp only [take]; split <;> rfl
  | double => simp only [take]; split <;> rfl
  | doubleEscaped => simp only [take]; split <;> rfl

/-- A reading without what it says about open quotes. -/
def settled (r : Reading) : Reading := { r with closed := true }

theorem words_settled (r : Reading) : r.settled.words = r.words := rfl

theorem settled_take (m : Mode) (c : Char) (r : Reading) :
    (take m c r).settled = take m c r.settled :=
  (take_closed m c r true).symm

/-- A reader of words notices at the end of a text whether it is inside quotes. -/
theorem closed_scan (m : Mode) (text : List Char) :
    (scan m text).closed = (atEnd (m.after text)).closed := by
  induction text generalizing m with
  | nil => rfl
  | cons c rest ih =>
    have hkept : (take m c (scan (m.next c) rest)).closed = (scan (m.next c) rest).closed := by
      have hsame := take_closed m c (scan (m.next c) rest) (scan (m.next c) rest).closed
      exact (congrArg Reading.closed hsame :)
    rw [Mode.after_cons, ← ih]
    exact hkept

end Reading

-- ---------------------------------------------------------------------------
-- Ends of a line
-- ---------------------------------------------------------------------------

/-- Two ends of a text that a reader in mode `m` cannot tell apart: both are in one segment, and both
make the same words. -/
structure IndistinctEnds (m : Mode) (a b : List Char) : Prop where
  cut : Cut.scan m a = ⟨a, []⟩
  cut' : Cut.scan m b = ⟨b, []⟩
  words : (Reading.scan m a).settled = (Reading.scan m b).settled

/-- A line and its closed line are the same but for their ends, and the end of the closed one leaves a
reader outside quotes. -/
theorem exists_ends (line : List Char) :
    ∃ start a b, line = start ++ a ∧ closedLine line = start ++ b ∧
      (Mode.bare.after start).after b = .bare ∧ IndistinctEnds (Mode.bare.after start) a b := by
  unfold closedLine
  cases hmode : Mode.bare.after line with
  | bare => exact ⟨line, [], [], by simp, by simp, hmode, rfl, rfl, rfl⟩
  | escaped =>
    obtain ⟨start, rfl, hstart⟩ := Mode.eq_concat_of_after_escaped hmode
    refine ⟨start, ['\\'], [], rfl, by simp, hstart, ?_⟩
    rw [hstart]
    exact ⟨rfl, rfl, rfl⟩
  | single =>
    refine ⟨line, [], ['\''], by simp, rfl, ?_, ?_⟩
    · rw [hmode]
      rfl
    · rw [hmode]
      exact ⟨rfl, rfl, rfl⟩
  | double =>
    refine ⟨line, [], ['"'], by simp, rfl, ?_, ?_⟩
    · rw [hmode]
      rfl
    · rw [hmode]
      exact ⟨rfl, rfl, rfl⟩
  | doubleEscaped =>
    refine ⟨line, [], ['\\', '"'], by simp, rfl, ?_, ?_⟩
    · rw [hmode]
      rfl
    · rw [hmode]
      exact ⟨rfl, rfl, rfl⟩

/-- Where the last segment starts, after `before`: the first segment starts where the reader does, and
every other one outside quotes. -/
def lastStart (m : Mode) (before : List (List Char)) : Mode := if before = [] then m else .bare

/-- Two lines that are the same but for their ends have the same segments but for the last one, and of
that one the same words. -/
theorem exists_last_segments {m : Mode} {start a b : List Char} (h : IndistinctEnds (m.after start) a b) :
    ∃ before last last',
      (Cut.scan m (start ++ a)).segments = before ++ [last] ∧
      (Cut.scan m (start ++ b)).segments = before ++ [last'] ∧
      (Reading.scan (lastStart m before) last).settled =
        (Reading.scan (lastStart m before) last').settled := by
  induction start generalizing m with
  | nil =>
    refine ⟨[], a, b, ?_, ?_, h.words⟩
    · exact congrArg Cut.segments h.cut
    · exact congrArg Cut.segments h.cut'
  | cons c rest ih =>
    obtain ⟨before, last, last', hsegments, hsegments', hwords⟩ := ih h
    cases hbar : m.atBar c with
    | true =>
      obtain ⟨rfl, rfl⟩ := Mode.atBar_iff.1 hbar
      have hstart : lastStart (Mode.bare.next '|') before = .bare := by
        unfold lastStart
        split <;> rfl
      refine ⟨[] :: before, last, last', ?_, ?_, ?_⟩
      · exact congrArg ([] :: ·) hsegments
      · exact congrArg ([] :: ·) hsegments'
      · rw [hstart] at hwords
        exact hwords
    | false =>
      rw [List.cons_append, List.cons_append, Cut.scan_cons hbar, Cut.scan_cons hbar]
      cases before with
      | nil =>
        obtain ⟨hlast, hothers⟩ := List.cons.inj hsegments
        obtain ⟨hlast', hothers'⟩ := List.cons.inj hsegments'
        refine ⟨[], c :: last, c :: last', ?_, ?_, ?_⟩
        · simp [Cut.segments, hlast, hothers]
        · simp [Cut.segments, hlast', hothers']
        · change (Reading.take m c _).settled = (Reading.take m c _).settled
          rw [Reading.settled_take, Reading.settled_take]
          exact congrArg (Reading.take m c) hwords
      | cons first before =>
        obtain ⟨hfirst, hothers⟩ := List.cons.inj hsegments
        obtain ⟨hfirst', hothers'⟩ := List.cons.inj hsegments'
        refine ⟨(c :: first) :: before, last, last', ?_, ?_, hwords⟩
        · simp [Cut.segments, hfirst, hothers]
        · simp [Cut.segments, hfirst', hothers']

-- ---------------------------------------------------------------------------
-- Stages
-- ---------------------------------------------------------------------------

/-- A line is read as if it were closed at its end. Of a closed line a reader finds itself outside quotes
in the end with nothing to escape; the line has as many segments, of which only the last one may be
different; and its segments make the same stages. -/
theorem ofSegment_closed (line : List Char) :
    Mode.bare.after (closedLine line) = .bare ∧ closesQuotes (closedLine line) = true ∧
    (segmentsOf (closedLine line)).length = (segmentsOf line).length ∧
    (segmentsOf (closedLine line)).dropLast = (segmentsOf line).dropLast ∧
    (segmentsOf (closedLine line)).map Stage.ofSegment = (segmentsOf line).map Stage.ofSegment := by
  obtain ⟨start, a, b, hline, hclosed, hmode, hend⟩ := exists_ends line
  have hafter : Mode.bare.after (closedLine line) = .bare := by
    rw [hclosed, Mode.after_append, hmode]
  have hquotes : closesQuotes (closedLine line) = true := by
    rw [closesQuotes, Reading.ofText_eq_scan, Mode.ofQuoting, Reading.closed_scan, hafter]
    rfl
  obtain ⟨before, last, last', hsegments, hsegments', hwords⟩ := exists_last_segments hend
  have hstart : lastStart .bare before = .bare := ite_self _
  rw [← hline, ← segmentsOf_eq_scan] at hsegments
  rw [← hclosed, ← segmentsOf_eq_scan] at hsegments'
  have hlast : wordsOf last' = wordsOf last := by
    rw [hstart] at hwords
    rw [wordsOf_eq_scan, wordsOf_eq_scan, ← Reading.words_settled, ← hwords, Reading.words_settled]
  have hstage : Stage.ofSegment last' = Stage.ofSegment last := by
    rw [Stage.ofSegment, hlast, Stage.ofSegment]
  refine ⟨hafter, hquotes, ?_, ?_, ?_⟩
  · rw [hsegments, hsegments', List.length_append, List.length_append]
    rfl
  · rw [hsegments, hsegments', List.dropLast_concat, List.dropLast_concat]
  · rw [hsegments, hsegments', List.map_append, List.map_append, List.map_singleton,
      List.map_singleton, hstage]

end PipelineShell
