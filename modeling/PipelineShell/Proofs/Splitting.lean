import PipelineShell.Pipeline
import PipelineShell.Proofs.Scan

/-!
# Splitting

Cutting a line into segments and reading the words of each is one pass over the line: a scanner
that follows the rules of words throughout, and for which a bar outside quotes, not escaped, ends
the word and the stage. A scanner for which no bar ends anything reads the line as one text, so the
bars that end a stage are the ones that the reader of words meets outside quotes.
-/

namespace PipelineShell

/-! ## The scanner -/

/-- A reader in the middle of a line. -/
structure Scanner where
  mode : Mode
  /-- The word so far. -/
  word : List Char
  /-- The words of the stage before it. -/
  words : List (List Char)
  /-- The words of the stages before. -/
  stages : List (List (List Char))
  deriving DecidableEq, Repr

namespace Scanner

/-- A reader at the start of a line. -/
def start : Scanner := ⟨.bare, [], [], []⟩

/-- One more character in the word. -/
def put (s : Scanner) (c : Char) : Scanner := { s with word := s.word ++ [c] }

/-- The word ends here; an empty one is none. -/
def endWord (s : Scanner) : Scanner :=
  if s.word = [] then s else { s with word := [], words := s.words ++ [s.word] }

/-- The word and the stage end here. -/
def endStage (s : Scanner) : Scanner :=
  { s.endWord with words := [], stages := s.endWord.stages ++ [s.endWord.words] }

/-- What a character adds. A bar outside quotes ends the stage if `bars` is set. -/
def add (bars : Bool) (s : Scanner) (c : Char) : Scanner :=
  match s.mode with
  | .bare =>
    if c = '\'' ∨ c = '"' ∨ c = '\\' then s
    else if bars ∧ c = '|' then s.endStage
    else if Text.isBlank c then s.endWord
    else s.put c
  | .escaped => s.put c
  | .single => if c = '\'' then s else s.put c
  | .double => if c = '"' ∨ c = '\\' then s else s.put c
  | .doubleEscaped => if Quoting.escapable c then s.put c else (s.put '\\').put c

/-- One character. -/
def step (bars : Bool) (s : Scanner) (c : Char) : Scanner :=
  { s.add bars c with mode := s.mode.next c }

/-- A text, one character after the other. -/
def read (bars : Bool) (s : Scanner) (text : List Char) : Scanner := text.foldl (step bars) s

/-- The words of all stages when the line ends here. -/
def finish (s : Scanner) : List (List (List Char)) :=
  (if s.mode = .doubleEscaped then s.put '\\' else s).endStage.stages

/-- The words of the stages of a line. -/
def run (bars : Bool) (line : List Char) : List (List (List Char)) := (read bars start line).finish

theorem read_mode (bars : Bool) (s : Scanner) (text : List Char) :
    (s.read bars text).mode = s.mode.after text := by
  induction text generalizing s with
  | nil => rfl
  | cons c rest ih => exact ih (s.step bars c)

/-! ## Scanners and readings -/

/-- The words of the stage if the rest of its text is read as `r`. -/
def wordsWith (s : Scanner) (r : Reading) : List (List Char) :=
  s.words ++ Reading.words { r with word := s.word ++ r.word }

theorem wordsWith_put (s : Scanner) (c : Char) (r : Reading) :
    (s.put c).wordsWith r = s.wordsWith (r.push c) := by
  simp [wordsWith, put, Reading.push]

theorem wordsWith_endWord (s : Scanner) (r : Reading) :
    s.endWord.wordsWith r = s.wordsWith r.breakWord := by
  by_cases h : s.word = []
  · simp [wordsWith, endWord, Reading.breakWord, Reading.words, h]
  · simp [wordsWith, endWord, Reading.breakWord, Reading.words, h]

@[simp] theorem stages_put (s : Scanner) (c : Char) : (s.put c).stages = s.stages := rfl

@[simp] theorem stages_endWord (s : Scanner) : s.endWord.stages = s.stages := by
  unfold endWord
  split <;> rfl

theorem stages_endStage (s : Scanner) :
    s.endStage.stages = s.stages ++ [s.wordsWith ⟨[], [], true⟩] := by
  by_cases h : s.word = []
  · simp [endStage, endWord, wordsWith, Reading.words, h]
  · simp [endStage, endWord, wordsWith, Reading.words, h]

/-- What a character adds before the rest of the stage is what it adds to the reading of the
rest. -/
theorem wordsWith_add {bars : Bool} {s : Scanner} {c : Char} (h : (bars && s.mode.atBar c) = false)
    (r : Reading) : (s.add bars c).wordsWith r = s.wordsWith (Reading.take s.mode c r) := by
  unfold add Reading.take
  cases hm : s.mode with
  | bare =>
    have hbar : ¬ (bars = true ∧ c = '|') := by simpa [hm, Mode.atBar] using h
    simp only [hbar, if_false]
    split
    · rfl
    · split
      · exact wordsWith_endWord s r
      · exact wordsWith_put s c r
  | escaped => exact wordsWith_put s c r
  | single =>
    simp only
    split
    · rfl
    · exact wordsWith_put s c r
  | double =>
    simp only
    split
    · rfl
    · exact wordsWith_put s c r
  | doubleEscaped =>
    simp only
    split
    · exact wordsWith_put s c r
    · rw [wordsWith_put, wordsWith_put]

theorem stages_add {bars : Bool} {s : Scanner} {c : Char} (h : (bars && s.mode.atBar c) = false) :
    (s.add bars c).stages = s.stages := by
  unfold add
  cases hm : s.mode with
  | bare =>
    have hbar : ¬ (bars = true ∧ c = '|') := by simpa [hm, Mode.atBar] using h
    simp only [hbar, if_false]
    split
    · rfl
    · split
      · exact stages_endWord s
      · rfl
  | escaped => rfl
  | single => simp only; split <;> rfl
  | double => simp only; split <;> rfl
  | doubleEscaped => simp only; split <;> rfl

theorem wordsWith_step {bars : Bool} {s : Scanner} {c : Char} (h : (bars && s.mode.atBar c) = false)
    (r : Reading) : (s.step bars c).wordsWith r = s.wordsWith (Reading.take s.mode c r) :=
  wordsWith_add h r

theorem stages_step {bars : Bool} {s : Scanner} {c : Char} (h : (bars && s.mode.atBar c) = false) :
    (s.step bars c).stages = s.stages :=
  stages_add h

/-- A bar ends the stage, and the next one starts afresh. -/
theorem step_bar {s : Scanner} (h : s.mode = .bare) :
    s.step true '|' = ⟨.bare, [], [], s.stages ++ [s.wordsWith ⟨[], [], true⟩]⟩ := by
  have hadd : s.add true '|' = s.endStage := by simp [add, h]
  have hstages := stages_endStage s
  have hword : s.endStage.word = [] := by
    simp only [endStage, endWord]
    split
    · assumption
    · rfl
  simp only [step, hadd, h, Mode.next_bare_bar]
  rw [← hstages, hword]
  rfl

theorem finish_eq (s : Scanner) :
    s.finish = s.stages ++ [s.wordsWith (Reading.atEnd s.mode)] := by
  unfold finish
  rw [stages_endStage]
  cases hm : s.mode with
  | doubleEscaped =>
    rw [if_pos rfl, wordsWith_put]
    rfl
  | _ => simp [wordsWith, Reading.atEnd, Reading.words]

/-- A scanner for which no bar ends a stage reads the rest as a part of the stage. -/
theorem finish_read_false (s : Scanner) (text : List Char) :
    (s.read false text).finish = s.stages ++ [s.wordsWith (Reading.scan s.mode text)] := by
  induction text generalizing s with
  | nil => exact finish_eq s
  | cons c rest ih =>
    have h : (false && s.mode.atBar c) = false := rfl
    calc (s.read false (c :: rest)).finish
        = ((s.step false c).read false rest).finish := rfl
      _ = (s.step false c).stages
            ++ [(s.step false c).wordsWith (Reading.scan (s.mode.next c) rest)] := ih _
      _ = s.stages ++ [s.wordsWith (Reading.scan s.mode (c :: rest))] := by
        rw [stages_step h, wordsWith_step h]
        rfl

/-- A scanner reads the segment that it is in as a part of the stage, and the segments after it
each for itself. -/
theorem finish_read_true (s : Scanner) (text : List Char) :
    (s.read true text).finish =
      s.stages ++ s.wordsWith (Reading.scan s.mode (Cut.scan s.mode text).segment)
        :: (Cut.scan s.mode text).others.map wordsOf := by
  induction text generalizing s with
  | nil =>
    rw [Cut.scan_nil]
    exact finish_eq s
  | cons c rest ih =>
    have hread : (s.read true (c :: rest)).finish = ((s.step true c).read true rest).finish := rfl
    rw [hread, ih]
    cases hbar : s.mode.atBar c with
    | true =>
      obtain ⟨hm, rfl⟩ := Mode.atBar_iff.1 hbar
      have hfresh (r : Reading) (stages) : wordsWith ⟨.bare, [], [], stages⟩ r = r.words := rfl
      simp [step_bar hm, hm, hfresh, Cut.scan_bar, Cut.segments, Reading.scan, Reading.atEnd,
        wordsOf_eq_scan]
    | false =>
      have h : (true && s.mode.atBar c) = false := by simpa using hbar
      have hmode : (s.step true c).mode = s.mode.next c := rfl
      rw [stages_step h, wordsWith_step h, hmode, Cut.scan_cons hbar]
      rfl

end Scanner

/-! ## Split points -/

/-- The positions of the bars between segments, in the line that the segments make. -/
def splitPoints : List (List Char) → List Nat
  | [] => []
  | [_] => []
  | segment :: next :: others =>
    segment.length :: (splitPoints (next :: others)).map (segment.length + 1 + ·)

/-- Whether the reader of `text` as one text meets a bar at position `i` that is outside quotes and
not escaped. -/
def meetsBar (text : List Char) (i : Nat) : Bool :=
  text[i]? = some '|' && (Scanner.start.read false (text.take i)).mode = .bare

/-- The positions of the bars that such a reader meets, if it starts in mode `m`. -/
def barsFrom (m : Mode) (text : List Char) : List Nat :=
  (List.range text.length).filter fun i => text[i]? = some '|' && m.after (text.take i) = .bare

theorem barsFrom_cons (m : Mode) (c : Char) (rest : List Char) :
    barsFrom m (c :: rest) =
      (if m.atBar c then [0] else []) ++ (barsFrom (m.next c) rest).map (· + 1) := by
  have hzero : ((c :: rest)[0]? = some '|' && m.after ((c :: rest).take 0) = .bare) = m.atBar c := by
    change (some c = some '|' && m = .bare) = m.atBar c
    rw [Bool.eq_iff_iff]
    simp [Mode.atBar_iff, and_comm]
  have hsucc (i : Nat) : ((c :: rest)[i + 1]? = some '|'
      && m.after ((c :: rest).take (i + 1)) = .bare)
      = (rest[i]? = some '|' && (m.next c).after (rest.take i) = .bare) := rfl
  simp only [barsFrom, List.length_cons, List.range_succ_eq_map, List.filter_cons, hzero,
    List.filter_map, Function.comp_def, Nat.succ_eq_add_one, hsucc]
  cases m.atBar c with
  | true => rfl
  | false => rfl

theorem splitPoints_push (cut : Cut) (c : Char) :
    splitPoints (cut.push c).segments = (splitPoints cut.segments).map (· + 1) := by
  cases h : cut.others with
  | nil => simp [Cut.segments, Cut.push, splitPoints, h]
  | cons next others =>
    simp [Cut.segments, Cut.push, splitPoints, h, Function.comp_def]
    omega

theorem splitPoints_scan (m : Mode) (text : List Char) :
    splitPoints (Cut.scan m text).segments = barsFrom m text := by
  induction text generalizing m with
  | nil =>
    rw [Cut.scan_nil]
    rfl
  | cons c rest ih =>
    rw [barsFrom_cons, ← ih]
    cases hbar : m.atBar c with
    | true =>
      obtain ⟨rfl, rfl⟩ := Mode.atBar_iff.1 hbar
      simp [Cut.scan_bar, Cut.segments, splitPoints, Nat.add_comm]
    | false => simp [Cut.scan_cons hbar, splitPoints_push]

theorem length_splitPoints {segments : List (List Char)} (h : segments ≠ []) :
    segments.length = (splitPoints segments).length + 1 := by
  fun_induction splitPoints segments with
  | case1 => exact absurd rfl h
  | case2 => rfl
  | case3 segment next others ih =>
    rw [List.length_cons, ih (List.cons_ne_nil _ _), List.length_cons, List.length_map]

/-- Every segment that a bar follows leaves a reader outside quotes, with nothing escaped. -/
theorem after_segment (m : Mode) (text : List Char) :
    ((Cut.scan m text).others ≠ [] → m.after (Cut.scan m text).segment = .bare) ∧
      ∀ segment ∈ (Cut.scan m text).others.dropLast, Mode.bare.after segment = .bare := by
  induction text generalizing m with
  | nil => simp [Cut.scan_nil]
  | cons c rest ih =>
    obtain ⟨hfirst, hothers⟩ := ih (m.next c)
    cases hbar : m.atBar c with
    | true =>
      obtain ⟨rfl, rfl⟩ := Mode.atBar_iff.1 hbar
      rw [Mode.next_bare_bar] at hfirst hothers
      rw [Cut.scan_bar]
      refine ⟨fun _ => rfl, ?_⟩
      intro segment hmem
      unfold Cut.segments at hmem
      cases hrest : (Cut.scan .bare rest).others with
      | nil => simp [hrest] at hmem
      | cons next others =>
        rw [hrest] at hmem
        rcases List.mem_cons.1 hmem with rfl | hmem
        · exact hfirst (by simp [hrest])
        · exact hothers segment (by rwa [hrest])
    | false =>
      rw [Cut.scan_cons hbar]
      exact ⟨hfirst, hothers⟩

theorem after_of_mem_segmentsOf {line segment : List Char}
    (h : segment ∈ (segmentsOf line).dropLast) : Mode.bare.after segment = .bare := by
  obtain ⟨hfirst, hothers⟩ := after_segment .bare line
  rw [segmentsOf_eq_scan, Cut.segments] at h
  cases hrest : (Cut.scan .bare line).others with
  | nil => simp [hrest] at h
  | cons next others =>
    rw [hrest] at h hothers
    rcases List.mem_cons.1 h with rfl | h
    · exact hfirst (by simp [hrest])
    · exact hothers segment h

/-! ## One pass -/

/-- The words of the segments of a line are what one pass of a scanner finds, and that scanner
reads words by the rules of a single text. The segments are cut at the bars that the reader of the
whole line meets outside quotes and not escaped; each of them but the last leaves nothing open; and
a line that is not blank makes one stage more than it has such bars. -/
theorem segments_one_pass (line : String) :
    (segmentsOf line.toList).map wordsOf = Scanner.run true line.toList ∧
    Scanner.run false line.toList = [wordsOf line.toList] ∧
    splitPoints (segmentsOf line.toList) =
      (List.range line.toList.length).filter (meetsBar line.toList) ∧
    (∀ segment ∈ (segmentsOf line.toList).dropLast,
      (Scanner.start.read false segment).mode = .bare) ∧
    ((Pipeline.ofLine line).stages = [] ↔ ∀ c ∈ line.toList, Text.isBlank c = true) ∧
    ((Pipeline.ofLine line).stages ≠ [] →
      (Pipeline.ofLine line).stages.length =
        ((List.range line.toList.length).filter (meetsBar line.toList)).length + 1) := by
  have hpoints : splitPoints (segmentsOf line.toList) =
      (List.range line.toList.length).filter (meetsBar line.toList) := by
    rw [segmentsOf_eq_scan, splitPoints_scan]
    apply List.filter_congr
    intro i _
    simp only [meetsBar, Scanner.read_mode]
    rfl
  refine ⟨?_, ?_, hpoints, ?_, ?_, ?_⟩
  · rw [Scanner.run, Scanner.finish_read_true, segmentsOf_eq_scan, Cut.segments, List.map_cons,
      wordsOf_eq_scan]
    rfl
  · rw [Scanner.run, Scanner.finish_read_false, wordsOf_eq_scan]
    rfl
  · intro segment hmem
    rw [Scanner.read_mode]
    exact after_of_mem_segmentsOf hmem
  · unfold Pipeline.ofLine
    split
    · next hblank => simpa using Text.isBlankText_iff.1 hblank
    · next hblank =>
      rw [Text.isBlankText_iff] at hblank
      simpa [segmentsOf_ne_nil] using hblank
  · intro hstages
    have hnot : ¬ Text.isBlankText line.toList = true := by
      intro hblank
      exact hstages (by simp [Pipeline.ofLine, hblank])
    rw [Pipeline.ofLine, if_neg hnot, List.length_map,
      length_splitPoints (segmentsOf_ne_nil line.toList), hpoints]

end PipelineShell
