import PipelineShell.Pipeline
import PipelineShell.Proofs.Scan
import PipelineShell.Text.Field

/-!
# Rendering

The ways in which stages can be written as a line: a word is a row of fragments, each of them a
plain character, an escaped one or a text in quotes; blanks stand between the words and bars between
the stages. `Renders` is the relation between words and lines that this grammar gives. Reading a
line undoes the writing, and the lines that the grammar covers are those that leave nothing open.
-/

namespace PipelineShell

/-! ## Fragments -/

/-- A character or two inside double quotes. -/
inductive Inside
  /-- A character that needs no escape. -/
  | plain (c : Char) (h : Quoting.escapable c = false)
  /-- A backslash and what it escapes. -/
  | escaped (c : Char) (h : Quoting.escapable c = true)
  /-- A backslash that stands for itself, and the character after it. -/
  | backslash (c : Char) (h : Quoting.escapable c = false)

namespace Inside

/-- What is written. -/
def written : Inside → List Char
  | .plain c _ => [c]
  | .escaped c _ => ['\\', c]
  | .backslash c _ => ['\\', c]

/-- What it stands for. -/
def value : Inside → List Char
  | .plain c _ => [c]
  | .escaped c _ => [c]
  | .backslash c _ => ['\\', c]

end Inside

/-- Whether a character stands for itself in a word. -/
def isPlain (c : Char) : Bool :=
  !Text.isBlank c && c ≠ '\'' && c ≠ '"' && c ≠ '\\' && c ≠ '|'

/-- A part of a written word. -/
inductive Fragment
  | plain (c : Char) (h : isPlain c = true)
  | escaped (c : Char)
  | single (body : List Char) (h : '\'' ∉ body)
  | double (body : List Inside)

namespace Fragment

/-- What is written. -/
def written : Fragment → List Char
  | .plain c _ => [c]
  | .escaped c => ['\\', c]
  | .single body _ => '\'' :: body ++ ['\'']
  | .double body => '"' :: body.flatMap Inside.written ++ ['"']

/-- What it stands for. -/
def value : Fragment → List Char
  | .plain c _ => [c]
  | .escaped c => [c]
  | .single body _ => body
  | .double body => body.flatMap Inside.value

end Fragment

/-! ## Stages and lines -/

/-- A character that separates words. -/
abbrev Blank := { c : Char // Text.isBlank c = true }

/-- A written stage: rows of fragments with a blank between each two. A row may be empty, so that
blanks can follow one another, and stand at both ends. -/
structure Form where
  first : List Fragment
  others : List (Blank × List Fragment)

namespace Form

/-- What is written after the first row. -/
def writtenOthers (others : List (Blank × List Fragment)) : List Char :=
  others.flatMap fun row => row.1.val :: row.2.flatMap Fragment.written

/-- What is written. -/
def written (form : Form) : List Char :=
  form.first.flatMap Fragment.written ++ writtenOthers form.others

/-- The words that rows stand for. A row that stands for nothing is no word. -/
def wordsOfRows (rows : List (List Fragment)) : List (List Char) :=
  (rows.map fun row => row.flatMap Fragment.value).filter (· ≠ [])

theorem wordsOfRows_cons (row : List Fragment) (rows : List (List Fragment)) :
    wordsOfRows (row :: rows) =
      [row.flatMap Fragment.value].filter (· ≠ []) ++ wordsOfRows rows := by
  rw [wordsOfRows, List.map_cons, ← List.singleton_append, List.filter_append]
  rfl

/-- The words of the stage. -/
def words (form : Form) : List (List Char) := wordsOfRows (form.first :: form.others.map Prod.snd)

/-- One more fragment in front. -/
def push (fragment : Fragment) (form : Form) : Form := { form with first := fragment :: form.first }

/-- One more blank in front. -/
def pushBlank (b : Blank) (form : Form) : Form := ⟨[], (b, form.first) :: form.others⟩

theorem written_push (fragment : Fragment) (form : Form) :
    (form.push fragment).written = fragment.written ++ form.written := by
  simp [written, push]

theorem written_pushBlank (b : Blank) (form : Form) :
    (form.pushBlank b).written = b.val :: form.written := by
  simp [written, pushBlank, writtenOthers]

end Form

/-- The line in which stages are written. -/
def writtenLine (forms : List Form) : List Char := Text.join '|' (forms.map Form.written)

/-- Whether `line` is a way to write stages that have the words `stages`. -/
def Renders (stages : List (List (List Char))) (line : List Char) : Prop :=
  ∃ forms : List Form, forms ≠ [] ∧ forms.map Form.words = stages ∧ writtenLine forms = line

/-! ## Passing over a text -/

/-- More characters in front of the segment. -/
def Cut.prepend (text : List Char) (cut : Cut) : Cut := { cut with segment := text ++ cut.segment }

/-- More characters in front of the word. -/
def Reading.prepend (text : List Char) (r : Reading) : Reading := { r with word := text ++ r.word }

/-- A reader in mode `m` passes over `text` without a bar or the end of a word, adds `value` to the
word, and is then in mode `m'`. -/
structure Passes (m m' : Mode) (text value : List Char) : Prop where
  mode : m.after text = m'
  cut (rest : List Char) : Cut.scan m (text ++ rest) = (Cut.scan m' rest).prepend text
  reading (rest : List Char) : Reading.scan m (text ++ rest) = (Reading.scan m' rest).prepend value

namespace Passes

variable {m m' m'' : Mode} {c : Char} {text text' value value' : List Char}

theorem nil (m : Mode) : Passes m m [] [] := ⟨rfl, fun _ => rfl, fun _ => rfl⟩

theorem append (h : Passes m m' text value) (h' : Passes m' m'' text' value') :
    Passes m m'' (text ++ text') (value ++ value') where
  mode := by rw [Mode.after_append, h.mode, h'.mode]
  cut rest := by
    rw [List.append_assoc, h.cut, h'.cut]
    simp [Cut.prepend]
  reading rest := by
    rw [List.append_assoc, h.reading, h'.reading]
    simp [Reading.prepend]

/-- One character that is no bar between stages. -/
theorem single (m : Mode) (c : Char) (added : List Char) (hbar : m.atBar c = false)
    (htake : ∀ r, Reading.take m c r = r.prepend added) : Passes m (m.next c) [c] added where
  mode := rfl
  cut rest := Cut.scan_cons hbar rest
  reading rest := htake (Reading.scan (m.next c) rest)

/-- A quote or a backslash that adds nothing. -/
theorem mark (m : Mode) (c : Char) (hbar : m.atBar c = false) (htake : ∀ r, Reading.take m c r = r)
    (h : Passes (m.next c) m' text value) : Passes m m' (c :: text) value :=
  (single m c [] hbar htake).append h

/-- What passes from a mode back to it passes any number of times. -/
theorem flatMap {α : Type} {written value : α → List Char} (items : List α)
    (h : ∀ item ∈ items, Passes m m (written item) (value item)) :
    Passes m m (items.flatMap written) (items.flatMap value) := by
  induction items with
  | nil => exact nil m
  | cons item rest ih =>
    have hitem := h item List.mem_cons_self
    have hrest := ih fun i hi => h i (List.mem_cons_of_mem _ hi)
    exact hitem.append hrest

end Passes

/-! ## Reading what is written -/

theorem Inside.passes (item : Inside) : Passes .double .double item.written item.value := by
  cases item with
  | plain c h =>
    have hc : c ≠ '"' ∧ c ≠ '\\' := by simpa [Quoting.escapable] using h
    have hnext : Mode.double.next c = .double := by simp [Mode.next, hc]
    have htake (r : Reading) : Reading.take .double c r = r.prepend [c] := by
      simp only [Reading.take, hc, or_self, if_false]
      rfl
    have hpass := Passes.single .double c [c] rfl htake
    rwa [hnext] at hpass
  | escaped c h =>
    have htake (r : Reading) : Reading.take .doubleEscaped c r = r.prepend [c] := by
      simp only [Reading.take, h, if_true]
      rfl
    have hpass := Passes.single .doubleEscaped c [c] rfl htake
    exact Passes.mark .double '\\' rfl (fun _ => rfl) hpass
  | backslash c h =>
    have htake (r : Reading) : Reading.take .doubleEscaped c r = r.prepend ['\\', c] := by
      simp only [Reading.take, h, Bool.false_eq_true, if_false]
      rfl
    have hpass := Passes.single .doubleEscaped c ['\\', c] rfl htake
    exact Passes.mark .double '\\' rfl (fun _ => rfl) hpass

theorem passes_single {body : List Char} (h : '\'' ∉ body) : Passes .single .single body body := by
  induction body with
  | nil => exact Passes.nil .single
  | cons c rest ih =>
    rw [List.mem_cons, not_or] at h
    obtain ⟨hc, hrest⟩ := h
    have hnext : Mode.single.next c = .single := by simp [Mode.next, Ne.symm hc]
    have htake (r : Reading) : Reading.take .single c r = r.prepend [c] := by
      simp only [Reading.take, Ne.symm hc, if_false]
      rfl
    have hpass := Passes.single .single c [c] rfl htake
    rw [hnext] at hpass
    exact hpass.append (ih hrest)

theorem Fragment.passes (fragment : Fragment) :
    Passes .bare .bare fragment.written fragment.value := by
  cases fragment with
  | plain c h =>
    have hc : Text.isBlank c = false ∧ c ≠ '\'' ∧ c ≠ '"' ∧ c ≠ '\\' ∧ c ≠ '|' := by
      simpa [isPlain, and_assoc] using h
    have hnext : Mode.bare.next c = .bare := by simp [Mode.next, hc]
    have hbar : Mode.bare.atBar c = false := by simp [Mode.atBar, hc]
    have htake (r : Reading) : Reading.take .bare c r = r.prepend [c] := by
      simp only [Reading.take, hc, or_self, if_false, Bool.false_eq_true]
      rfl
    have hpass := Passes.single .bare c [c] hbar htake
    rwa [hnext] at hpass
  | escaped c =>
    have hpass := Passes.single .escaped c [c] rfl fun _ => rfl
    exact Passes.mark .bare '\\' rfl (fun _ => rfl) hpass
  | single body h =>
    have hclose := Passes.single .single '\'' [] rfl fun _ => rfl
    have hpass := (passes_single h).append hclose
    rw [List.append_nil] at hpass
    exact Passes.mark .bare '\'' rfl (fun _ => rfl) hpass
  | double body =>
    have hbody := Passes.flatMap body fun item _ => item.passes
    have hclose := Passes.single .double '"' [] rfl fun _ => rfl
    have hpass := hbody.append hclose
    rw [List.append_nil] at hpass
    exact Passes.mark .bare '"' rfl (fun _ => rfl) hpass

theorem passes_row (row : List Fragment) :
    Passes .bare .bare (row.flatMap Fragment.written) (row.flatMap Fragment.value) :=
  Passes.flatMap row fun fragment _ => fragment.passes

/-- A blank ends the word; it is neither a quote nor a backslash nor a bar. -/
theorem Blank.facts (b : Blank) :
    b.val ≠ '\'' ∧ b.val ≠ '"' ∧ b.val ≠ '\\' ∧ b.val ≠ '|' := by
  refine ⟨?_, ?_, ?_, ?_⟩
  all_goals
    intro h
    have hblank := b.property
    rw [h] at hblank
    exact absurd hblank (by decide)

theorem Cut.scan_blank (b : Blank) (rest : List Char) :
    scan .bare (b.val :: rest) = (scan .bare rest).push b.val := by
  obtain ⟨hsingle, hdouble, hslash, hbar⟩ := b.facts
  have hnext : Mode.bare.next b.val = .bare := by simp [Mode.next, hsingle, hdouble, hslash]
  rw [scan_cons (by simp [Mode.atBar, hbar]), hnext]

theorem Reading.scan_blank (b : Blank) (rest : List Char) :
    scan .bare (b.val :: rest) = (scan .bare rest).breakWord := by
  obtain ⟨hsingle, hdouble, hslash, _⟩ := b.facts
  have hnext : Mode.bare.next b.val = .bare := by simp [Mode.next, hsingle, hdouble, hslash]
  rw [scan, hnext]
  simp [take, hsingle, hdouble, hslash, b.property]

/-- A written stage holds no bar between stages. -/
theorem Form.cut_writtenOthers (others : List (Blank × List Fragment)) (rest : List Char) :
    Cut.scan .bare (writtenOthers others ++ rest) =
      (Cut.scan .bare rest).prepend (writtenOthers others) := by
  induction others with
  | nil => rfl
  | cons row others ih =>
    have hrow := (passes_row row.2).cut (writtenOthers others ++ rest)
    simp only [writtenOthers, List.flatMap_cons, List.cons_append, List.append_assoc] at hrow ih ⊢
    rw [Cut.scan_blank, hrow, ih]
    simp [Cut.prepend, Cut.push]

theorem Form.cut_written (form : Form) (rest : List Char) :
    Cut.scan .bare (form.written ++ rest) = (Cut.scan .bare rest).prepend form.written := by
  rw [written, List.append_assoc, (passes_row form.first).cut, cut_writtenOthers]
  simp [Cut.prepend]

theorem Reading.words_prepend_breakWord (value : List Char) (r : Reading) :
    (r.breakWord.prepend value).words = ([value].filter (· ≠ [])) ++ r.words := by
  by_cases h : value = []
  · simp [breakWord, prepend, words, h]
  · simp [breakWord, prepend, words, h]

theorem Form.reading_writtenOthers (value : List Char) (others : List (Blank × List Fragment)) :
    ((Reading.scan .bare (writtenOthers others)).prepend value).words =
      ([value].filter (· ≠ [])) ++ wordsOfRows (others.map Prod.snd) := by
  induction others generalizing value with
  | nil =>
    by_cases h : value = []
    · simp [writtenOthers, Reading.scan, Reading.atEnd, Reading.prepend, Reading.words, wordsOfRows,
        h]
    · simp [writtenOthers, Reading.scan, Reading.atEnd, Reading.prepend, Reading.words, wordsOfRows,
        h]
  | cons row others ih =>
    have hwritten : writtenOthers (row :: others) =
        row.1.val :: (row.2.flatMap Fragment.written ++ writtenOthers others) := by
      simp [writtenOthers]
    rw [hwritten, Reading.scan_blank, Reading.words_prepend_breakWord, (passes_row row.2).reading,
      ih, List.map_cons, wordsOfRows_cons]

theorem wordsOf_written (form : Form) : wordsOf form.written = form.words := by
  have hread := (passes_row form.first).reading (Form.writtenOthers form.others)
  rw [wordsOf_eq_scan, Form.written, hread, Form.reading_writtenOthers, Form.words,
    Form.wordsOfRows_cons]

theorem segmentsOf_writtenLine {forms : List Form} (h : forms ≠ []) :
    segmentsOf (writtenLine forms) = forms.map Form.written := by
  induction forms with
  | nil => exact absurd rfl h
  | cons form others ih =>
    rw [segmentsOf_eq_scan] at ih ⊢
    cases others with
    | nil =>
      have hcut := form.cut_written []
      rw [List.append_nil] at hcut
      simp [writtenLine, Text.join, hcut, Cut.scan_nil, Cut.prepend, Cut.segments]
    | cons next others =>
      have hline : writtenLine (form :: next :: others) =
          form.written ++ '|' :: writtenLine (next :: others) := rfl
      rw [hline, form.cut_written, Cut.scan_bar, ih (List.cons_ne_nil _ _)]
      simp [Cut.prepend, Cut.segments]

/-! ## Every line that leaves nothing open is written -/

/-- A reader inside single quotes that ends outside quotes has met the closing quote. -/
theorem exists_single {rest : List Char} (h : Mode.single.after rest = .bare) :
    ∃ body after, rest = body ++ '\'' :: after ∧ '\'' ∉ body ∧ Mode.bare.after after = .bare := by
  induction rest with
  | nil => cases h
  | cons c rest ih =>
    rw [Mode.after_cons] at h
    by_cases hc : c = '\''
    · subst hc
      exact ⟨[], rest, rfl, List.not_mem_nil, h⟩
    · have hnext : Mode.single.next c = .single := by simp [Mode.next, hc]
      rw [hnext] at h
      obtain ⟨body, after, rfl, hbody, hafter⟩ := ih h
      refine ⟨c :: body, after, rfl, ?_, hafter⟩
      simp [hbody, Ne.symm hc]

/-- A reader inside double quotes that ends outside quotes has met the closing quote. -/
theorem exists_double : (rest : List Char) → Mode.double.after rest = .bare →
    ∃ (body : List Inside) (after : List Char),
      rest = body.flatMap Inside.written ++ '"' :: after ∧ Mode.bare.after after = .bare
  | [], h => by cases h
  | [c], h => by
    by_cases hc : c = '"'
    · subst hc
      exact ⟨[], [], rfl, rfl⟩
    · by_cases hslash : c = '\\'
      · subst hslash
        cases h
      · simp [Mode.next, hc, hslash] at h
  | c :: d :: rest, h => by
    rw [Mode.after_cons] at h
    by_cases hc : c = '"'
    · subst hc
      exact ⟨[], d :: rest, rfl, h⟩
    · by_cases hslash : c = '\\'
      · subst hslash
        -- the backslash takes the next character with it, whether it escapes it or not
        obtain ⟨body, after, rfl, hafter⟩ := exists_double rest h
        cases hd : Quoting.escapable d with
        | true => exact ⟨.escaped d hd :: body, after, rfl, hafter⟩
        | false => exact ⟨.backslash d hd :: body, after, rfl, hafter⟩
      · have hnext : Mode.double.next c = .double := by simp [Mode.next, hc, hslash]
        rw [hnext] at h
        obtain ⟨body, after, hrest, hafter⟩ := exists_double (d :: rest) h
        have hplain : Quoting.escapable c = false := by simp [Quoting.escapable, hc, hslash]
        exact ⟨.plain c hplain :: body, after, by rw [hrest]; rfl, hafter⟩

/-- A fragment in front of a line is a fragment in front of its first stage. -/
theorem exists_push (fragment : Fragment) {line : List Char}
    (h : ∃ forms : List Form, forms ≠ [] ∧ writtenLine forms = line) :
    ∃ forms : List Form, forms ≠ [] ∧ writtenLine forms = fragment.written ++ line := by
  obtain ⟨forms, hforms, rfl⟩ := h
  cases forms with
  | nil => exact absurd rfl hforms
  | cons form others =>
    refine ⟨form.push fragment :: others, List.cons_ne_nil _ _, ?_⟩
    cases others with
    | nil => simp [writtenLine, Text.join, Form.written_push]
    | cons next others => simp [writtenLine, Text.join, Form.written_push]

/-- A blank in front of a line is a blank in front of its first stage. -/
theorem exists_pushBlank (b : Blank) {line : List Char}
    (h : ∃ forms : List Form, forms ≠ [] ∧ writtenLine forms = line) :
    ∃ forms : List Form, forms ≠ [] ∧ writtenLine forms = b.val :: line := by
  obtain ⟨forms, hforms, rfl⟩ := h
  cases forms with
  | nil => exact absurd rfl hforms
  | cons form others =>
    refine ⟨form.pushBlank b :: others, List.cons_ne_nil _ _, ?_⟩
    cases others with
    | nil => simp [writtenLine, Text.join, Form.written_pushBlank]
    | cons next others => simp [writtenLine, Text.join, Form.written_pushBlank]

/-- A bar in front of a line is an empty stage before the others. -/
theorem exists_bar {line : List Char}
    (h : ∃ forms : List Form, forms ≠ [] ∧ writtenLine forms = line) :
    ∃ forms : List Form, forms ≠ [] ∧ writtenLine forms = '|' :: line := by
  obtain ⟨forms, hforms, rfl⟩ := h
  cases forms with
  | nil => exact absurd rfl hforms
  | cons form others => exact ⟨⟨[], []⟩ :: form :: others, List.cons_ne_nil _ _, rfl⟩

/-- Every line that ends outside quotes with no backslash left over is written in some way. -/
theorem exists_forms (line : List Char) (h : Mode.bare.after line = .bare) :
    ∃ forms : List Form, forms ≠ [] ∧ writtenLine forms = line := by
  -- a quoted text is taken away as a whole, so the induction is on the length of the line
  induction hlength : line.length using Nat.strongRecOn generalizing line with
  | ind n ih =>
    subst hlength
    cases line with
    | nil => exact ⟨[⟨[], []⟩], List.cons_ne_nil _ _, rfl⟩
    | cons c rest =>
      rw [Mode.after_cons] at h
      by_cases hsingle : c = '\''
      · subst hsingle
        obtain ⟨body, after, rfl, hbody, hafter⟩ := exists_single h
        have hforms := ih after.length
          (by simp only [List.length_append, List.length_cons]; omega) after hafter rfl
        simpa [Fragment.written] using exists_push (.single body hbody) hforms
      by_cases hdouble : c = '"'
      · subst hdouble
        obtain ⟨body, after, rfl, hafter⟩ := exists_double rest h
        have hforms := ih after.length
          (by simp only [List.length_append, List.length_cons]; omega) after hafter rfl
        simpa [Fragment.written] using exists_push (.double body) hforms
      by_cases hslash : c = '\\'
      · subst hslash
        cases rest with
        | nil => cases h
        | cons d rest =>
          have hforms := ih rest.length (by simp only [List.length_cons]; omega) rest h rfl
          exact exists_push (.escaped d) hforms
      have hnext : Mode.bare.next c = .bare := by simp [Mode.next, hsingle, hdouble, hslash]
      rw [hnext] at h
      have hforms := ih rest.length (by simp) rest h rfl
      by_cases hbar : c = '|'
      · subst hbar
        exact exists_bar hforms
      cases hblank : Text.isBlank c with
      | true => exact exists_pushBlank ⟨c, hblank⟩ hforms
      | false =>
        have hplain : isPlain c = true := by
          simp [isPlain, hblank, hsingle, hdouble, hslash, hbar]
        exact exists_push (.plain c hplain) hforms

theorem Form.after_writtenOthers (others : List (Blank × List Fragment)) :
    Mode.bare.after (writtenOthers others) = .bare := by
  induction others with
  | nil => rfl
  | cons row others ih =>
    obtain ⟨hsingle, hdouble, hslash, _⟩ := row.1.facts
    have hnext : Mode.bare.next row.1.val = .bare := by simp [Mode.next, hsingle, hdouble, hslash]
    have hwritten : writtenOthers (row :: others) =
        row.1.val :: (row.2.flatMap Fragment.written ++ writtenOthers others) := by
      simp [writtenOthers]
    rw [hwritten, Mode.after_cons, hnext, Mode.after_append, (passes_row row.2).mode, ih]

theorem Form.after_written (form : Form) : Mode.bare.after form.written = .bare := by
  rw [written, Mode.after_append, (passes_row form.first).mode, after_writtenOthers]

/-- A written line leaves nothing open. -/
theorem after_writtenLine (forms : List Form) : Mode.bare.after (writtenLine forms) = .bare := by
  induction forms with
  | nil => rfl
  | cons form others ih =>
    cases others with
    | nil => exact form.after_written
    | cons next others =>
      have hline : writtenLine (form :: next :: others) =
          form.written ++ '|' :: writtenLine (next :: others) := rfl
      rw [hline, Mode.after_append, form.after_written, Mode.after_cons, Mode.next_bare_bar, ih]

/-! ## Writing and reading -/

/-- A stage written with every character escaped and a space before every word. -/
def Form.escaping (words : List (List Char)) : Form :=
  ⟨[], words.map fun word => (⟨' ', by decide⟩, word.map Fragment.escaped)⟩

theorem Form.words_escaping {words : List (List Char)} (h : [] ∉ words) :
    (escaping words).words = words := by
  have hvalue (word : List Char) : (word.map Fragment.escaped).flatMap Fragment.value = word := by
    induction word with
    | nil => rfl
    | cons c rest ih => exact congrArg (c :: ·) ih
  have hrows : wordsOfRows ((escaping words).others.map Prod.snd) = words.filter (· ≠ []) := by
    simp [wordsOfRows, escaping, Function.comp_def, hvalue]
  have hkeep : words.filter (· ≠ []) = words := by
    rw [List.filter_eq_self]
    intro word hmem
    have hne : word ≠ [] := fun hnil => h (hnil ▸ hmem)
    simpa using hne
  rw [Form.words, wordsOfRows_cons, hrows, hkeep]
  rfl

/-- Words written in any way are read back: the stages of a line that is not blank are those of the
words that it renders. Every list of stages without empty words can be written, and a line renders
some stages exactly if it ends outside quotes with no backslash left over. -/
theorem renders_ofLine :
    (∀ (stages : List (List (List Char))) (line : String), Renders stages line.toList →
      Text.isBlankText line.toList = false →
      Pipeline.ofLine line = ⟨stages.map fun words => Stage.ofWords (words.map String.ofList)⟩) ∧
    (∀ stages : List (List (List Char)), stages ≠ [] → (∀ words ∈ stages, [] ∉ words) →
      ∃ line : String, Renders stages line.toList) ∧
    (∀ line : String, (∃ stages, Renders stages line.toList) ↔
      Mode.bare.after line.toList = .bare) := by
  refine ⟨?_, ?_, ?_⟩
  · intro stages line hrenders hblank
    obtain ⟨forms, hforms, hwords, hline⟩ := hrenders
    have hsegments : segmentsOf line.toList = forms.map Form.written := by
      rw [← hline, segmentsOf_writtenLine hforms]
    have hstage (form : Form) :
        Stage.ofSegment form.written = Stage.ofWords (form.words.map String.ofList) := by
      rw [Stage.ofSegment, wordsOf_written]
    rw [Pipeline.ofLine, hblank, hsegments, ← hwords]
    simp [Function.comp_def, hstage]
  · intro stages hstages hnonempty
    have hwords : (stages.map Form.escaping).map Form.words = stages := by
      rw [List.map_map]
      conv => rhs; rw [← List.map_id stages]
      apply List.map_congr_left
      intro words hmem
      exact Form.words_escaping (hnonempty words hmem)
    refine ⟨String.ofList (writtenLine (stages.map Form.escaping)), stages.map Form.escaping, ?_,
      hwords, String.toList_ofList.symm⟩
    simpa using hstages
  · intro line
    constructor
    · rintro ⟨stages, forms, _, _, hline⟩
      rw [← hline]
      exact after_writtenLine forms
    · intro h
      obtain ⟨forms, hforms, hline⟩ := exists_forms line.toList h
      exact ⟨forms.map Form.words, forms, hforms, rfl, hline⟩

end PipelineShell
