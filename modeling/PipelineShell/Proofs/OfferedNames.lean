import PipelineShell.Proofs.Questions
import PipelineShell.Proofs.Rendering
import PipelineShell.Proofs.Rewording
import PipelineShell.Proofs.Segments
import PipelineShell.Proofs.Words

/-!
# Names that completion offers

Completion puts the names of commands into the line as they are, and a line gives a meaning to quotes,
backslashes, blanks, bars and operators. A name without any of them is read back as the one word that it
is, and no other name is (`ofLine_eq_command_iff`). Whatever is offered stands for a command
(`offered_ofLine_iff`).
-/

namespace PipelineShell

/-- A name that means itself in a line: it is made of characters that do, and it is no operator. -/
def PlainName (name : String) : Prop :=
  (∀ c ∈ name.toList, isPlain c = true) ∧ Operator.ofWord? name = none

instance (name : String) : Decidable (PlainName name) :=
  decidable_of_iff (name.toList.all isPlain = true ∧ (Operator.ofWord? name).isNone = true)
    (by simp [PlainName])

/-- What stands behind a match: nothing, or a space. -/
def AtMostSpace (tail : List Char) : Prop := tail = [] ∨ tail = [' ']

variable {word tail : List Char} {c : Char}

/-! ## Plain words are read as they are -/

theorem passes_plain (h : ∀ c ∈ word, isPlain c = true) : Passes .bare .bare word word := by
  have hpass := Passes.flatMap word fun c hc => (Fragment.plain c (h c hc)).passes
  simpa [Fragment.written, Fragment.value] using hpass

theorem segmentsOf_plain (htail : AtMostSpace tail) (h : ∀ c ∈ word, isPlain c = true) :
    segmentsOf (word ++ tail) = [word ++ tail] := by
  rw [segmentsOf_eq_scan, (passes_plain h).cut]
  rcases htail with rfl | rfl
  · rfl
  · rfl

theorem wordsOf_plain (htail : AtMostSpace tail) (hne : word ≠ []) (h : ∀ c ∈ word, isPlain c = true) :
    wordsOf (word ++ tail) = [word] := by
  have hrest : Reading.scan .bare tail = ⟨[], [], true⟩ := by
    rcases htail with rfl | rfl
    · rfl
    · rfl
  rw [wordsOf_eq_scan, (passes_plain h).reading, hrest]
  simp [Reading.prepend, Reading.words, hne]

/-! ## What is read as it is, is plain -/

/-- A character that a reader outside quotes leaves out. -/
def Dropped (c : Char) : Prop := c = '\'' ∨ c = '"' ∨ c = '\\' ∨ Text.isBlank c = true

theorem Reading.scan_kept (h : ¬Dropped c) (text : List Char) :
    scan .bare (c :: text) = (scan .bare text).push c := by
  simp only [Dropped, not_or] at h
  have hnext : Mode.bare.next c = .bare := by simp [Mode.next, h]
  rw [scan, hnext]
  simp [take, h]

theorem Reading.taken_scan_blank (h : Text.isBlank c = true) (text : List Char) :
    (scan .bare (c :: text)).taken = (scan .bare text).taken := by
  rw [scan_blank ⟨c, h⟩, taken_breakWord]

theorem Reading.taken_scan_sublist (q : Quoting) (text : List Char) :
    (scan (.ofQuoting q) text).taken.Sublist text := by
  rw [← ofText_eq_scan]
  exact taken_sublist q text

theorem Reading.taken_scan_dropped (h : Dropped c) (text : List Char) :
    (scan .bare (c :: text)).taken.Sublist text := by
  rcases h with rfl | rfl | rfl | hblank
  · exact taken_scan_sublist .single text
  · exact taken_scan_sublist .double text
  · cases text with
    | nil => exact taken_scan_sublist .bare []
    | cons d after => exact (taken_scan_sublist .bare after).cons_cons d
  · rw [taken_scan_blank hblank]
    exact taken_scan_sublist .bare text

theorem eq_of_cons_eq_concat {c d : Char} {text : List Char} (h : c :: text = text ++ [d]) : c = d := by
  induction text generalizing c with
  | nil => exact (List.cons.inj h).1
  | cons e rest ih =>
    obtain ⟨rfl, hrest⟩ := List.cons.inj h
    exact ih hrest

/-- Where a reader takes over a word as it stands, it leaves nothing of it out. It could only make up for
what it leaves out with the space behind the word, and then the word is blank. -/
theorem not_dropped_of_taken (htail : AtMostSpace tail)
    (h : (Reading.scan .bare (word ++ tail)).taken = word) : ∀ c ∈ word, ¬Dropped c := by
  induction word with
  | nil => exact fun c hc => nomatch hc
  | cons c rest ih =>
    by_cases hc : Dropped c
    · exfalso
      have hsublist := Reading.taken_scan_dropped hc (rest ++ tail)
      rw [← List.cons_append, h] at hsublist
      rcases htail with rfl | rfl
      · simpa using hsublist.length_le
      · have hspaces : c :: rest = rest ++ [' '] := hsublist.eq_of_length (by simp)
        obtain rfl : c = ' ' := eq_of_cons_eq_concat hspaces
        rw [List.cons_append, ← hspaces, Reading.taken_scan_blank (by decide),
          Reading.taken_scan_blank (by decide)] at h
        have hshort : (Reading.scan .bare rest).taken.length ≤ rest.length :=
          (Reading.taken_scan_sublist .bare rest).length_le
        rw [h] at hshort
        simp at hshort
    · rw [List.cons_append, Reading.scan_kept hc, Reading.taken_push] at h
      exact List.forall_mem_cons.2 ⟨hc, ih (List.cons.inj h).2⟩

/-- A text that is not cut has no bar among characters that nothing is left out of. -/
theorem bar_notMem_of_whole (h : Cut.Whole .bare (word ++ tail)) (hkept : ∀ c ∈ word, ¬Dropped c) :
    '|' ∉ word := by
  induction word with
  | nil => exact List.not_mem_nil
  | cons c rest ih =>
    obtain ⟨hc, hrest⟩ := List.forall_mem_cons.1 hkept
    simp only [Dropped, not_or] at hc
    obtain ⟨hbar, hwhole⟩ := Cut.whole_cons_iff.1 h
    have hnext : Mode.bare.next c = .bare := by simp [Mode.next, hc]
    have hne : c ≠ '|' := by simpa [Mode.atBar] using hbar
    rw [hnext] at hwhole
    simp [ih hwhole hrest, Ne.symm hne]

theorem plain_of_kept (hkept : ∀ c ∈ word, ¬Dropped c) (hbar : '|' ∉ word) :
    ∀ c ∈ word, isPlain c = true := by
  intro c hc
  have hdropped := hkept c hc
  have hne : c ≠ '|' := fun h => hbar (h ▸ hc)
  simp only [Dropped, not_or, Bool.not_eq_true] at hdropped
  simp [isPlain, hdropped, hne]

/-! ## Lines with one command -/

namespace Stage

/-- Words make a command alone if they are that command and no operator. -/
theorem ofWords_eq_command_iff {words : List String} {name : String} :
    ofWords words = ⟨[name], [], []⟩ ↔ words = [name] ∧ Operator.ofWord? name = none := by
  constructor
  · intro h
    have hargv : (Extraction.ofWords words).argv = [name] := congrArg Stage.argv h
    have hredirections : (Extraction.ofWords words).redirections = [] := congrArg Stage.redirections h
    have hleftover : (Extraction.ofWords words).leftover = none := by
      have hdiagnostics : (Extraction.ofWords words).diagnostics = [] := congrArg Stage.diagnostics h
      simpa [Extraction.diagnostics] using hdiagnostics
    have hlength := Extraction.length_eq words
    rw [hargv, hredirections, hleftover] at hlength
    have hsame := (Extraction.argv_sublist words).eq_of_length (by rw [hargv, hlength]; rfl)
    have hmem : name ∈ (Extraction.ofWords words).argv := by simp [hargv]
    exact ⟨hsame.symm.trans hargv, Extraction.ofWord?_of_mem_argv hmem⟩
  · rintro ⟨rfl, hname⟩
    rw [ofWords, Extraction.ofWords_plain hname]
    rfl

end Stage

theorem wordsOf_of_blank {text : List Char} (h : Text.isBlankText text = true) : wordsOf text = [] := by
  rw [wordsOf_eq_scan, (Session.scan_of_blank h).2]

/-- A line is one command and nothing else if it is one segment with one word that is no operator. -/
theorem ofLine_eq_singleton_iff {line name : String} :
    Pipeline.ofLine line = ⟨[⟨[name], [], []⟩]⟩ ↔
      segmentsOf line.toList = [line.toList] ∧ wordsOf line.toList = [name.toList] ∧
        Operator.ofWord? name = none := by
  have hwords : (wordsOf line.toList).map String.ofList = [name] ↔
      wordsOf line.toList = [name.toList] := by
    rw [List.map_eq_singleton_iff]
    constructor
    · rintro ⟨word, hword, rfl⟩
      rw [hword, String.toList_ofList]
    · exact fun hword => ⟨name.toList, hword, String.ofList_toList⟩
  unfold Pipeline.ofLine
  split
  · next hblank => simp [wordsOf_of_blank hblank]
  · rw [Pipeline.mk.injEq, List.map_eq_singleton_iff, ← hwords, ← Stage.ofWords_eq_command_iff]
    constructor
    · rintro ⟨segment, hsegment, hstage⟩
      have hjoin := join_segmentsOf line.toList
      rw [hsegment] at hjoin
      obtain rfl : segment = line.toList := hjoin
      exact ⟨hsegment, hstage⟩
    · rintro ⟨hsegment, hstage⟩
      exact ⟨line.toList, hsegment, hstage⟩

/-- A name that is put into a line, with or without a space after it, is read back as the command that it
names exactly if it is plain. -/
theorem ofLine_eq_command_iff {name line : String} (hne : name ≠ "")
    (hline : line = name ∨ line = name ++ " ") :
    Pipeline.ofLine line = ⟨[⟨[name], [], []⟩]⟩ ↔ PlainName name := by
  obtain ⟨tail, htail, hchars⟩ : ∃ tail, AtMostSpace tail ∧ line.toList = name.toList ++ tail := by
    rcases hline with rfl | rfl
    · exact ⟨[], .inl rfl, (List.append_nil _).symm⟩
    · exact ⟨[' '], .inr rfl, String.toList_append⟩
  rw [ofLine_eq_singleton_iff, hchars]
  constructor
  · rintro ⟨hsegments, hwords, hoperator⟩
    have htaken : (Reading.scan .bare (name.toList ++ tail)).taken = name.toList := by
      rw [← Reading.flatten_words, ← wordsOf_eq_scan, hwords, List.flatten_singleton]
    have hkept := not_dropped_of_taken htail htaken
    have hbar := bar_notMem_of_whole (segmentsOf_eq_singleton_iff.1 hsegments) hkept
    exact ⟨plain_of_kept hkept hbar, hoperator⟩
  · rintro ⟨hplain, hoperator⟩
    have hletters : name.toList ≠ [] := by simpa using hne
    exact ⟨segmentsOf_plain htail hplain, wordsOf_plain htail hletters hplain, hoperator⟩

/-! ## Completed lines -/

/-- What is offered is a candidate, with or without a space after it. -/
theorem Completer.mem_offered_iff {names : List String} {r : String} :
    r ∈ offered names ↔ ∃ name ∈ names, r = if names.length = 1 then name ++ " " else name := by
  simp only [offered, List.mem_map, eq_comm]

theorem Completer.mem_found_of_mem_map {found : Completer} {questions : List Question} {r : String}
    (h : .ok (some r) ∈ questions.map fun l => found.nth l.number) : r ∈ found.found := by
  obtain ⟨l, -, hl⟩ := List.mem_map.1 h
  exact List.mem_of_getElem? (Except.ok.inj hl)

theorem Question.not_pastCommand {q : Question} (h : q.position = 0) : ¬q.PastCommand := by
  simp [Question.PastCommand, h]

/-- A match for the word at the start of a line is the name of a command of that moment, with a space
after it if it is the only one. A line of the match alone is that command and nothing else exactly if the
name is plain. -/
theorem Completer.offered_ofLine_iff (host : Host) (completer : Completer) {q : Question}
    {later : List Question} {names : List String} {r : String}
    (hnamed : q.session.files.WellNamed) (hzero : q.number = 0) (hposition : q.position = 0)
    (hlater : ∀ l ∈ later, 0 < l.number)
    (hnames : (q.session.candidates host q.text).2 = .ok names)
    (hr : .ok (some r) ∈ (completer.askAll host (q :: later)).2) :
    ∃ name ∈ names, (r = if names.length = 1 then name ++ " " else name) ∧
      q.session.Finds host name ∧
        (Pipeline.ofLine r = ⟨[⟨[name], [], []⟩]⟩ ↔ PlainName name) := by
  have hfound := lookUp_of_command host (Question.not_pastCommand hposition) hposition.ge
  rw [hnames] at hfound
  rw [askAll_of_ok completer hzero hfound hlater] at hr
  obtain ⟨name, hname, hmatch⟩ := mem_offered_iff.1 (mem_found_of_mem_map hr)
  obtain ⟨-, hbare, hfinds⟩ := Session.found_of_candidates hnamed hnames hname
  have hline : r = name ∨ r = name ++ " " := by
    rw [hmatch]
    split
    · exact .inr rfl
    · exact .inl rfl
  exact ⟨name, hname, hmatch, hfinds, ofLine_eq_command_iff hbare.full hline⟩

/-- A program that is the only one of its letters. -/
theorem Completer.offered_ofLine_iff_upper :
    let searching := { Small.session with environment := ⟨[("PATH", "/")]⟩ }
    let asked : Question := ⟨searching, "up", 0, "up", 0⟩
    .ok (some "upper ") ∈ ((⟨[]⟩ : Completer).askAll Small.host [asked]).2 ∧
      Pipeline.ofLine "upper " = ⟨[⟨["upper"], [], []⟩]⟩ := by
  intro searching asked
  have hnamed : asked.session.files.WellNamed := FileTree.wellNamed_of_entries (by decide)
  have hnames : (asked.session.candidates Small.host asked.text).2 = .ok ["upper"] := by
    decide +kernel
  have hanswer : .ok (some "upper ") ∈ ((⟨[]⟩ : Completer).askAll Small.host [asked]).2 := by
    decide +kernel
  obtain ⟨name, hname, -, -, hiff⟩ := offered_ofLine_iff Small.host ⟨[]⟩ hnamed rfl rfl
    (fun l hl => absurd hl List.not_mem_nil) hnames hanswer
  obtain rfl : name = "upper" := List.mem_singleton.1 hname
  exact ⟨hanswer, hiff.2 (by decide)⟩

/-- A program with a blank in its name is offered, and the line is another command with an argument. -/
theorem Completer.offered_torn :
    let torn : Session :=
      { Small.session with
        files := ⟨[(["a b"], .file Small.catImage 0o755)], []⟩
        environment := ⟨[("PATH", "/")]⟩ }
    (torn.candidates Small.host "a").2 = .ok ["a b"] ∧
      ((⟨[]⟩ : Completer).askAll Small.host [⟨torn, "a", 0, "a", 0⟩]).2 = [.ok (some "a b ")] ∧
      Pipeline.ofLine "a b " = ⟨[⟨["a", "b"], [], []⟩]⟩ := by
  intro torn
  exact ⟨by decide +kernel, by decide +kernel, by decide +kernel⟩

end PipelineShell
