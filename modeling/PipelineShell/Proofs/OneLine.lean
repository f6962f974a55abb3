import PipelineShell.Proofs.Depth
import PipelineShell.Proofs.Logging

/-!
# One line as a whole dialogue

A line can be given as an argument, or it can be all of the input of a dialogue. The reader of lines
then takes the whole input in before the line runs (`LineReader.next_line`), so the line finds the
terminal empty either way, and it does and shows the same; the dialogue adds its prompts
(`runShell_one_line`). They differ where the line fails in a way that the shell has no rule for: the
dialogue reports that and goes on.
-/

namespace PipelineShell

namespace LineReader

open Text

/-! ## Reading one line -/

theorem unifyEnds_of_notMem {text : List Char} (h : '\r' ∉ text) : unifyEnds text = text := by
  induction text with
  | nil => rfl
  | cons c rest ih =>
    obtain ⟨hc, hrest⟩ := not_or.1 (List.mem_cons.not.1 h)
    unfold unifyEnds
    split
    · next h => cases h
    · next h =>
      cases h
      exact absurd rfl hc
    · next h =>
      cases h
      exact absurd rfl hc
    · next h =>
      cases h
      rw [ih hrest]

theorem plain_of_notMem {text : List Char} (h : '\n' ∉ text) :
    ∀ c ∈ text, decide (c ≠ '\n') = true := by
  intro c hc
  simpa using ne_of_mem_of_not_mem hc h

theorem line?_of_notMem {r : LineReader} (h : '\n' ∉ r.waiting) : r.line? = none := by
  have hdrop : (r.waiting ++ []).dropWhile (fun c => decide (c ≠ '\n')) =
      ([] : List Char).dropWhile fun c => decide (c ≠ '\n') :=
    List.dropWhile_append_of_pos (plain_of_notMem h)
  rw [List.append_nil, List.dropWhile_nil] at hdrop
  unfold line?
  rw [hdrop]

theorem line?_append {text : List Char} (h : '\n' ∉ text) (rest : List Char) (returned : Bool)
    (tail : Bytes) :
    line? ⟨text ++ '\n' :: rest, returned, tail⟩ = some (text, ⟨rest, returned, tail⟩) := by
  unfold line?
  simp only [List.takeWhile_append_of_pos (plain_of_notMem h),
    List.dropWhile_append_of_pos (plain_of_notMem h)]
  simp

/-- A piece of a text without carriage returns. -/
theorem take?_of_decodePiece? {r : LineReader} {piece : Bytes} {text : List Char} {tail : Bytes}
    (hreturned : r.returned = false) (htext : '\r' ∉ text)
    (h : decodePiece? (r.tail ++ piece) = some (text, tail)) :
    r.take? piece = some ⟨r.waiting ++ text, false, tail⟩ := by
  unfold take?
  rw [h]
  cases text with
  | nil =>
    obtain ⟨waiting, returned, before⟩ := r
    simp only at hreturned
    simp [hreturned]
  | cons c rest =>
    have hlast : (c :: rest).getLast? ≠ some '\r' := fun hlast => htext (List.mem_of_getLast? hlast)
    simp [hreturned, hlast, unifyEnds_of_notMem htext]

/-- The reader takes in pieces until the end of the line is there. What it has taken in is the start of
the line, and perhaps some bytes of the next character. -/
theorem next_of_waiting {text left : List Char} {tail input : Bytes} (hfeed : '\n' ∉ text ++ left)
    (hreturn : '\r' ∉ left) (hinput : tail ++ input = encodeChars (left ++ ['\n']))
    (htail : tail ≠ [] → input ≠ []) :
    next ⟨text, false, tail⟩ input = .line (text ++ left) empty [] := by
  induction hlength : input.length using Nat.strongRecOn generalizing text left tail input with
  | _ length ih =>
    have hne : input ≠ [] := by
      intro hnil
      have htailnil : tail = [] := by
        by_contra hsome
        exact htail hsome hnil
      have hlast : encodeChars (left ++ ['\n']) = encodeChars left ++ [10] := by
        simp only [encodeChars, List.flatMap_append]
        rfl
      rw [hnil, htailnil, hlast] at hinput
      exact absurd hinput.symm (by simp)
    have hwaiting : line? ⟨text, false, tail⟩ = none :=
      line?_of_notMem fun hmem => hfeed (List.mem_append_left left hmem)
    obtain ⟨j, tail', hpiece, hrest, hmore⟩ := decodePiece?_take (left ++ ['\n']) (tail.length + chunk)
    rw [← hinput, List.take_length_add_append] at hpiece
    rw [← hinput, List.drop_length_add_append] at hrest hmore
    have hreturn' : '\r' ∉ (left ++ ['\n']).take j := by
      intro hmem
      rcases List.mem_append.1 (List.mem_of_mem_take hmem) with hleft | hfeed
      · exact hreturn hleft
      · exact absurd hfeed (by decide)
    rw [next, hwaiting, dif_neg hne, take?_of_decodePiece? rfl hreturn' hpiece]
    simp only
    rcases Nat.lt_or_ge left.length j with hall | hpart
    · have hlong : (left ++ ['\n']).length ≤ j := by
        rw [List.length_append]
        exact hall
      rw [List.take_of_length_le hlong]
      rw [List.drop_of_length_le hlong] at hrest
      obtain ⟨rfl, hdrop⟩ := List.append_eq_nil_iff.1 hrest
      rw [hdrop, ← List.append_assoc, next, line?_append hfeed]
      rfl
    · rw [List.take_append_of_le_length hpart]
      rw [List.drop_append_of_le_length hpart] at hrest
      have hshorter : (input.drop chunk).length < length := by
        have hpos := List.length_pos_iff.2 hne
        simp only [List.length_drop, chunk]
        omega
      have hsame : text ++ left.take j ++ left.drop j = text ++ left := by
        rw [List.append_assoc, List.take_append_drop]
      rw [← hsame] at hfeed ⊢
      exact ih _ hshorter hfeed (fun hmem => hreturn (List.mem_of_mem_drop hmem)) hrest hmore rfl

/-- A line that is the whole input is read, and then there is nothing more. -/
theorem next_line {text : List Char} (hfeed : '\n' ∉ text) (hreturn : '\r' ∉ text) :
    next empty (encodeChars (text ++ ['\n'])) = .line text empty [] :=
  next_of_waiting hfeed hreturn rfl fun h => absurd rfl h

theorem next_nil : next empty [] = .ended := by
  rw [next]
  rfl

end LineReader

namespace Dialogue

/-! ## Dialogues of one line -/

variable {host : Host} {runner : Runner}

/-- A dialogue ends where the input does. -/
theorem followTerminal_nil (fuel : Nat) {d : Dialogue} (h : d.session.input = []) :
    followTerminal host runner fuel .empty d = (d.ask.print "\n", some 0) := by
  cases fuel with
  | zero => rfl
  | succ fuel =>
    have hnext : LineReader.empty.next d.ask.session.input = .ended := by
      change LineReader.empty.next d.session.input = .ended
      rw [h, LineReader.next_nil]
    simp only [followTerminal, hnext]

/-- A dialogue that has shown its first prompt and taken in all of its input. -/
def asked (host : Host) (s : Session) : Dialogue :=
  let d := (⟨s.note host .sessionStarted, 0, 0⟩ : Dialogue).ask
  { d with session := { d.session with input := [] } }

/-- What a dialogue comes to when a line has been dealt with and nothing is left of the input. -/
def settle : Dialogue × Option Nat → Dialogue × Option Nat
  | (d, some code) => (d, some code)
  | (d, none) => (d.ask.print "\n", some 0)

/-- A dialogue over a line that is the whole input: when the line runs, nothing is left to be read. -/
theorem holdTerminal_line {s : Session} {line : String} (hfeed : '\n' ∉ line.toList)
    (hreturn : '\r' ∉ line.toList) (hinput : s.input = Text.encode (line ++ "\n"))
    (hempty : ((asked host s).answer host runner (.line line)).1.session.input = []) :
    holdTerminal host runner s = settle ((asked host s).answer host runner (.line line)) := by
  have hnext : LineReader.empty.next
      (⟨s.note host .sessionStarted, 0, 0⟩ : Dialogue).ask.session.input =
        .line line.toList .empty [] := by
    change LineReader.empty.next (s.note host .sessionStarted).input = _
    rw [Session.note_input, hinput, Text.encode_eq, String.toList_append]
    exact LineReader.next_line hfeed hreturn
  simp only [holdTerminal, followTerminal, hnext, String.ofList_toList]
  change (match (asked host s).answer host runner (.line line) with
    | (d, some code) => (d, some code)
    | (d, none) => followTerminal host runner s.input.length .empty d) = _
  generalize (asked host s).answer host runner (.line line) = answered at hempty ⊢
  obtain ⟨d, code⟩ := answered
  cases code with
  | some code => rfl
  | none => exact followTerminal_nil _ hempty

end Dialogue

namespace Session

variable {host : Host} {s : Session} {line : String}

/-- What has been read to its end stays so. For on a host that uses the terminal in the other way a run
is in step, and there nothing could be the same otherwise. -/
theorem execute_input (host : Host) (line : String) (h : s.input = []) :
    (s.execute host line).1.input = [] := by
  have hhosts : host.SameButTerminal { host with sharesTerminal := !host.sharesTerminal } :=
    ⟨rfl, rfl, rfl, rfl⟩
  have hsame : Alongside host { host with sharesTerminal := !host.sharesTerminal } s s :=
    ⟨.refl s, .inr h⟩
  obtain ⟨-, -, hfeed⟩ := (inStep_sameButShown hhosts).execute hsame fun a _ => trivial
  exact hfeed.resolve_left (by simp)

theorem execute_ne_badRedirection (host : Host) (s : Session) (line : String) (command target : String)
    (e : SystemError) : (s.execute host line).2 ≠ .error (.badRedirection command target e) := by
  rw [execute_eq]
  generalize s.runLine host line = r
  obtain ⟨done, answer⟩ := r
  cases answer with
  | ok results => nofun
  | error stop => cases stop <;> nofun

/-- Nor does what a dialogue does with a line take anything from an input at its end. -/
theorem answer_input (host : Host) {d : Dialogue} (h : d.session.input = []) (line : String) :
    (d.answer host (Session.run host) (.line line)).1.session.input = [] := by
  have hdone := execute_input host line h
  have hanswer := execute_ne_badRedirection host d.session line
  unfold Dialogue.answer Session.run
  simp only
  generalize d.session.execute host line = r at hdone hanswer ⊢
  obtain ⟨done, answer⟩ := r
  cases answer with
  | ok status => exact hdone
  | error stop =>
    cases stop with
    | leave code => exact (note_input host done _).trans hdone
    | unwritten e => exact (note_input host done _).trans hdone
    | refused r => exact (note_input host done _).trans hdone
    | badRedirection command target e => exact absurd rfl (hanswer command target e)

/-- A record that the level leaves out is noted and nothing more. -/
theorem note_of_minor (installation : Installation) (nesting : Nat) {threshold : Nat} {event : Event}
    (h : event.level.rank < threshold) (s : Session) :
    s.note (commandHost installation nesting threshold) event =
      { s with journal := s.journal ++ [event] } := by
  simp only [note, commandHost]
  rw [if_neg (Nat.not_le.2 h)]

/-- How a dialogue over the terminal has ended. -/
def ended : Dialogue × Option Nat → Session × Ending
  | (d, some code) => (d.session, .status code)
  | (d, none) => (d.session, .garbled)

/-- The shell as a command, without arguments. -/
theorem runShell_dialogue {installation : Installation} {nesting : Nat}
    (hfile : s.environment.find? "LINESHELL_LOG_FILE" = none)
    (hlevel : s.environment.find? "LINESHELL_LOG_LEVEL" = none) :
    s.runShell installation nesting [] =
      let host := commandHost installation (nesting - 1) Level.warning.rank
      ended (Dialogue.holdTerminal host (Session.run host) (s.note host .ready)) := by
  have hsetUp : Log.setUp s none = (s, .ok (.terminal Level.warning.rank)) := by
    unfold Log.setUp Log.firstNonempty
    rw [hfile, Log.levelName_none hlevel]
    rfl
  have harguments : Usage.ofArguments [] = .run ⟨.dialogue, none⟩ := rfl
  unfold runShell
  rw [harguments]
  simp only [hsetUp]
  rfl

/-- How a dialogue of one line ends, next to the line alone, when the line has the given answer: the
prompts are added, and the dialogue goes on after a line that does not end it. -/
inductive HeldLike (once held : Session × Ending) : Except Stop Int → Prop
  | answered {status : Int} (honce : once.2 = .status status) (hheld : held.2 = .status 0)
      (hout : held.1.out = Text.encode prompt ++ once.1.out ++ Text.encode prompt ++ Text.encode "\n")
      (herr : held.1.err = once.1.err) : HeldLike once held (.ok status)
  | left {code : Nat} (honce : once.2 = .status code) (hheld : held.2 = .status code)
      (hout : held.1.out = Text.encode prompt ++ once.1.out) (herr : held.1.err = once.1.err) :
      HeldLike once held (.error (.leave code))
  | refused {r : Refusal} (record : Bytes) (honce : once.2 = .refused r) (hheld : held.2 = .status 0)
      (hout : held.1.out = Text.encode prompt ++ once.1.out ++ Text.encode prompt ++ Text.encode "\n")
      (herr : held.1.err = once.1.err ++ record ++ Text.encode ("lineshell: " ++ r.message ++ "\n")) :
      HeldLike once held (.error (.refused r))
  | unwritten {e : SystemError} (record : Bytes) (honce : once.2 = .unwritten e)
      (hheld : held.2 = .status 0)
      (hout : held.1.out = Text.encode prompt ++ once.1.out ++ Text.encode prompt ++ Text.encode "\n")
      (herr : held.1.err = once.1.err ++ record ++ Text.encode ("lineshell: " ++ e.message ++ "\n")) :
      HeldLike once held (.error (.unwritten e))

/-- After a fault there is a record and a report, and the dialogue goes on to the end of the input. -/
theorem settle_fault (installation : Installation) (nesting : Nat) (s : Session) (message : String) :
    let host := commandHost installation nesting Level.warning.rank
    let report := Text.encode ("lineshell: " ++ message ++ "\n")
    let held := ended
      (Dialogue.settle (⟨(s.note host (.fault message)).printError report, 1, 1⟩, none))
    held.1.files = s.files ∧ held.1.processPlace = s.processPlace ∧ held.2 = .status 0 ∧
      held.1.out = s.out ++ Text.encode prompt ++ Text.encode "\n" ∧
      held.1.err = s.err ++ Text.encode (Event.fault message).line ++ report :=
  ⟨rfl, rfl, rfl, rfl, rfl⟩

/-- A dialogue deals with a line as a run of the line alone does, if it has shown a prompt before and
nothing else. -/
theorem heldLike_settle (installation : Installation) (nesting : Nat) {u v : Session}
    (h : SameButShown u v) (hout : v.out = Text.encode prompt ++ u.out) (herr : v.err = u.err)
    (line : String) :
    let host := commandHost installation nesting Level.warning.rank
    let once := u.runOnce host line
    let held := ended
      (Dialogue.settle ((⟨v, 0, 0⟩ : Dialogue).answer host (Session.run host) (.line line)))
    held.1.files = once.1.files ∧ held.1.processPlace = once.1.processPlace ∧
      HeldLike once held (u.execute host line).2 := by
  intro host once held
  have hshows : ¬host.ShowsRecords := by
    rintro ⟨threshold, hlog, hthreshold⟩
    cases hlog
    exact absurd hthreshold (by decide)
  have hminor : ∀ (s : Session) code,
      s.note host (.sessionLeft code) = { s with journal := s.journal ++ [.sessionLeft code] } :=
    fun s code =>
      note_of_minor installation nesting (by change Level.info.rank < Level.warning.rank; decide) s
  obtain ⟨hdone, ⟨texts, hreports, hreports'⟩, text, hshown, hshown'⟩ :=
    execute_shows (.refl host) rfl h line
  have hanswer := execute_ne_badRedirection host u line
  have herr : (v.execute host line).1.err = (u.execute host line).1.err := by
    rw [hreports.err hshows, hreports'.err hshows, herr]
  have hout : (v.execute host line).1.out = Text.encode prompt ++ (u.execute host line).1.out := by
    rw [hshown, hshown', hout, List.append_assoc]
  obtain ⟨done, done', answer, hexecute, hexecute', out, err, kept, journal, rfl⟩ := hdone.exists
  simp only [once, held, runOnce, Dialogue.answer, Session.run, hexecute, hexecute'] at hanswer herr hout ⊢
  cases answer with
  | ok status =>
    refine ⟨rfl, rfl, .answered rfl rfl ?_ herr⟩
    change out ++ _ ++ _ = _
    rw [hout]
    rfl
  | error stop =>
    cases stop with
    | leave code =>
      simp only [Dialogue.settle, ended]
      rw [hminor]
      exact ⟨rfl, rfl, .left rfl rfl hout herr⟩
    | refused r =>
      obtain ⟨hfiles, hplace, hcode, hout', herr'⟩ := settle_fault installation nesting
        { done with out := out, err := err, held := kept, journal := journal } r.message
      exact ⟨hfiles, hplace, .refused _ rfl hcode (hout'.trans (by rw [hout])) (herr'.trans (by rw [herr]))⟩
    | unwritten e =>
      obtain ⟨hfiles, hplace, hcode, hout', herr'⟩ := settle_fault installation nesting
        { done with out := out, err := err, held := kept, journal := journal } e.message
      exact ⟨hfiles, hplace, .unwritten _ rfl hcode (hout'.trans (by rw [hout])) (herr'.trans (by rw [herr]))⟩
    | badRedirection command target e => exact absurd rfl (hanswer command target e)

/-- Where all texts can be put to the system a line is refused only if too many directories are
missing. -/
theorem exists_deep_of_refused (hs : s.Sound) (hline : hasNul line = false)
    {r : Refusal} (h : (s.execute host line).2 = .error (.refused r)) :
    ∃ a ∈ s.lineArrivals host line, ¬a.session.Shallow host a.stage := by
  by_contra hnone
  have hends : ∀ a ∈ s.lineArrivals host line, a.Ends host := by
    intro a ha
    apply Arrival.ends (sound_arrivals hs a ha) (sound_stages hline a ha)
    by_contra hdeep
    exact hnone ⟨a, ha, hdeep⟩
  rcases answer_of_ends hends with ⟨status, hok⟩ | ⟨code, -, hleave⟩ | ⟨e, hunwritten, -⟩
  · rw [h] at hok
    cases hok
  · rw [h] at hleave
    cases hleave
  · rw [h] at hunwritten
    cases hunwritten

section

variable (installation : Installation) (nesting : Nat) (files : FileTree) (directory : String)
  (place : Place) {environment : Environment} {line : String}

/-- The shell leaves the same, run on a line that is given as an argument and on the same line as all of
the input of a dialogue, which is nested one call deeper. -/
theorem heldLike_runShell (hfile : environment.find? "LINESHELL_LOG_FILE" = none)
    (hlevel : environment.find? "LINESHELL_LOG_LEVEL" = none)
    (harguments : Usage.ofArguments ["-c", line] = .run ⟨.line line, none⟩)
    (hfeed : '\n' ∉ line.toList) (hreturn : '\r' ∉ line.toList) :
    let host := commandHost installation nesting Level.warning.rank
    let ready := (start files directory place environment []).note host .ready
    let once := (start files directory place environment []).runShell installation nesting ["-c", line]
    let held := (start files directory place environment (Text.encode (line ++ "\n"))).runShell
      installation nesting []
    (∀ a ∈ ready.lineArrivals host line, a.session.SameReach host (nesting - 1) a.stage) →
      held.1.files = once.1.files ∧ held.1.processPlace = once.1.processPlace ∧
        HeldLike once held (ready.execute host line).2 := by
  intro host ready once held hreach
  let inner := commandHost installation (nesting - 1) Level.warning.rank
  let fed := start files directory place environment (Text.encode (line ++ "\n"))
  have hquiet : ∀ (s : Session) event, event.level.rank < Level.warning.rank →
      s.note inner event = { s with journal := s.journal ++ [event] } :=
    fun s event h => note_of_minor installation (nesting - 1) h s
  have hready : ready = { start files directory place environment [] with journal := [.ready] } :=
    note_of_minor installation nesting (by decide) _
  let asked := { fed with
    input := []
    out := Text.encode prompt
    journal := [.ready, .sessionStarted] }
  have hasked : Dialogue.asked inner (fed.note inner .ready) = ⟨asked, 0, 0⟩ := by
    unfold Dialogue.asked
    rw [hquiet fed .ready (by decide), hquiet _ .sessionStarted (by decide)]
    rfl
  have hsame : SameButShown ready asked := by
    rw [hready]
    exact ⟨_, [], _, _, rfl⟩
  have hout : asked.out = Text.encode prompt ++ ready.out := by
    rw [hready]
    exact (List.append_nil _).symm
  have herr : asked.err = ready.err := by
    rw [hready]
    rfl
  have hexecute : ready.execute inner line = ready.execute host line := execute_nested hreach
  have honce : once = ready.runOnce inner line := by
    have hplain : once = ready.runOnce host line := runShell_plain hfile hlevel harguments
    rw [hplain, runOnce, runOnce, hexecute]
  have hheld : held = ended (Dialogue.settle
      ((⟨asked, 0, 0⟩ : Dialogue).answer inner (Session.run inner) (.line line))) := by
    have hdialogue : held = _ := runShell_dialogue hfile hlevel
    rw [hdialogue, ← hasked]
    exact congrArg ended (Dialogue.holdTerminal_line hfeed hreturn (note_input inner fed .ready)
      (answer_input inner rfl line))
  rw [honce, hheld, ← hexecute]
  exact heldLike_settle installation (nesting - 1) hsame hout herr line

/-- A line that is given as an argument, and the same line as all of the input of a dialogue. They leave
the same files and the process in the same place. The dialogue shows its prompts around what the line
shows, and it ends with 0 unless the line ends it. What ends the shell without a status where the line
is an argument, and is reported where it is in a dialogue, is a line that is refused, which takes too
many missing directories, or a line that writes to a file that does not take it. The dialogue is nested
one call deeper, so a first directory that is to be made must not be the last one in reach. -/
theorem runShell_one_line (hfile : environment.find? "LINESHELL_LOG_FILE" = none)
    (hlevel : environment.find? "LINESHELL_LOG_LEVEL" = none)
    (harguments : Usage.ofArguments ["-c", line] = .run ⟨.line line, none⟩)
    (hfeed : '\n' ∉ line.toList) (hreturn : '\r' ∉ line.toList) :
    let host := commandHost installation nesting Level.warning.rank
    let ready := (start files directory place environment []).note host .ready
    let once := (start files directory place environment []).runShell installation nesting ["-c", line]
    let held := (start files directory place environment (Text.encode (line ++ "\n"))).runShell
      installation nesting []
    (∀ a ∈ ready.lineArrivals host line, a.session.SameReach host (nesting - 1) a.stage) →
      held.1.files = once.1.files ∧ held.1.processPlace = once.1.processPlace ∧
        HeldLike once held (ready.execute host line).2 ∧
        ((start files directory place environment []).Sound → hasNul line = false →
          ∀ r, (ready.execute host line).2 = .error (.refused r) →
            ∃ a ∈ ready.lineArrivals host line, ¬a.session.Shallow host a.stage) ∧
        ∀ e, (ready.execute host line).2 = .error (.unwritten e) →
          ∃ a ∈ ready.lineArrivals host line, a.Overflows host e := by
  intro host ready once held hreach
  obtain ⟨hfiles, hplace, hheld⟩ := heldLike_runShell installation nesting files directory place hfile
    hlevel harguments hfeed hreturn hreach
  refine ⟨hfiles, hplace, hheld, ?_, ?_⟩
  · intro hsound hline r hrefused
    have hnoted : Silent host (start files directory place environment []) ready := silent_note _ rfl
    exact exists_deep_of_refused (hnoted.toSettled.sound hsound) hline hrefused
  · exact fun e hunwritten => exists_overflowing hunwritten

end

/-- `exit 3` ends the dialogue, so there is no second prompt. -/
theorem runShell_one_line_exit :
    let host := commandHost Small.installation 987 Level.warning.rank
    let alone := start Small.files "/" [] ⟨[]⟩ []
    let once := alone.runShell Small.installation 987 ["-c", "echo a | exit 3"]
    let held := (start Small.files "/" [] ⟨[]⟩ (Text.encode ("echo a | exit 3" ++ "\n"))).runShell
      Small.installation 987 []
    ((alone.note host .ready).execute host "echo a | exit 3").2 = .error (.leave 3) ∧
      held.1.files = once.1.files ∧ HeldLike once held (.error (.leave 3)) := by
  have hanswer : (((start Small.files "/" [] ⟨[]⟩ []).note
      (commandHost Small.installation 987 Level.warning.rank) .ready).execute
        (commandHost Small.installation 987 Level.warning.rank) "echo a | exit 3").2 =
      .error (.leave 3) := by
    decide +kernel
  have hunset : ∀ name, Environment.find? ⟨[]⟩ name = none := fun _ => rfl
  have harguments : Usage.ofArguments ["-c", "echo a | exit 3"] =
      .run ⟨.line "echo a | exit 3", none⟩ := Usage.ofArguments_command (by decide)
  have hreach : ∀ a ∈ ((start Small.files "/" [] ⟨[]⟩ []).note
      (commandHost Small.installation 987 Level.warning.rank) .ready).lineArrivals
        (commandHost Small.installation 987 Level.warning.rank) "echo a | exit 3",
      a.session.SameReach (commandHost Small.installation 987 Level.warning.rank) (987 - 1) a.stage := by
    decide +kernel
  obtain ⟨hfiles, -, hheld, -⟩ := runShell_one_line Small.installation 987 Small.files "/" [] (hunset _)
    (hunset _) harguments (by decide) (by decide) hreach
  rw [hanswer] at hheld
  exact ⟨hanswer, hfiles, hheld⟩

/-- A line that is refused: alone it ends the shell without a status, and in a dialogue it is reported
and the dialogue goes on to its end. -/
theorem heldLike_refused {once held : Session × Ending} {r : Refusal}
    (h : HeldLike once held (.error (.refused r))) :
    once.2 = .refused r ∧ held.2 = .status 0 ∧ held.1.err ≠ once.1.err := by
  cases h with
  | refused record honce hheld hout herr =>
    refine ⟨honce, hheld, fun hsame => ?_⟩
    have hlength := congrArg List.length (herr.symm.trans hsame)
    have hreport : 0 < (Text.encode ("lineshell: " ++ r.message ++ "\n")).length := by
      rw [Text.encode_eq, String.toList_append, String.toList_append]
      exact Nat.succ_pos _
    simp only [List.length_append] at hlength
    omega

/-- A line that empties a file below 1499 missing directories ends the shell without a status where it
is an argument. As the input of a dialogue it is reported, and the dialogue ends with 0. -/
theorem runShell_one_line_deep :
    let once := (start Small.files "/" [] ⟨[]⟩ []).runShell Small.installation 987 ["-c", deepLine]
    let held := (start Small.files "/" [] ⟨[]⟩ (Text.encode (deepLine ++ "\n"))).runShell
      Small.installation 987 []
    Usage.ofArguments ["-c", deepLine] = .run ⟨.line deepLine, none⟩ ∧
      (∀ c ∈ deepLine.toList, c ≠ '\n' ∧ c ≠ '\r' ∧ c ≠ '\x00') ∧
      once.2 = .refused .tooDeep ∧ held.2 = .status 0 ∧ held.1.err ≠ once.1.err := by
  intro once held
  have hplain : ∀ c ∈ deepLine.toList, c ≠ '\n' ∧ c ≠ '\r' ∧ c ≠ '\x00' := by
    intro c hc
    rcases mem_deepLine hc with rfl | rfl | rfl | rfl <;> decide
  have harguments : Usage.ofArguments ["-c", deepLine] = .run ⟨.line deepLine, none⟩ :=
    Usage.ofArguments_command head?_deepLine
  have hunset : ∀ name, Environment.find? ⟨[]⟩ name = none := fun _ => rfl
  have hquiet : (commandHost Small.installation 987 Level.warning.rank).Quiet := by
    change Level.debug.rank < Level.warning.rank
    decide
  let ready := (start Small.files "/" [] ⟨[]⟩ []).note
    (commandHost Small.installation 987 Level.warning.rank) .ready
  have hfree : ready.files.find? ["a"] = none := by decide
  obtain ⟨-, -, hheld⟩ := heldLike_runShell Small.installation 987 Small.files "/" [] (hunset _)
    (hunset _) harguments (fun hmem => (hplain _ hmem).1 rfl) (fun hmem => (hplain _ hmem).2.1 rfl)
    (sameReach_deepLine hquiet (by decide) (by decide) hfree)
  rw [execute_deepLine hquiet (by decide) hfree] at hheld
  exact ⟨harguments, hplain, heldLike_refused hheld⟩

end Session

end PipelineShell
