import PipelineShell.Proofs.TerminalUse
import PipelineShell.Startup

/-!
# What the level of the log changes

The option for the level is read before the line and changes nothing else of what the arguments ask for
(`ofArguments_logLevel`). A level is a threshold for records, and records go to the error stream, so on
any two levels a line does the same and shows the same output (`runOnce_shows`). Not every name stands
for a level: two names stand for other things, and with these the shell does not come to its line
(`runShell_logLevel`).
-/

namespace PipelineShell

namespace Usage

/-! ## Reading the arguments -/

theorem cutAtEquals_logLevel (name : String) :
    cutAtEquals ("--log-level=" ++ name) = ("--log-level", some name) := by
  have hword : ("--log-level=" ++ name).toList = "--log-level".toList ++ '=' :: name.toList := by
    simp
  have hplain : ∀ c ∈ "--log-level".toList, decide (c ≠ '=') = true := by simp
  unfold cutAtEquals
  rw [hword, List.takeWhile_append_of_pos hplain, List.dropWhile_append_of_pos hplain]
  simp

theorem classify_logLevel (name : String) :
    classify ("--log-level=" ++ name) = .ok (.option .logLevel "--log-level" (some name)) := by
  have hhead : ("--log-level=" ++ name).toList.head? = some '-' := by simp
  have hne : ∀ word : String, '=' ∉ word.toList → ("--log-level=" ++ name == word) = false := by
    intro word hword
    rw [beq_eq_false_iff_ne]
    rintro rfl
    simp at hword
  have hspelling : Switch.ofSpelling? ("--log-level=" ++ name) = none := by
    simp [Switch.ofSpelling?, Switch.spellings, List.lookup_cons, hne]
  have hdash : "--log-level=" ++ name ≠ "-" := beq_eq_false_iff_ne.1 (hne "-" (by decide))
  have hknown : Switch.ofSpelling? "--log-level" = some .logLevel := by decide
  unfold classify
  simp only [hhead, hspelling, cutAtEquals_logLevel, hknown, if_neg hdash]
  rfl

/-- A word that stands alone is taken for something, unless it is at fault; two dashes are no operand. -/
theorem classifyAll_single (word : String) :
    (∃ fault, classifyAll [word] = .error fault) ∨
      ∃ argument, classifyAll [word] = .ok [(word, argument)] ∧
        (argument = .operand → word ≠ "--") := by
  unfold classifyAll
  split
  · exact .inr ⟨.unknown, rfl, nofun⟩
  · next hword =>
    cases classify word with
    | error fault => exact .inl ⟨fault, rfl⟩
    | ok argument => exact .inr ⟨argument, rfl, fun _ => hword⟩

/-- A line that does not start like an option is taken as it is. -/
theorem ofArguments_command {line : String} (h : line.toList.head? ≠ some '-') :
    ofArguments ["-c", line] = .run ⟨.line line, none⟩ := by
  have hdashes : line ≠ "--" := by
    rintro rfl
    exact h rfl
  have hline : classifyAll ["-c", line] =
      .ok [("-c", .option .command "-c" none), (line, .operand)] := by
    have hoperand : classify line = .ok .operand := if_pos h
    have hlast : classifyAll [line] = .ok [(line, .operand)] := by
      rw [classifyAll, if_neg hdashes, hoperand]
      rfl
    have hcommand : classifyAll ["-c", line] =
        (classifyAll [line]).map (("-c", .option .command "-c" none) :: ·) := rfl
    rw [hcommand, hlast]
    rfl
  unfold ofArguments
  rw [hline]
  simp [read, give, hdashes]

/-- With a level before it a line is taken as it is without, and the level is given. -/
theorem ofArguments_logLevel (name line : String) :
    (∃ fault, ofArguments ["-c", line] = .misuse fault ∧
      ofArguments ["--log-level=" ++ name, "-c", line] = .misuse fault) ∨
    ofArguments ["-c", line] = .run ⟨.line line, none⟩ ∧
      ofArguments ["--log-level=" ++ name, "-c", line] =
        .run ⟨.line line, if name = "--" then none else some name⟩ := by
  have hlevel : "--log-level=" ++ name ≠ "--" := by
    intro h
    have hlength : "--log-level=".length + name.length = "--".length := by
      rw [← String.length_append, h]
    have hlonger : "--".length < "--log-level=".length := by decide
    omega
  have hcommand : ∀ rest, classifyAll ("-c" :: rest) =
      (classifyAll rest).map (("-c", .option .command "-c" none) :: ·) := fun rest => rfl
  have hfirst : classifyAll ["--log-level=" ++ name, "-c", line] =
      (classifyAll ["-c", line]).map
        (("--log-level=" ++ name, .option .logLevel "--log-level" (some name)) :: ·) := by
    rw [classifyAll, if_neg hlevel, classify_logLevel]
  unfold ofArguments
  rw [hfirst, hcommand]
  rcases classifyAll_single line with ⟨fault, hline⟩ | ⟨argument, hline, hoperand⟩
  · rw [hline]
    exact .inl ⟨fault, rfl, rfl⟩
  · rw [hline]
    cases argument with
    | operand =>
      refine .inr ⟨?_, ?_⟩
      · simp [Except.map, read, give, hoperand]
      · simp [Except.map, read, give, hoperand]
    | option switch spelling glued => exact .inl ⟨_, rfl, rfl⟩
    | unknown => exact .inl ⟨_, rfl, rfl⟩

end Usage

/-! ## Names of levels -/

namespace Log

/-- A name in capital letters. -/
def capital (name : String) : String := String.ofList (name.toList.flatMap capitals)

/-- The names of the levels. -/
def levels : List String :=
  ["NOTSET", "DEBUG", "INFO", "WARN", "WARNING", "ERROR", "CRITICAL", "FATAL"]

/-- The names that stand for things that are no level. -/
def others : List String := ["BASIC_FORMAT", "_STYLES"]

theorem threshold_eq_error_iff (name : String) :
    (∃ fault, threshold name = .error fault) ↔ capital name ∈ others := by
  unfold threshold capital others
  split <;> simp_all

/-- A name that is not known stands for warnings. -/
theorem threshold_of_unknown {name : String} (hlevel : capital name ∉ levels)
    (hother : capital name ∉ others) : threshold name = threshold "WARNING" := by
  unfold capital levels others at *
  have hwarning : threshold "WARNING" = .ok Level.warning.rank := by decide
  rw [hwarning]
  unfold threshold
  split <;> simp_all

/-- Where the environment names no level, the one that is asked for counts, and otherwise warnings do. -/
theorem threshold_levelName {environment : Environment}
    (hlevel : environment.find? "LINESHELL_LOG_LEVEL" = none) (name : String) :
    threshold (levelName (if name = "--" then none else some name) environment) = threshold name := by
  unfold levelName firstNonempty
  rw [hlevel]
  by_cases hdashes : name = "--"
  · subst hdashes
    decide
  · by_cases hempty : name = ""
    · subst hempty
      decide
    · simp [Option.filter, hdashes, hempty]

theorem levelName_none {environment : Environment}
    (hlevel : environment.find? "LINESHELL_LOG_LEVEL" = none) :
    levelName none environment = "WARNING" := by
  unfold levelName firstNonempty
  rw [hlevel]
  rfl

end Log

/-! ## Runs of the shell -/

namespace Session

variable {installation : Installation} {nesting : Nat} {s : Session}

/-- The host of the shell as a command, when no file is named for the log. -/
def commandHost (installation : Installation) (nesting threshold : Nat) : Host :=
  ⟨installation, true, true, nesting, .terminal threshold⟩

/-- The shell as a command, asked to run a line. -/
theorem runShell_line (hfile : s.environment.find? "LINESHELL_LOG_FILE" = none)
    {arguments : List String} {line : String} {asked : Option String}
    (h : Usage.ofArguments arguments = .run ⟨.line line, asked⟩) :
    s.runShell installation nesting arguments =
      match Log.threshold (Log.levelName asked s.environment) with
      | .error fault => (s, .badLog fault)
      | .ok threshold =>
        let host := commandHost installation nesting threshold
        (s.note host .ready).runOnce host line := by
  have hsetUp : Log.setUp s asked =
      (s, (Log.threshold (Log.levelName asked s.environment)).map .terminal) := by
    unfold Log.setUp Log.firstNonempty
    rw [hfile]
    rfl
  unfold runShell
  rw [h]
  simp only [hsetUp]
  cases Log.threshold (Log.levelName asked s.environment) with
  | error fault => rfl
  | ok threshold => rfl

/-- Two runs of the shell end in the same way, and all that they leave is the same but for records and
what is on the error stream. -/
def SameButRecords (r r' : Session × Ending) : Prop :=
  r'.2 = r.2 ∧ r'.1.out = r.1.out ∧ SameButShown r.1 r'.1

/-- A line that runs as a whole session does the same, whatever the level is. -/
theorem runOnce_shows (installation : Installation) (nesting : Nat) (s : Session) (line : String)
    (t t' : Nat) :
    SameButRecords
      ((s.note (commandHost installation nesting t) .ready).runOnce (commandHost installation nesting t) line)
      ((s.note (commandHost installation nesting t') .ready).runOnce
        (commandHost installation nesting t') line) := by
  have hhosts : (commandHost installation nesting t).SameButTerminal (commandHost installation nesting t') :=
    ⟨rfl, rfl, rfl, rfl⟩
  have hnoted := (SameButShown.refl s).note hhosts .ready
  obtain ⟨hdone, -, out, hout, hout'⟩ := execute_shows hhosts rfl hnoted line
  obtain ⟨done, done', answer, hexecute, hexecute', hafter⟩ := hdone.exists
  rw [hexecute, note_out] at hout
  rw [hexecute', note_out] at hout'
  unfold runOnce
  rw [hexecute, hexecute']
  have hsame : done'.out = done.out := hout'.trans hout.symm
  cases answer with
  | ok status => exact ⟨rfl, hsame, hafter.shown _ _ _ _ _ _⟩
  | error stop => cases stop <;> exact ⟨rfl, hsame, hafter⟩

/-- A line that has been run ends with a status, unless it is refused. -/
theorem runOnce_ne_badLog (host : Host) (s : Session) (line : String) (fault : LogFault) :
    (s.runOnce host line).2 ≠ .badLog fault := by
  unfold runOnce
  split <;> nofun

theorem runShell_misuse {arguments : List String} {fault : UsageFault}
    (h : Usage.ofArguments arguments = .misuse fault) :
    s.runShell installation nesting arguments =
      (s.printError (Text.encode (Usage.faultText fault)), .usage 2) := by
  unfold runShell
  rw [h]

/-- A line with a name for the level before it. -/
theorem runShell_named (hfile : s.environment.find? "LINESHELL_LOG_FILE" = none)
    (hlevel : s.environment.find? "LINESHELL_LOG_LEVEL" = none) {line : String}
    (h : Usage.ofArguments ["-c", line] = .run ⟨.line line, none⟩) (name : String) :
    s.runShell installation nesting ["--log-level=" ++ name, "-c", line] =
      match Log.threshold name with
      | .error fault => (s, .badLog fault)
      | .ok threshold =>
        let host := commandHost installation nesting threshold
        (s.note host .ready).runOnce host line := by
  rcases Usage.ofArguments_logLevel name line with ⟨fault, hplain, -⟩ | ⟨-, hasked⟩
  · rw [hplain] at h
    cases h
  · rw [runShell_line hfile hasked, Log.threshold_levelName hlevel]

/-- A line without a name for the level. -/
theorem runShell_plain (hfile : s.environment.find? "LINESHELL_LOG_FILE" = none)
    (hlevel : s.environment.find? "LINESHELL_LOG_LEVEL" = none) {line : String}
    (h : Usage.ofArguments ["-c", line] = .run ⟨.line line, none⟩) :
    s.runShell installation nesting ["-c", line] =
      let host := commandHost installation nesting Level.warning.rank
      (s.note host .ready).runOnce host line := by
  rw [runShell_line hfile h, Log.levelName_none hlevel]
  rfl

/-- With a name for the level a line does the same as without, just if the arguments are at fault or the
name is none of those that stand for something else. With such a name the shell ends before it runs the
line. A name that is not known is as good as that of warnings. -/
theorem runShell_logLevel (installation : Installation) (nesting : Nat) (s : Session)
    (hfile : s.environment.find? "LINESHELL_LOG_FILE" = none)
    (hlevel : s.environment.find? "LINESHELL_LOG_LEVEL" = none) (name line : String) :
    let plain := s.runShell installation nesting ["-c", line]
    let asked := s.runShell installation nesting ["--log-level=" ++ name, "-c", line]
    (SameButRecords plain asked ↔
      (∃ fault, Usage.ofArguments ["-c", line] = .misuse fault) ∨ Log.capital name ∉ Log.others) ∧
    (Log.capital name ∈ Log.others → Usage.ofArguments ["-c", line] = .run ⟨.line line, none⟩ →
      ∃ fault, asked = (s, .badLog fault)) ∧
    (Log.capital name ∉ Log.levels → Log.capital name ∉ Log.others →
      asked = s.runShell installation nesting ["--log-level=" ++ "WARNING", "-c", line]) := by
  intro plain asked
  rcases Usage.ofArguments_logLevel name line with ⟨fault, hplain, hasked⟩ | ⟨hplain, -⟩
  · have hmisuse : asked = plain := by
      simp only [asked, plain, runShell_misuse hplain, runShell_misuse hasked]
    refine ⟨⟨fun _ => .inl ⟨fault, hplain⟩, fun _ => ?_⟩, ?_, ?_⟩
    · rw [hmisuse]
      exact ⟨rfl, rfl, .refl _⟩
    · intro _ hrun
      rw [hplain] at hrun
      cases hrun
    · intro _ _
      rcases Usage.ofArguments_logLevel "WARNING" line with ⟨fault', hplain', hwarning⟩ | ⟨hrun, -⟩
      · rw [hplain] at hplain'
        cases hplain'
        simp only [asked, runShell_misuse hasked, runShell_misuse hwarning]
      · rw [hplain] at hrun
        cases hrun
  · have hasked : asked = _ := runShell_named hfile hlevel hplain name
    have hrun : plain = _ := runShell_plain hfile hlevel hplain
    refine ⟨⟨?_, ?_⟩, ?_, ?_⟩
    · rintro ⟨hending, -⟩
      refine .inr fun hother => ?_
      obtain ⟨fault, hfault⟩ := (Log.threshold_eq_error_iff name).2 hother
      rw [hfault] at hasked
      rw [hasked, hrun] at hending
      exact runOnce_ne_badLog _ _ line fault hending.symm
    · rintro (⟨fault, hmisuse⟩ | hlevelled)
      · rw [hplain] at hmisuse
        cases hmisuse
      · cases hthreshold : Log.threshold name with
        | error fault => exact absurd ((Log.threshold_eq_error_iff name).1 ⟨fault, hthreshold⟩) hlevelled
        | ok threshold =>
          rw [hthreshold] at hasked
          rw [hasked, hrun]
          exact runOnce_shows installation nesting s line _ threshold
    · intro hother _
      obtain ⟨fault, hfault⟩ := (Log.threshold_eq_error_iff name).2 hother
      rw [hfault] at hasked
      exact ⟨fault, hasked⟩
    · intro hunknown hlevelled
      rw [hasked, runShell_named hfile hlevel hplain, Log.threshold_of_unknown hunknown hlevelled]

/-- At the lowest level the shell tells all it does, on the error stream. -/
theorem runShell_logLevel_debug :
    let plain := Small.session.runShell Small.installation 987 ["-c", "echo hi"]
    let asked := Small.session.runShell Small.installation 987 ["--log-level=" ++ "debug", "-c", "echo hi"]
    SameButRecords plain asked ∧ plain.1.err = [] ∧ asked.1.err ≠ [] := by
  have hother : Log.capital "debug" ∉ Log.others := by decide
  refine ⟨?_, by decide +kernel, by decide +kernel⟩
  exact (runShell_logLevel Small.installation 987 Small.session rfl rfl "debug" "echo hi").1.2 (.inr hother)

/-- One of the names that stand for something else: the line is not run. -/
theorem runShell_logLevel_text :
    let plain := Small.session.runShell Small.installation 987 ["-c", "echo hi"]
    let asked := Small.session.runShell Small.installation 987 ["--log-level=BASIC_FORMAT", "-c", "echo hi"]
    plain.2 = .status 0 ∧ plain.1.out = Text.encode "hi\n" ∧
      asked.2 = .badLog .levelIsText ∧ asked.1.out = [] ∧ ¬SameButRecords plain asked := by
  have hplain : (Small.session.runShell Small.installation 987 ["-c", "echo hi"]).2 = .status 0 := by
    decide +kernel
  have hasked : (Small.session.runShell Small.installation 987
      ["--log-level=BASIC_FORMAT", "-c", "echo hi"]).2 = .badLog .levelIsText := by
    decide +kernel
  refine ⟨hplain, by decide +kernel, hasked, by decide +kernel, ?_⟩
  rintro ⟨hending, -⟩
  rw [hplain, hasked] at hending
  cases hending

end Session

end PipelineShell
