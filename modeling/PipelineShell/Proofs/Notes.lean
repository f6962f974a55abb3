import PipelineShell.Session

/-!
# What notes and reports change

What a session notes while it runs a line is of the least level. A host that is quiet writes no
such record anywhere, so a note changes nothing but the journal. Reports go to the error stream, and
records may stand between them there: `Reports` tells the one from the other.
-/

namespace PipelineShell

/-- Records of the least level are written nowhere. -/
def Host.Quiet (host : Host) : Prop :=
  match host.log with
  | .silent => True
  | .terminal threshold => Level.debug.rank < threshold
  | .file _ threshold => Level.debug.rank < threshold

/-- Records of the least level go to the file at `place`. -/
def Host.Records (host : Host) (place : Place) : Prop :=
  ∃ threshold, host.log = .file place threshold ∧ threshold ≤ Level.debug.rank

/-- Records of the least level go to the error stream of the terminal. -/
def Host.ShowsRecords (host : Host) : Prop :=
  ∃ threshold, host.log = .terminal threshold ∧ threshold ≤ Level.debug.rank

/-- What the error stream of the terminal shows of some events. -/
def Host.echoes (host : Host) (events : List Event) : Bytes :=
  match host.log with
  | .terminal threshold =>
    (events.filter fun event => threshold ≤ event.level.rank).flatMap fun event =>
      Text.encode event.line
  | _ => []

namespace Host

variable {host : Host}

theorem echoes_of_not_showsRecords (h : ¬host.ShowsRecords) {events : List Event}
    (hlevel : ∀ event ∈ events, event.level = .debug) : host.echoes events = [] := by
  unfold echoes
  split
  · next threshold hlog =>
    have hthreshold : ¬threshold ≤ Level.debug.rank := fun hle => h ⟨threshold, hlog, hle⟩
    rw [List.filter_eq_nil_iff.2, List.flatMap_nil]
    intro event hevent
    simpa only [hlevel event hevent, decide_eq_true_eq] using hthreshold
  · rfl

/-- A quiet host shows no records. -/
theorem Quiet.not_showsRecords (h : host.Quiet) : ¬host.ShowsRecords := by
  rintro ⟨threshold, hlog, hthreshold⟩
  unfold Quiet at h
  rw [hlog] at h
  exact Nat.not_lt.2 hthreshold h

end Host

/-- A quiet host records to no file. -/
theorem Host.Quiet.not_records {host : Host} (h : host.Quiet) (place : Place) :
    ¬host.Records place := by
  rintro ⟨threshold, hlog, hthreshold⟩
  unfold Quiet at h
  rw [hlog] at h
  exact Nat.not_lt.2 hthreshold h

namespace Session

variable {host : Host} {event : Event} {s s' s'' : Session}

theorem note_of_quiet (h : host.Quiet) (hlevel : event.level = .debug) (s : Session) :
    s.note host event = { s with journal := s.journal ++ [event] } := by
  unfold Host.Quiet at h
  unfold note
  generalize host.log = log at h ⊢
  cases log with
  | silent => rfl
  | terminal threshold =>
    simp only [hlevel]
    rw [if_neg (Nat.not_le.2 h)]
  | file place threshold =>
    simp only [hlevel]
    rw [if_neg (Nat.not_le.2 h)]

theorem noteAll_of_quiet (h : host.Quiet) {events : List Event}
    (hlevel : ∀ event ∈ events, event.level = .debug) (s : Session) :
    s.noteAll host events = { s with journal := s.journal ++ events } := by
  induction events generalizing s with
  | nil => simp [noteAll]
  | cons event rest ih =>
    have hfirst := note_of_quiet h (hlevel event List.mem_cons_self) s
    have hrest := ih (fun e he => hlevel e (List.mem_cons_of_mem _ he)) (s.note host event)
    change (s.note host event).noteAll host rest = _
    rw [hrest, hfirst]
    simp

theorem foldl_report (s : Session) (diagnoses : List Diagnosis) :
    diagnoses.foldl report s = s.printError (diagnoses.flatMap fun d => Text.encode d.line) := by
  induction diagnoses generalizing s with
  | nil => simp [printError]
  | cons d rest ih =>
    have hfirst : (d :: rest).foldl report s = rest.foldl report (s.report d) := rfl
    rw [hfirst, ih]
    simp only [report, printError, List.append_assoc, List.flatMap_cons, List.length_append,
      Nat.add_assoc]

/-! ## Reports between records -/

/-- What a session adds to its error stream, piece by piece: a report, or something that is noted, of
which there may be a record. -/
inductive Mark
  | noted (event : Event)
  | said (text : Bytes)

namespace Mark

def event? : Mark → Option Event
  | noted event => some event
  | said _ => none

def text? : Mark → Option Bytes
  | noted _ => none
  | said text => some text

/-- What the error stream receives. -/
def shown (host : Host) : Mark → Bytes
  | noted event => host.echoes [event]
  | said text => text

end Mark

/-- A session becomes one whose error stream has received the given texts, in this order, and between
them the records of what has been noted meanwhile, if it receives records. -/
def Reports (host : Host) (s : Session) (texts : List Bytes) (s' : Session) : Prop :=
  ∃ marks : List Mark,
    (∀ event ∈ marks.filterMap Mark.event?, event.level = .debug) ∧
    s'.journal = s.journal ++ marks.filterMap Mark.event? ∧
    marks.filterMap Mark.text? = texts ∧
    s'.err = s.err ++ marks.flatMap (Mark.shown host)

theorem note_err (host : Host) (s : Session) (event : Event) :
    (s.note host event).err = s.err ++ host.echoes [event] := by
  unfold note Host.echoes
  cases host.log with
  | silent => exact (List.append_nil _).symm
  | terminal threshold =>
    simp only [List.filter_cons, List.filter_nil, decide_eq_true_eq]
    split
    · simp only [List.flatMap_cons, List.flatMap_nil, List.append_nil]
      rfl
    · exact (List.append_nil _).symm
  | file place threshold =>
    simp only [List.append_nil]
    split <;> rfl

namespace Reports

variable {texts texts' : List Bytes}

theorem refl (s : Session) : Reports host s [] s :=
  ⟨[], by simp, (List.append_nil _).symm, rfl, (List.append_nil _).symm⟩

theorem trans (h : Reports host s texts s') (h' : Reports host s' texts' s'') :
    Reports host s (texts ++ texts') s'' := by
  obtain ⟨marks, hlevel, hjournal, htexts, herr⟩ := h
  obtain ⟨marks', hlevel', hjournal', htexts', herr'⟩ := h'
  refine ⟨marks ++ marks', ?_, ?_, ?_, ?_⟩
  · intro event hevent
    rw [List.filterMap_append, List.mem_append] at hevent
    exact hevent.elim (hlevel event) (hlevel' event)
  · rw [hjournal', hjournal, List.filterMap_append, List.append_assoc]
  · rw [List.filterMap_append, htexts, htexts']
  · rw [herr', herr, List.flatMap_append, List.append_assoc]

theorem note (s : Session) (hlevel : event.level = .debug) : Reports host s [] (s.note host event) :=
  ⟨[.noted event], by simpa [Mark.event?] using hlevel, note_journal host s event, rfl, by
    rw [note_err, List.flatMap_cons, List.flatMap_nil, List.append_nil]
    rfl⟩

theorem printError (s : Session) (text : Bytes) : Reports host s [text] (s.printError text) :=
  ⟨[.said text], by simp [Mark.event?], (List.append_nil _).symm, rfl, by
    rw [List.flatMap_cons, List.flatMap_nil, List.append_nil]
    rfl⟩

/-- What is said is a matter of the journal and the error stream. -/
theorem congr {u u' : Session} (h : Reports host s texts s') (hjournal : u.journal = s.journal)
    (herr : u.err = s.err) (hjournal' : u'.journal = s'.journal) (herr' : u'.err = s'.err) :
    Reports host u texts u' := by
  obtain ⟨marks, hlevel, hnoted, htexts, hshown⟩ := h
  refine ⟨marks, hlevel, ?_, htexts, ?_⟩
  · rw [hjournal', hjournal, hnoted]
  · rw [herr', herr, hshown]

/-- A text that is empty shows as none. -/
theorem hush (h : Reports host s [] s') : Reports host s [[]] s' :=
  h.trans ((printError s' []).congr rfl rfl rfl (List.append_nil _).symm)

/-- Where no records are shown, nothing stands between the texts. -/
theorem err (h : Reports host s texts s') (hshows : ¬host.ShowsRecords) :
    s'.err = s.err ++ texts.flatten := by
  have hmarks : ∀ marks : List Mark, (∀ event ∈ marks.filterMap Mark.event?, event.level = .debug) →
      marks.flatMap (Mark.shown host) = (marks.filterMap Mark.text?).flatten := by
    intro marks hlevel
    induction marks with
    | nil => rfl
    | cons mark rest ih =>
      cases mark with
      | said text =>
        rw [List.flatMap_cons, ih hlevel]
        rfl
      | noted event =>
        have hevents : ∀ e ∈ event :: rest.filterMap Mark.event?, e.level = .debug := hlevel
        obtain ⟨hfirst, hrest⟩ := List.forall_mem_cons.1 hevents
        have hnothing : host.echoes [event] = [] :=
          Host.echoes_of_not_showsRecords hshows (List.forall_mem_singleton.2 hfirst)
        rw [List.flatMap_cons, ih hrest]
        change host.echoes [event] ++ _ = _
        rw [hnothing]
        rfl
  obtain ⟨marks, hlevel, -, rfl, herr⟩ := h
  rw [herr, hmarks marks hlevel]

end Reports

end Session

end PipelineShell
