import PipelineShell.Execution

/-!
# Same answers

An operation on two states can give one answer and leave states that are related as they were before
(`SameAnswer`). What a name stands for is found by way of the working directory, the environment and
the files that may be executed, so it is the same in sessions that agree in these (`Transparent`); the
search itself does nothing but note (`findCommand_notes`).
-/

namespace PipelineShell

/-- An operation on two states gives one answer, and leaves states that are related by `R`. -/
def SameAnswer {σ α : Type} (R : σ → σ → Prop) (r r' : σ × α) : Prop := r'.2 = r.2 ∧ R r.1 r'.1

theorem SameAnswer.exists {σ α : Type} {R : σ → σ → Prop} {r r' : σ × α} (h : SameAnswer R r r') :
    ∃ s s' answer, r = (s, answer) ∧ r' = (s', answer) ∧ R s s' := by
  obtain ⟨s, answer⟩ := r
  obtain ⟨s', answer'⟩ := r'
  obtain ⟨rfl, hafter⟩ := h
  exact ⟨s, s', answer', rfl, rfl, hafter⟩

theorem SameAnswer.of_eq {σ α : Type} {R : σ → σ → Prop} {r r' : σ × α} {s : σ} {answer : α}
    (h : SameAnswer R r r') (hr : r = (s, answer)) : ∃ s', r' = (s', answer) ∧ R s s' := by
  obtain ⟨_, s', _, rfl, rfl, hafter⟩ := h.exists
  cases hr
  exact ⟨s', rfl, hafter⟩

namespace Session

/-! ## Finding commands -/

/-- Sessions on two hosts that are related by `R` look the same to the search for a command, and stay
related when both note the same. -/
structure Transparent (host host' : Host) (R : Session → Session → Prop) : Prop where
  directory : ∀ {s s'}, R s s' → s'.directory = s.directory
  environment : ∀ {s s'}, R s s' → s'.environment = s.environment
  isExecutable : ∀ {s s'}, R s s' → ∀ path, s'.isExecutable path = s.isExecutable path
  note : ∀ {s s'}, R s s' → ∀ event, event.level = .debug →
    R (s.note host event) (s'.note host' event)

namespace Transparent

variable {host host' : Host} {R : Session → Session → Prop} {s s' : Session}

theorem noteAll (hR : Transparent host host' R) (h : R s s') {events : List Event}
    (hlevel : ∀ event ∈ events, event.level = .debug) :
    R (s.noteAll host events) (s'.noteAll host' events) := by
  induction events generalizing s s' with
  | nil => exact h
  | cons event rest ih =>
    obtain ⟨hevent, hrest⟩ := List.forall_mem_cons.1 hlevel
    exact ih (hR.note h event hevent) hrest

theorem search (hR : Transparent host host' R) (h : R s s') (name : String) (directories : List String) :
    s'.search name directories = s.search name directories := by
  induction directories with
  | nil => rfl
  | cons directory rest ih =>
    have hcandidate : s'.candidate directory name = s.candidate directory name := by
      rw [candidate, candidate, resolvePath, resolvePath, hR.directory h]
    simp only [Session.search, hcandidate, hR.isExecutable h, ih]

theorem findProgram (hR : Transparent host host' R) (h : R s s') (name : String) :
    SameAnswer R (s.findProgram host name) (s'.findProgram host' name) := by
  have hpath : s'.resolvePath name = s.resolvePath name := by
    rw [resolvePath, resolvePath, hR.directory h]
  have hsearch : s'.searchPath = s.searchPath := by
    rw [searchPath, searchPath, hR.environment h]
  unfold Session.findProgram
  split
  · exact ⟨rfl, h⟩
  · split
    · simp only [hpath, hR.isExecutable h]
      exact ⟨rfl, h⟩
    · rw [hsearch, hR.search h]
      split
      · exact ⟨rfl, hR.note h _ rfl⟩
      · exact ⟨rfl, h⟩

theorem findCommand (hR : Transparent host host' R) (h : R s s') (name : String) :
    SameAnswer R (s.findCommand host name) (s'.findCommand host' name) := by
  unfold Session.findCommand
  split
  · exact ⟨rfl, h⟩
  · obtain ⟨found, found', answer, hfound, hfound', hafter⟩ := (hR.findProgram h name).exists
    rw [hfound, hfound']
    cases answer with
    | error r => exact ⟨rfl, hafter⟩
    | ok path =>
      cases path with
      | none => exact ⟨rfl, hR.note hafter _ rfl⟩
      | some path => exact ⟨rfl, hafter⟩

end Transparent

variable {host host' : Host}

theorem findProgram_notes (host : Host) (s : Session) (name : String) :
    ∃ events, (s.findProgram host name).1 = s.noteAll host events ∧
      ∀ event ∈ events, event.level = .debug := by
  unfold findProgram
  split
  · exact ⟨[], rfl, by simp⟩
  · split
    · exact ⟨[], rfl, by simp⟩
    · split
      · next path _ => exact ⟨[.resolved name path], rfl, by simp [Event.level]⟩
      · exact ⟨[], rfl, by simp⟩

/-- Looking for a command does nothing but note, at the least level. -/
theorem findCommand_notes (host : Host) (s : Session) (name : String) :
    ∃ events, (s.findCommand host name).1 = s.noteAll host events ∧
      ∀ event ∈ events, event.level = .debug := by
  obtain ⟨events, hfound, hlevel⟩ := findProgram_notes host s name
  unfold findCommand
  split
  · exact ⟨[], rfl, by simp⟩
  · generalize s.findProgram host name = r at hfound ⊢
    obtain ⟨found, answer⟩ := r
    cases answer with
    | error r => exact ⟨events, hfound, hlevel⟩
    | ok path =>
      cases path with
      | some path => exact ⟨events, hfound, hlevel⟩
      | none =>
        have hnoted : found = s.noteAll host events := hfound
        refine ⟨events ++ [.notFound name], ?_, ?_⟩
        · simp only [noteAll, List.foldl_append, List.foldl_cons, List.foldl_nil, hnoted]
        · intro event hevent
          rcases List.mem_append.1 hevent with hevent | hevent
          · exact hlevel event hevent
          · rw [List.mem_singleton.1 hevent]
            rfl

/-! ## Changing the directory -/

/-- Two sessions move alike if they are in one directory and paths lead to the same from there. -/
theorem changeDirectory_sameAnswer {R : Session → Session → Prop} {s s' : Session} (h : R s s')
    (hmoves : host'.movesProcess = host.movesProcess) (hgrants : s'.files.grants = s.files.grants)
    (hdirectory : s'.directory = s.directory)
    (hexists : ∀ path, s'.files.pathExists s'.processPlace path = s.files.pathExists s.processPlace path)
    (hleads : ∀ path, s'.files.directory? s'.processPlace path = s.files.directory? s.processPlace path)
    (hmoved : ∀ directory place,
      R { s with
            directory := directory
            processPlace := if host.movesProcess then place else s.processPlace }
        { s' with
            directory := directory
            processPlace := if host.movesProcess then place else s'.processPlace })
    (path : String) :
    SameAnswer R (s.changeDirectory host path) (s'.changeDirectory host' path) := by
  have hpath : s'.resolvePath path = s.resolvePath path := by
    rw [resolvePath, resolvePath, hdirectory]
  simp only [changeDirectory, hpath, hexists, hleads, FileTree.grant_congr hgrants, hmoves]
  split
  · split
    · exact ⟨rfl, h⟩
    · split
      · exact ⟨rfl, h⟩
      · exact ⟨rfl, hmoved _ _⟩
  · exact ⟨rfl, h⟩

/-! ## Opening channels -/

/-- What is opened for a stage whose channels are open. -/
theorem openChannels_ok {s ready : Session} {stage : Stage} {channels : Channels}
    (h : s.openChannels host stage = (ready, .ok channels)) :
    s.readInput stage = .ok channels.input ∧
      ∃ opened, s.openOutput host stage .stdout = (opened, .ok channels.out) ∧
        opened.openOutput host stage .stderr = (ready, .ok channels.err) := by
  unfold openChannels at h
  split at h
  · cases h
  · next input hinput =>
    split at h
    · cases h
    · next opened out hout =>
      split at h
      · cases h
      · next err herr =>
        cases h
        exact ⟨hinput, opened, hout, herr⟩

/-- Opening channels leaves a session as it is, or opens the file for the output, and then perhaps the
one for errors. -/
theorem openChannels_session (host : Host) (s : Session) (stage : Stage) :
    let opened := (s.openOutput host stage .stdout).1
    let left := (s.openChannels host stage).1
    left = s ∨ left = opened ∨ left = (opened.openOutput host stage .stderr).1 := by
  intro opened left
  simp only [left, opened, openChannels]
  split
  · exact .inl rfl
  · split
    · next hout =>
      rw [hout]
      exact .inr (.inl rfl)
    · next hout =>
      rw [hout]
      split
      · next herr =>
        rw [herr]
        exact .inr (.inr rfl)
      · next herr =>
        rw [herr]
        exact .inr (.inr rfl)

/-- What opening a file does not change of a session, opening channels does not change. -/
theorem openChannels_preserves {R : Session → Session → Prop} (hrefl : ∀ s, R s s)
    (htrans : ∀ {a b c}, R a b → R b c → R a c) {stage : Stage}
    (hopen : ∀ s stream, R s (s.openOutput host stage stream).1) (s : Session) :
    R s (s.openChannels host stage).1 := by
  have hout := hopen s .stdout
  rcases openChannels_session host s stage with hleft | hleft | hleft
  · rw [hleft]
    exact hrefl s
  · rw [hleft]
    exact hout
  · rw [hleft]
    exact htrans hout (hopen _ .stderr)

/-- Two stages have the same channels if they read the same and open the same, one file after the
other. -/
theorem openChannels_sameAnswer {R : Session → Session → Prop} {s s' : Session} {stage : Stage}
    (hinput : s'.readInput stage = s.readInput stage) (h : R s s')
    (hout : SameAnswer R (s.openOutput host stage .stdout) (s'.openOutput host' stage .stdout))
    (herr : ∀ opened opened' out, s.openOutput host stage .stdout = (opened, .ok out) →
      R opened opened' →
      SameAnswer R (opened.openOutput host stage .stderr)
        (opened'.openOutput host' stage .stderr)) :
    SameAnswer R (s.openChannels host stage) (s'.openChannels host' stage) := by
  unfold openChannels
  rw [hinput]
  cases s.readInput stage with
  | error stop => exact ⟨rfl, h⟩
  | ok input =>
    obtain ⟨opened, opened', answer, hopened, hopened', hfirst⟩ := hout.exists
    simp only [hopened, hopened']
    cases answer with
    | error stop => exact ⟨rfl, hfirst⟩
    | ok out =>
      obtain ⟨ready, ready', answer, hready, hready', hsecond⟩ :=
        (herr opened opened' out hopened hfirst).exists
      simp only [hready, hready']
      cases answer with
      | error stop => exact ⟨rfl, hsecond⟩
      | ok err => exact ⟨rfl, hsecond⟩

end Session

end PipelineShell
