import PipelineShell.Proofs.Deeds
import PipelineShell.Proofs.InStep

/-!
# What no run looks at

Two sessions can differ in something that no operation of a run looks at. `Unseen` says so of a relation
between sessions, which may be on different hosts, operation by operation and down to the starting of
programs, and then their runs are in step (`Unseen.inStep`). The first such thing is what the terminal
has received: the shell writes to the terminal and never looks at what it has written (`Apart`).
-/

namespace PipelineShell.Session

variable {host host' : Host} {Clear : Session → Stage → Prop} {R : Session → Session → Prop}
  {s s' : Session}

/-- Sessions that are related by `R` look the same to a run and stay related. The redirections of a stage
are opened only if the stage is `Clear`. A program does its work when nothing is held back. -/
structure Unseen (host host' : Host) (Clear : Session → Stage → Prop)
    (R : Session → Session → Prop) : Prop
    extends Transparent host host' R where
  shares : host'.sharesTerminal = host.sharesTerminal
  grants : ∀ {s s'}, R s s' → s'.files.grants = s.files.grants
  changeDirectory : ∀ {s s'}, R s s' → ∀ path,
    SameAnswer R (s.changeDirectory host path) (s'.changeDirectory host' path)
  openChannels : ∀ {s s'}, R s s' → ∀ {stage}, Clear s stage →
    SameAnswer R (s.openChannels host stage) (s'.openChannels host' stage)
  started : ∀ {s s'}, R s s' → ∀ order, s'.started host' order = s.started host order
  input : ∀ {s s'}, R s s' → s'.input = s.input
  print : ∀ {s s'}, R s s' → ∀ text, R (s.print text) (s'.print text)
  printError : ∀ {s s'}, R s s' → ∀ text, R (s.printError text) (s'.printError text)
  flush : ∀ {s s'}, R s s' → R s.flush s'.flush
  writeFile : ∀ {s s'}, R s s' → ∀ handle bytes,
    R (s.writeFile handle bytes) (s'.writeFile handle bytes)
  carryOut : ∀ {s s'}, R s s' → s.Flushed → s'.Flushed → ∀ order p,
    R (s.carryOut order p) (s'.carryOut order p)
  tally : ∀ {s s'}, R s s' → ∀ count : Tally → Tally,
    R { s with tally := count s.tally } { s' with tally := count s'.tally }

namespace Unseen

theorem launch (hR : Unseen host host' Clear R) (h : R s s') (hflushed : s.Flushed)
    (hflushed' : s'.Flushed) (order : Order) :
    SameAnswer R (s.launch host order) (s'.launch host' order) := by
  have hcounted : R (s.counted host order) (s'.counted host' order) :=
    hR.note (hR.tally h fun tally => { tally with total := tally.total + 1 }) _ rfl
  replace hflushed : (s.counted host order).Flushed := hflushed.counted order
  replace hflushed' : (s'.counted host' order).Flushed := hflushed'.counted order
  rw [launch_eq, launch_eq]
  generalize s.counted host order = a at hcounted hflushed ⊢
  generalize s'.counted host' order = a' at hcounted hflushed' ⊢
  rw [hR.started hcounted]
  split
  · exact ⟨rfl, hcounted⟩
  · refine ⟨rfl, ?_⟩
    exact hR.note (hR.tally hcounted fun tally => { tally with failed := tally.failed + 1 }) _ rfl
  · next found _ =>
    have hperformance : a'.performance order found = a.performance order found := by
      unfold performance
      have hfeed : a'.feedBytes order.feed = a.feedBytes order.feed := by
        unfold feedBytes
        rw [hR.input hcounted]
      rw [hfeed]
    have hspawned := hR.tally hcounted fun tally => { tally with spawned := tally.spawned + 1 }
    simp only [hperformance]
    exact ⟨rfl, hR.noteAll (hR.carryOut hspawned hflushed hflushed' order _) (ended_level order _)⟩

theorem orderOf (hR : Unseen host host' Clear R) (h : R s s') (stage : Stage) (path : String)
    (input : Option Bytes) (channels : Channels) (last : Bool) :
    s'.orderOf host' stage path input channels last =
      s.orderOf host stage path input channels last := by
  simp only [Session.orderOf, hR.directory h, hR.environment h, hR.shares]

theorem runProgram (hR : Unseen host host' Clear R) (h : R s s') (stage : Stage) (path : String)
    (input : Option Bytes) (channels : Channels) (last : Bool) :
    SameAnswer R (s.runProgram host stage path input channels last)
      (s'.runProgram host' stage path input channels last) := by
  obtain ⟨done, done', answer, hdone, hdone', hafter⟩ :=
    (hR.launch (hR.flush h) (flushed_flush s) (flushed_flush s')
      (s.orderOf host stage path input channels last)).exists
  simp only [Session.runProgram, hR.orderOf h, hdone, hdone']
  cases answer with
  | error failure =>
    cases failure with
    | refused r => exact ⟨rfl, hafter⟩
    | system e about =>
      have hnoted := hR.note hafter (.stageAborted path e) rfl
      refine ⟨?_, deliverError_related (hR.writeFile hnoted) (hR.printError hnoted) channels _⟩
      simp only [Session.giveUp, channels.fault?_congr (hR.grants hnoted)]
  | ok outcome =>
    have herror := hR.printError hafter (copied (outcome.err.getD []))
    simp only
    split
    · exact ⟨rfl, hR.print herror _⟩
    · exact ⟨rfl, herror⟩

/-- Runs in sessions that look the same are in step. -/
theorem inStep (hR : Unseen host host' Clear R) : InStep host host' Clear R :=
  { hR with runProgram := hR.runProgram }

end Unseen

/-! ## What the terminal has received -/

/-- `s'` is `s` but for what the terminal had received before: `old` in `s` and `old'` in `s'`. -/
def Apart (old old' : Bytes) (s s' : Session) : Prop :=
  ∃ text, s.out = old ++ text ∧ s' = { s with out := old' ++ text }

variable {old old' : Bytes}

namespace Apart

theorem start (s : Session) (old' : Bytes) : Apart s.out old' s { s with out := old' } := by
  refine ⟨[], (List.append_nil _).symm, ?_⟩
  rw [List.append_nil]

theorem note (h : Apart old old' s s') (event : Event) :
    Apart old old' (s.note host event) (s'.note host event) := by
  obtain ⟨text, hout, rfl⟩ := h
  refine ⟨text, (note_out host s event).trans hout, ?_⟩
  unfold Session.note
  split
  · rfl
  · split <;> rfl
  · split <;> rfl

theorem flush (h : Apart old old' s s') : Apart old old' s.flush s'.flush := by
  obtain ⟨text, hout, rfl⟩ := h
  exact ⟨text, hout, rfl⟩

theorem flushOutput (h : Apart old old' s s') : Apart old old' s.flushOutput s'.flushOutput := by
  obtain ⟨text, hout, rfl⟩ := h
  exact ⟨text, hout, rfl⟩

theorem print (h : Apart old old' s s') (text : Bytes) :
    Apart old old' (s.print text) (s'.print text) := by
  obtain ⟨before, hout, rfl⟩ := h
  refine ⟨before ++ text, ?_, ?_⟩
  · rw [← List.append_assoc, ← hout]
    rfl
  · rw [← List.append_assoc]
    rfl

theorem printError (h : Apart old old' s s') (text : Bytes) :
    Apart old old' (s.printError text) (s'.printError text) := by
  obtain ⟨before, hout, rfl⟩ := h
  exact ⟨before, hout, rfl⟩

theorem withFiles (h : Apart old old' s s') (t : FileTree) :
    Apart old old' { s with files := t } { s' with files := t } := by
  obtain ⟨before, hout, rfl⟩ := h
  exact ⟨before, hout, rfl⟩

theorem changeDirectory (h : Apart old old' s s') (path : String) :
    SameAnswer (Apart old old') (s.changeDirectory host path) (s'.changeDirectory host path) := by
  obtain ⟨text, hout, rfl⟩ := h
  have hsame : Apart old old' s { s with out := old' ++ text } := ⟨text, hout, rfl⟩
  apply changeDirectory_sameAnswer hsame rfl rfl rfl (fun _ => rfl) (fun _ => rfl)
  exact fun directory place => ⟨text, hout, rfl⟩

theorem openOutput (h : Apart old old' s s') (stage : Stage) (stream : Stream) :
    SameAnswer (Apart old old') (s.openOutput host stage stream)
      (s'.openOutput host stage stream) := by
  obtain ⟨text, hout, rfl⟩ := h
  have hsame : Apart old old' s { s with out := old' ++ text } := ⟨text, hout, rfl⟩
  unfold Session.openOutput
  simp only [resolvePath]
  split
  · exact ⟨rfl, hsame⟩
  · split
    · exact ⟨rfl, hsame.withFiles _⟩
    · split
      · exact ⟨rfl, hsame.withFiles _⟩
      · exact ⟨rfl, (hsame.withFiles _).note _⟩

theorem carryOut (h : Apart old old' s s') (hflushed : s.Flushed) (order : Order)
    (p : Performance) : Apart old old' (s.carryOut order p) (s'.carryOut order p) := by
  obtain ⟨text, hout, rfl⟩ := h
  have hheld : s.held.out = 0 := congrArg Held.out hflushed
  unfold Session.carryOut
  simp only [hheld, slipIn_zero]
  split
  · refine ⟨text ++ p.written .out, ?_, ?_⟩
    · simp only [hout, List.append_assoc]
    · simp only [List.append_assoc]
  · exact ⟨text, hout, rfl⟩

end Apart

theorem unseen_apart (host : Host) (old old' : Bytes) :
    Unseen host host (fun _ _ => True) (Apart old old') where
  directory := by
    rintro s s' ⟨text, -, rfl⟩
    rfl
  environment := by
    rintro s s' ⟨text, -, rfl⟩
    rfl
  isExecutable := by
    rintro s s' ⟨text, -, rfl⟩ path
    rfl
  note h event _ := h.note event
  shares := rfl
  grants := by
    rintro s s' ⟨text, -, rfl⟩
    rfl
  changeDirectory h path := h.changeDirectory path
  openChannels := by
    intro s s' h stage _
    have hinput : s'.readInput stage = s.readInput stage := by
      obtain ⟨text, -, rfl⟩ := h
      rfl
    exact openChannels_sameAnswer hinput h (h.openOutput stage .stdout)
      fun _ _ _ _ hopened => hopened.openOutput stage .stderr
  started := by
    rintro s s' ⟨text, -, rfl⟩ order
    rfl
  input := by
    rintro s s' ⟨text, -, rfl⟩
    rfl
  print h text := h.print text
  printError h text := h.printError text
  flush h := h.flush
  writeFile := by
    rintro s s' ⟨text, hout, rfl⟩ handle bytes
    exact ⟨text, hout, rfl⟩
  carryOut h hflushed _ order p := h.carryOut hflushed order p
  tally := by
    rintro s s' ⟨text, hout, rfl⟩ count
    exact ⟨text, hout, rfl⟩

/-- A line does the same, and shows the same, whatever the terminal has received before. -/
theorem execute_apart (host : Host) (h : Apart old old' s s') (line : String) :
    SameAnswer (Apart old old') (s.execute host line) (s'.execute host line) :=
  (unseen_apart host old old').inStep.execute h fun _ _ => trivial

end PipelineShell.Session
