import PipelineShell.Proofs.Deeds
import PipelineShell.Proofs.FileTree.Vacancy
import PipelineShell.Proofs.Growth
import PipelineShell.Proofs.Small

/-!
# The working directory

As long as a session lasts, its working directory has the path that it had at first or a path in normal
form, the path leads to a directory, and the process is in that directory (`Placed`). No line takes a
directory away, so the path goes on leading there, and nothing moves the session but `cd`, which looks
before it moves (`Way`). The invariant of a whole session is `tethered_after`.
-/

namespace PipelineShell

namespace FileTree

theorem directory?_of_isAbsolute {t : FileTree} {path : String} (h : Path.isAbsolute path = true)
    (start start' : Place) : t.directory? start path = t.directory? start' path := by
  unfold directory? status
  rw [locate_of_isAbsolute h start start']

end FileTree

namespace Session

open FileTree (Grown)

variable {host : Host} {s s' : Session} {initial : String} {stage : Stage}

/-! ## Where a session is -/

/-- The working directory of a session that started in `initial`. -/
structure Placed (initial : String) (s : Session) : Prop where
  absolute : Path.isAbsolute s.directory = true
  normal : s.directory = initial ∨ (Path.normalise s.directory).text = s.directory
  /-- The process is in the directory that the path leads to, links followed. -/
  place : s.files.directory? s.processPlace s.directory = some s.processPlace

/-- Where nothing moves and nothing is taken away, the session is in its directory as before. -/
theorem Placed.of_grown (h : Placed initial s) (hgrown : Grown s.files s'.files)
    (hunmoved : Unmoved s s') : Placed initial s' := by
  refine ⟨?_, ?_, ?_⟩
  · rw [hunmoved.directory]
    exact h.absolute
  · rw [hunmoved.directory]
    exact h.normal
  · rw [hunmoved.directory, hunmoved.processPlace]
    exact hgrown.directory? h.place

/-- A session that moves is in its new directory, and so is the process. -/
theorem placed_changeDirectory (hmoves : host.movesProcess = true) (h : Placed initial s)
    (path : String) : Placed initial (s.changeDirectory host path).1 := by
  obtain ⟨e, hstays⟩ | ⟨place, hplace, hmoved⟩ := changeDirectory_cases host s path
  · rw [hstays]
    exact h
  · have hcanonical : (s.resolvePath path).Canonical := Path.canonical_resolve h.absolute path
    have habsolute := Path.isAbsolute_text hcanonical.ne_zero
    rw [hmoved, if_pos hmoves]
    refine ⟨habsolute, .inr ?_, ?_⟩
    · exact congrArg Path.text hcanonical.normalise_text
    · rw [FileTree.directory?_of_isAbsolute habsolute place s.processPlace]
      exact hplace

theorem progress_placed (host : Host) (initial : String) :
    Progress host (fun _ => True) fun s s' => Placed initial s → Placed initial s' where
  refl _ h := h
  trans h h' hplaced := h' (h hplaced)
  note s event hlevel h :=
    h.of_grown (grown_note host s event) ((progress_unmoved host).note s event hlevel)
  terminal s _ _ _ _ _ h := h.of_grown (.refl s.files) ⟨rfl, rfl⟩
  carry s out err writes _ _ h :=
    h.of_grown (FileTree.grown_carry writes s.files out err) ⟨rfl, rfl⟩

theorem placed_runStage (hmoves : host.movesProcess = true) (h : Placed initial s)
    (piped : Option Bytes) (last : Bool) : Placed initial (s.runStage host stage piped last).1 := by
  have hopened : Placed initial s → Placed initial (s.openChannels host stage).1 := fun h =>
    h.of_grown (grown_openChannels host s stage) (unmoved_openChannels host s stage)
  have hcd : ∀ u path, Placed initial u → Placed initial (u.changeDirectory host path).1 :=
    fun u path h => placed_changeDirectory hmoves h path
  have hevery : ∀ ready channels, s.openChannels host stage = (ready, .ok channels) →
      Opened (fun _ => True) channels := fun _ _ _ => ⟨fun _ _ => trivial, fun _ _ => trivial⟩
  exact (progress_placed host initial).runStage s (fun _ => hcd) hopened hevery piped last h

theorem placed_execute (hmoves : host.movesProcess = true) (h : Placed initial s) (line : String) :
    Placed initial (s.execute host line).1 := by
  refine (progress_placed host initial).execute s ?_ h
  exact fun a _ hplaced => placed_runStage hmoves hplaced a.piped a.last

/-! ## What moves a session -/

theorem ofName?_eq_cd_iff {name : String} : Builtin.ofName? name = some .cd ↔ name = "cd" := by
  unfold Builtin.ofName?
  constructor
  · intro h
    have hname := List.find?_some h
    simp only [decide_eq_true_eq] at hname
    exact hname.symm
  · rintro rfl
    rfl

/-- The command `cd` of a stage succeeds or moves nothing. -/
theorem runCommand_cd (hname : stage.name = "cd") (piped : Option Bytes) (channels : Channels)
    (last : Bool) :
    Unmoved s (s.runCommand host stage piped channels last).1 ∨
      ∃ output, (s.runCommand host stage piped channels last).2 = .ok ⟨"cd", 0, output⟩ := by
  have hfound : s.findCommand host stage.name = (s, .ok (.builtin .cd)) := by
    simp only [findCommand, ofName?_eq_cd_iff.2 hname]
  have hargv : stage.argv ≠ [] := by
    intro hnil
    simp [Stage.name, hnil] at hname
  have hrun : s.runCommand host stage piped channels last =
      s.runBuiltin host stage .cd channels last := by
    simp only [runCommand, if_neg hargv, hfound]
  have hdelivered : ∀ (u : Session) (out err : Bytes),
      Unmoved u ((u.deliverError channels err).deliverOutput channels last out).1 := fun u out err =>
    ((progress_unmoved host).deliverError u ⟨by simp, by simp⟩ err).trans
      ((progress_unmoved host).deliverOutput _ ⟨by simp, by simp⟩ last out)
  rw [hrun]
  rcases perform_cd host s stage.args with hok | hstays
  · right
    unfold runBuiltin
    generalize s.perform host .cd stage.args = r at hok ⊢
    obtain ⟨moved, reply⟩ := r
    cases hok
    have hwritten : channels.fault? moved.files (Text.encode "") (Text.encode "") = none :=
      channels.fault?_nil moved.files
    simp only [hwritten, hname]
    exact ⟨_, rfl⟩
  · exact .inl (hstays.unmoved.trans (hdelivered _ _ _))

/-- A stage stays in the directory unless it is a `cd` that succeeds. -/
theorem runStage_stays (host : Host) (s : Session) (stage : Stage) (piped : Option Bytes)
    (last : Bool) :
    Unmoved s (s.runStage host stage piped last).1 ∨
      stage.name = "cd" ∧
        ∃ output, (s.runStage host stage piped last).2 = .ok ⟨"cd", 0, output⟩ := by
  by_cases hname : stage.name = "cd"
  · have hopened := unmoved_openChannels host s stage
    unfold runStage
    generalize s.openChannels host stage = r at hopened ⊢
    obtain ⟨ready, answer⟩ := r
    cases answer with
    | error stop => exact .inl hopened
    | ok channels =>
      rcases runCommand_cd hname piped channels last with hstays | hdone
      · exact .inl (hopened.trans hstays)
      · exact .inr ⟨hname, hdone⟩
  · exact .inl (unmoved_runStage host s (mt ofName?_eq_cd_iff.1 hname) piped last)

/-! ## Whole sessions -/

/-- The way through some stages: what moves the session is a stage with a `cd` that succeeds, and
nothing else, neither within a stage nor between two. -/
inductive Way (host : Host) : Session → List Arrival → Session → Prop
  | ended {s s' : Session} (h : Unmoved s s') : Way host s [] s'
  | stage {s s' : Session} {a : Arrival} {rest : List Arrival} (harrives : Unmoved s a.session)
    (hstage : Unmoved a.session (a.run host).1 ∨
      a.stage.name = "cd" ∧ ∃ output, (a.run host).2 = .ok ⟨"cd", 0, output⟩)
    (hrest : Way host (a.run host).1 rest s') : Way host s (a :: rest) s'

theorem Way.before {reached : List Arrival} (h : Unmoved s s') {s'' : Session}
    (hway : Way host s' reached s'') : Way host s reached s'' := by
  cases hway with
  | ended hend => exact .ended (h.trans hend)
  | stage harrives hstage hrest =>
    exact .stage (h.trans harrives) hstage hrest

theorem Way.after {reached : List Arrival} (hway : Way host s reached s') {s'' : Session}
    (h : Unmoved s' s'') : Way host s reached s'' := by
  induction hway with
  | ended hend => exact .ended (hend.trans h)
  | stage harrives hstage _ ih => exact .stage harrives hstage (ih h)

theorem way_runFrom (host : Host) (total position : Nat) (s : Session) (piped : Option Bytes)
    (stages : List Stage) :
    Way host s (arrivals host total position s piped stages)
      (runFrom host total position s piped stages).1 := by
  induction position, s, piped, stages using runFrom_induction host total with
  | nil => exact .ended (.refl _)
  | stopped position s piped stage rest done stop hstop =>
    obtain ⟨hruns, harrivals⟩ := runFrom_of_stopped hstop
    rw [hruns, harrivals]
    apply Way.stage
    case harrives => exact (progress_unmoved host).announced position total s stage
    case hstage => exact runStage_stays host _ stage piped (rest = [])
    case hrest =>
      rw [hstop]
      exact .ended (.refl done)
  | passed position s piped stage rest done result hpass ih =>
    obtain ⟨hruns, harrivals⟩ := runFrom_of_passed hpass
    rw [hruns, harrivals]
    apply Way.stage
    case harrives => exact (progress_unmoved host).announced position total s stage
    case hstage => exact runStage_stays host _ stage piped (rest = [])
    case hrest =>
      rw [hpass]
      exact ih.before ((progress_unmoved host).note done _ rfl)

theorem way_execute (host : Host) (s : Session) (line : String) :
    Way host s (s.lineArrivals host line) (s.execute host line).1 := by
  have hread := (progress_unmoved host).noteAll s (readingEvents_level line)
  have hway : Way host (s.noteAll host (readingEvents line)) (s.lineArrivals host line)
      (s.runLine host line).1 := way_runFrom host _ _ _ none _
  exact (hway.before hread).after ((progress_unmoved host).ended s line)

/-- A session after some lines. -/
def after (host : Host) (s : Session) (lines : List String) : Session :=
  lines.foldl (fun s line => (s.execute host line).1) s

theorem placed_after (hmoves : host.movesProcess = true) (h : Placed initial s)
    (lines : List String) : Placed initial (s.after host lines) := by
  induction lines generalizing s with
  | nil => exact h
  | cons line rest ih => exact ih (placed_execute hmoves h line)

/-- What holds of the working directory in a session that started in `initial`, and of every line that
the session may come to. -/
structure Tethered (host : Host) (initial : String) (s : Session) : Prop where
  here : Placed initial s
  /-- Also at each stage that a line comes to, and after it. -/
  stages : ∀ line, ∀ a ∈ s.lineArrivals host line,
    Placed initial a.session ∧ Placed initial (a.run host).1
  way : ∀ line, Way host s (s.lineArrivals host line) (s.execute host line).1

theorem tethered_of_placed (hmoves : host.movesProcess = true) (h : Placed initial s) :
    Tethered host initial s := by
  refine ⟨h, ?_, way_execute host s⟩
  intro line a ha
  have hread := (progress_placed host initial).noteAll s (readingEvents_level line) h
  have hplaced : ∀ a ∈ s.lineArrivals host line, Placed initial a.session := by
    apply forall_arrivals
    case hannounced =>
      exact fun position s stage => (progress_placed host initial).announced position _ s stage
    case hrun => exact fun a h => placed_runStage hmoves h a.piped a.last
    case hcompleted => exact fun position s stage => (progress_placed host initial).note s _ rfl
    case h => exact hread
  exact ⟨hplaced a ha, placed_runStage hmoves (hplaced a ha) a.piped a.last⟩

/-- A session that starts in a directory, with the process there, is tethered to its working directory
after any lines, and no `cd` that fails moves any session. -/
theorem tethered_after (hmoves : host.movesProcess = true) (s : Session)
    (habsolute : Path.isAbsolute s.directory = true)
    (hplace : s.files.directory? s.processPlace s.directory = some s.processPlace)
    (lines : List String) :
    Tethered host s.directory (s.after host lines) ∧
      ∀ (u : Session) (args : List String),
        (u.perform host .cd args).2 = .silent 0 ∨ StaysPut u (u.perform host .cd args) := by
  have hplaced : Placed s.directory s := ⟨habsolute, .inl rfl, hplace⟩
  exact ⟨tethered_of_placed hmoves (placed_after hmoves hplaced lines), perform_cd host⟩

/-- A session that starts behind a link, goes up, which leads to the root, and then into the directory
that the link stands for, on a line that ends with a failure. -/
theorem tethered_after_link :
    let s := Small.linked.after Small.movingHost ["cd ..", "cd d > /out | cd nowhere"]
    s.directory = "/d" ∧ s.processPlace = ["d"] ∧ Tethered Small.movingHost "/l" s := by
  have habsolute : Path.isAbsolute Small.linked.directory = true := rfl
  have hplace : Small.linked.files.directory? Small.linked.processPlace Small.linked.directory =
      some Small.linked.processPlace := by
    decide +kernel
  have hends : let s := Small.linked.after Small.movingHost ["cd ..", "cd d > /out | cd nowhere"]
      s.directory = "/d" ∧ s.processPlace = ["d"] := by
    decide +kernel
  exact ⟨hends.1, hends.2, (tethered_after rfl Small.linked habsolute hplace _).1⟩

/-- A process that may not enter a directory does not move there, and neither does the shell. -/
example :
    let closed := { Small.linked.files with grants := [(["d"], { Grant.full with enters := false })] }
    let s := { Small.session with files := closed }
    s.changeDirectory Small.movingHost "d" = (s, some .permissionDenied) := by
  decide +kernel

end Session

end PipelineShell
