import PipelineShell.Proofs.History

/-!
# Output and errors in one file

The output and the errors of a stage go through two handles, and each writes where it stands. If both
lead to one file, what goes through one of them may come to stand over what has gone through the other.
That does not happen to a stage that starts no program: a builtin writes to one of its streams at most
(`perform_one_text`), and of a command that cannot be run there is only the report. The file then holds
all that the stage has written, after what is left in it (`nothing_lost_of_joins`).
-/

namespace PipelineShell

open FileTree (AtEnd)

/-- All that is written to the streams of a stage, the output first. -/
def Deed.texts (host : Host) (name : String) (deed : Deed) : Bytes :=
  deed.output?.getD [] ++ deed.errors host name

/-- What is run is a program. -/
def Deed.isProgram : Deed → Bool
  | .program _ => true
  | _ => false

/-- What goes to the output of a stage and what goes to its errors goes to the end of the file at a
place, if that has the given content. -/
structure Channels.Joined (channels : Channels) (place : Place) (content : Bytes) : Prop where
  out : ∃ handle, channels.out = some handle ∧ handle.place = place ∧ AtEnd handle content
  err : ∃ handle, channels.err = some handle ∧ handle.place = place ∧ AtEnd handle content

/-- If nothing goes wrong as such a file is closed, all has arrived in it. -/
theorem Channels.Joined.arriving {channels : Channels} {place : Place} {content out err : Bytes}
    {t t' : FileTree} (h : channels.Joined place content) (hgrants : t'.grants = t.grants)
    (hclosed : channels.fault? t' out err = none) : t.arriving place (out ++ err) = out ++ err := by
  obtain ⟨o, ho, hplace, -⟩ := h.out
  obtain ⟨e, he, hplace', -⟩ := h.err
  rw [Channels.fault?, ho, he] at hclosed
  obtain ⟨hout, herr⟩ := Option.or_eq_none_iff.1 hclosed
  simp only [Option.bind_some, Handle.fault?, hplace, hplace', FileTree.grant_congr hgrants] at hout herr
  unfold FileTree.arriving
  split
  · rfl
  · next hfault =>
    have hnothing : out = [] ∧ err = [] := by
      constructor
      · by_contra hne
        exact hfault (by simpa [hne] using hout)
      · by_contra hne
        exact hfault (by simpa [hne] using herr)
    rw [hnothing.1, hnothing.2, List.append_nil]

namespace Session

variable {host : Host} {s : Session} {place : Place} {stage : Stage} {channels : Channels}
  {content : Bytes}

theorem eq_none_of_closed {α : Type} {ending : Except Stop α} {fault : Option SystemError}
    (h : ∀ e, closed ending fault ≠ .error (.unwritten e)) : fault = none := by
  cases fault with
  | none => rfl
  | some e => exact absurd rfl (h e)

-- ---------------------------------------------------------------------------
-- Builtins
-- ---------------------------------------------------------------------------

theorem enter_out (host : Host) (s : Session) (path : String) : (s.enter host path).2.out = "" := by
  unfold enter
  split
  · rfl
  · obtain ⟨e, hstays⟩ | ⟨place, -, hmoved⟩ := changeDirectory_cases host s path
    · rw [hstays]
      rfl
    · rw [hmoved]
      rfl

theorem moveTo_out (host : Host) (s : Session) (args : List String) :
    (s.moveTo host args).2.out = "" := by
  match args with
  | [] =>
    rw [moveTo_eq host s (by simp)]
    exact enter_out host s _
  | [arg] =>
    rw [moveTo_eq host s (by simp)]
    exact enter_out host s _
  | _ :: _ :: _ => rfl

theorem describeAll_err (host : Host) (s : Session) (names : List String) :
    (s.describeAll host names).2.err = "" := by
  induction names generalizing s with
  | nil => rfl
  | cons name rest ih =>
    unfold describeAll
    generalize s.findCommand host name = r
    obtain ⟨found, answer⟩ := r
    cases answer with
    | error r => rfl
    | ok command => exact ih found

/-- A builtin writes to its output or to its errors. Only `exit` and `cd` have something to complain
about, and they have nothing to say. -/
theorem perform_one_text (host : Host) (s : Session) (b : Builtin) (args : List String) :
    (s.perform host b args).2.out = "" ∨ (s.perform host b args).2.err = "" := by
  cases b with
  | exit =>
    obtain ⟨code, -, -, hout⟩ := exitReply_spec args
    exact .inl hout
  | echo => exact .inr rfl
  | type => exact .inr (describeAll_err host _ args)
  | pwd => exact .inr rfl
  | cd => exact .inl (moveTo_out host _ args)

-- ---------------------------------------------------------------------------
-- Commands
-- ---------------------------------------------------------------------------

section

variable {t : FileTree} (hjoined : channels.Joined place content) (hholds : Holds t place content s)

include hjoined hholds

theorem contents?_deliverError_of_joined (text : Bytes) :
    (s.deliverError channels text).files.contents? place =
      some (content ++ t.arriving place text) := by
  obtain ⟨handle, herr, rfl, hend⟩ := hjoined.err
  unfold deliverError
  rw [herr, ← FileTree.arriving_congr hholds.grants]
  exact FileTree.contents?_write hholds.contents hend text

/-- The errors are written first. The handle for the output does not stand behind them then, but it
has to write something only if there are none. -/
theorem contents?_delivered {out err : Bytes} (hone : out = [] ∨ err = []) (last : Bool) :
    ((s.deliverError channels err).deliverOutput channels last out).1.files.contents? place =
      some (content ++ t.arriving place (out ++ err)) := by
  have hreported := contents?_deliverError_of_joined hjoined hholds err
  obtain ⟨handle, hout, rfl, hend⟩ := hjoined.out
  rcases hone with rfl | rfl
  · unfold deliverOutput
    rw [hout]
    exact (FileTree.contents?_write_nil handle _).trans hreported
  · rw [FileTree.arriving_nil, List.append_nil] at hreported
    have hgrants := (grown_deliverError s channels []).grants.trans hholds.grants
    rw [List.append_nil]
    exact contents?_deliverOutput hout ⟨hreported, hgrants⟩ hend last out

variable (hlog : ¬host.Records place)

include hlog

theorem contents?_runBuiltin_of_joined (stage : Stage) (b : Builtin) (last : Bool) :
    (s.runBuiltin host stage b channels last).1.files.contents? place =
      some (content ++
        t.arriving place ((Deed.builtin (s.perform host b stage.args).2).texts host stage.name)) := by
  have hperform : Holds t place content (s.perform host b stage.args).1 :=
    (progress_holds t content hlog).perform s (fun _ _ path h => h.changeDirectory path) stage.args hholds
  have hone : Text.encode (s.perform host b stage.args).2.out = [] ∨
      Text.encode (s.perform host b stage.args).2.err = [] :=
    (perform_one_text host s b stage.args).imp (congrArg Text.encode) (congrArg Text.encode)
  exact contents?_delivered hjoined hperform hone last

/-- What a command writes is added to the file, unless it is a program that starts: that may write
through one handle and then through the other. If it does not arrive there, the stage says so. -/
theorem contents?_does_of_joined {piped : Option Bytes} {last : Bool} {deed : Deed}
    {done : Session × Except Stop StageResult} (h : Does host s stage piped channels last deed done)
    (hprogram : deed.isProgram = false) (hwritten : ∀ e, done.2 ≠ .error (.unwritten e)) :
    done.1.files.contents? place = some (content ++ deed.texts host stage.name) := by
  have hR := progress_holds t content hlog
  have hlooked := hR.findCommand s stage.name hholds
  have hnothing : some content = some (content ++ []) := by rw [List.append_nil]
  have hreport : ∀ {u : Session} {status : Int}, Holds t place content u →
      (∀ e, (u.giveUp stage channels status).2 ≠ .error (.unwritten e)) →
      (u.giveUp stage channels status).1.files.contents? place =
        some (content ++ Text.encode (Diagnosis.unknownCommand stage.name).line) := by
    intro u status hu hends
    have harrives := hjoined.arriving hu.grants (eq_none_of_closed hends)
    rw [List.nil_append] at harrives
    rw [← harrives]
    exact contents?_deliverError_of_joined hjoined hu _
  cases h with
  | idle hargv => exact hholds.contents.trans hnothing
  | unnamed hfind =>
    rw [hfind] at hlooked
    exact hlooked.contents.trans hnothing
  | unknown hfind =>
    rw [hfind] at hlooked
    exact hreport hlooked hwritten
  | @builtin found b hfind =>
    rw [hfind] at hlooked
    have hperform : Holds t place content (found.perform host b stage.args).1 :=
      hR.perform found (fun _ _ path h => h.changeDirectory path) stage.args hlooked
    have harrives := hjoined.arriving hperform.grants (eq_none_of_closed hwritten)
    rw [contents?_runBuiltin_of_joined hjoined hlooked hlog stage b last]
    exact congrArg (fun bytes => some (content ++ bytes)) harrives
  | @refused found path order refusal hfind horder hstarted =>
    rw [hfind] at hlooked
    have hcounted := hR.counted found.flush order ⟨hlooked.contents, hlooked.grants⟩
    exact hcounted.contents.trans hnothing
  | @unstarted found path order e about hfind horder hstarted =>
    rw [hfind] at hlooked
    have hcounted := hR.counted found.flush order ⟨hlooked.contents, hlooked.grants⟩
    have hnoted := hR.note _ (.stageAborted path e) rfl (hR.missed _ order e about hcounted)
    exact hreport hnoted hwritten
  | program hfind horder hstarted => cases hprogram

end

end Session

/-! ## Stages -/

/-- Whether a redirection binds a stream of a stage and keeps what its file holds. -/
def Stage.appends (stage : Stage) (stream : Stream) : Bool :=
  (stage.redirection? stream).any fun r => r.operator.appends

theorem Session.appends_eq {host : Host} {s opened : Session} {stage : Stage} {stream : Stream}
    {handle : Handle} (h : s.openOutput host stage stream = (opened, .ok (some handle))) :
    stage.appends stream = handle.appends := by
  obtain ⟨r, hr⟩ : ∃ r, stage.redirection? stream = some r := by
    rw [← Option.ne_none_iff_exists', ne_eq, ← openOutput_eq_none_iff h]
    simp
  rw [appends_of_openOutput hr h, Stage.appends, hr]
  rfl

namespace Arrival

open Session

variable {host : Host} {a : Arrival} {place : Place} {ready : Session} {channels : Channels}

/-- When the redirections of a stage are open, those of its output and of its errors lead to the file at
a place. -/
structure Joins (host : Host) (place : Place) (a : Arrival) : Prop where
  out : a.session.Targets a.stage .stdout (a.session.openChannels host a.stage).1.files place
  err : a.session.Targets a.stage .stderr (a.session.openChannels host a.stage).1.files place

/-- What is left in the file at a place when a stage has opened it for its output and for its errors:
nothing, if one of the two has emptied it. -/
def leftIn (place : Place) (a : Arrival) : Bytes :=
  if a.stage.appends .stdout && a.stage.appends .stderr then
    (a.session.files.contents? place).getD []
  else []

/-- Both handles stand at the end of what is left. The first one stands at the start of the file, if
it does not append, and then the file is empty from there on. -/
theorem joined_of_openChannels (hlog : ¬host.Records place) (hjoins : a.Joins host place)
    (h : a.session.openChannels host a.stage = (ready, .ok channels)) :
    channels.Joined place (a.leftIn place) ∧
      ready.files.contents? place = some (a.leftIn place) := by
  obtain ⟨hout, herr⟩ := hjoins
  rw [h] at hout herr
  obtain ⟨-, opened, hopened, hready⟩ := openChannels_ok h
  have hunmoved : Unmoved a.session opened := by
    have hmoves := unmoved_openOutput host a.session a.stage .stdout
    rwa [hopened] at hmoves
  have hgrown : FileTree.Grown opened.files ready.files := by
    have hgrows := grown_openOutput host opened a.stage .stderr
    rwa [hready] at hgrows
  obtain ⟨o, ho, rfl⟩ := hout.opens hopened hgrown
  obtain ⟨e, he, hsame⟩ := (herr.of_unmoved hunmoved.symm).opens hready (.refl _)
  rw [ho] at hopened
  rw [he] at hready
  obtain ⟨hend, hfirst⟩ := contents?_openOutput hlog hopened
  rw [← hsame] at hlog
  obtain ⟨hend', hsecond⟩ := contents?_openOutput hlog hready
  rw [hsame, hfirst, Option.getD_some] at hend' hsecond
  have hleft : a.leftIn o.place = if e.appends then
      (if o.appends then (a.session.files.contents? o.place).getD [] else []) else [] := by
    unfold leftIn
    rw [appends_eq hopened, appends_eq hready]
    cases o.appends <;> cases e.appends <;> rfl
  have hbehind : AtEnd o (a.leftIn o.place) := by
    cases happends : o.appends with
    | true => exact .inl happends
    | false =>
      rw [happends] at hend
      simpa [hleft, happends] using hend
  rw [← hleft] at hend' hsecond
  exact ⟨⟨⟨o, ho, rfl, hbehind⟩, ⟨e, he, hsame, hend'⟩⟩, hsecond⟩

/-- A stage that starts no program and sends its output and its errors to one file loses nothing of
them: when it ends, with a status or not, the file holds all that the stage has written, after what it
held if both redirections append, and after nothing if one does not. What a builtin has written is one
text. A stage ends in another way if the file does not take what is written to it. -/
theorem nothing_lost_of_joins (host : Host) :
    (∀ (s : Session) (b : Builtin) (args : List String),
      (s.perform host b args).2.out = "" ∨ (s.perform host b args).2.err = "") ∧
    ∀ (a : Arrival) (place : Place) (deed : Deed), a.Joins host place → ¬host.Records place →
      a.deed? host = some deed → deed.isProgram = false →
        (∀ e, (a.run host).2 ≠ .error (.unwritten e)) →
        (a.run host).1.files.contents? place =
          some (a.leftIn place ++ deed.texts host a.stage.name) := by
  refine ⟨perform_one_text host, ?_⟩
  intro a place deed hjoins hlog hdeed hprogram hwritten
  cases hopen : a.session.openChannels host a.stage with
  | mk ready answer =>
    cases answer with
    | error stop =>
      rw [(deed?_of_error hopen).2] at hdeed
      cases hdeed
    | ok channels =>
      simp only [deed?, hopen, Option.some.injEq] at hdeed
      subst hdeed
      obtain ⟨hjoined, hfile⟩ := joined_of_openChannels hlog hjoins hopen
      have hdoes := does_runCommand host ready a.stage a.piped channels a.last
      simp only [run, runStage, hopen] at hwritten ⊢
      exact contents?_does_of_joined hjoined ⟨hfile, rfl⟩ hlog hdoes hprogram hwritten

/-- `exit x >> /in 2>> /../in`: the complaint stands behind what the file held, and then the session
ends. -/
theorem nothing_lost_of_joins_exit :
    let a : Arrival := ⟨Small.session,
      ⟨["exit", "x"], [⟨.append, "/in"⟩, ⟨.appendErrors, "/../in"⟩], []⟩, none, true⟩
    (a.run Small.host).2 = .error (.leave 2) ∧
      (a.run Small.host).1.files.contents? ["in"] =
        some (Small.input ++ Text.encode "exit: x: numeric argument required\n") := by
  intro a
  have hjoins : a.Joins Small.host ["in"] :=
    ⟨⟨⟨.append, "/in"⟩, Small.input, 0o644, rfl, by decide +kernel⟩,
      ⟨⟨.appendErrors, "/../in"⟩, Small.input, 0o644, rfl, by decide +kernel⟩⟩
  have hdeed : (a.deed? Small.host).map (fun deed => (deed.texts Small.host a.stage.name, deed.isProgram)) =
      some (Text.encode "exit: x: numeric argument required\n", false) := by
    decide +kernel
  obtain ⟨deed, hdeed, htexts⟩ := Option.map_eq_some_iff.1 hdeed
  obtain ⟨htexts, hprogram⟩ := Prod.mk.inj htexts
  have hquiet : Small.host.Quiet := trivial
  obtain ⟨-, hruns⟩ := nothing_lost_of_joins Small.host
  have hends : (a.run Small.host).2 = .error (.leave 2) := by decide +kernel
  have hcontents := hruns a ["in"] deed hjoins (hquiet.not_records _) hdeed hprogram (by simp [hends])
  rw [htexts] at hcontents
  exact ⟨hends, hcontents⟩

/-- `exit x > /in 2> /in`, where the records go to that file, too: behind the complaint there is what it
has left of them. -/
theorem not_alone_of_records :
    let host : Host := { Small.host with log := .file ["in"] Level.debug.rank }
    let a : Arrival := ⟨Small.session,
      ⟨["exit", "x"], [⟨.write, "/in"⟩, ⟨.writeErrors, "/in"⟩], []⟩, none, true⟩
    a.Joins host ["in"] ∧ ∃ deed, a.deed? host = some deed ∧ deed.isProgram = false ∧
      ∃ rest, rest ≠ [] ∧ (a.run host).1.files.contents? ["in"] =
        some (a.leftIn ["in"] ++ deed.texts host a.stage.name ++ rest) := by
  intro host a
  have hleads : (a.session.openChannels host a.stage).1.files.status a.session.processPlace
      (a.session.resolvePath "/in").text =
        .ok (["in"], .file (Text.encode "PipelineExecutor - DEBUG - stderr -> /in (w)\n") 0o644) := by
    decide +kernel
  have hdeed : (a.deed? host).map (fun deed => (deed.texts host a.stage.name, deed.isProgram)) =
      some (Text.encode "exit: x: numeric argument required\n", false) := by
    decide +kernel
  obtain ⟨deed, hdeed, htexts⟩ := Option.map_eq_some_iff.1 hdeed
  obtain ⟨htexts, hprogram⟩ := Prod.mk.inj htexts
  refine ⟨⟨⟨_, _, _, rfl, hleads⟩, ⟨_, _, _, rfl, hleads⟩⟩, deed, hdeed, hprogram,
    Text.encode "> /in (w)\nBuiltinDispatch - DEBUG - Builtin exit ['x']\n", by decide +kernel, ?_⟩
  rw [htexts]
  decide +kernel

end Arrival

end PipelineShell
