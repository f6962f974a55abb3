import PipelineShell.Dialogue
import PipelineShell.Proofs.Blindness
import PipelineShell.Proofs.Small

/-!
# The moments of a dialogue

A dialogue is a sequence of moments: an attempt to read a line is interrupted, or a line is read and
run. `Held` tells what each moment does to the dialogue and when the dialogue ends, and every dialogue
over a script is one of its sequences (`held_follow`). Interrupted attempts leave no trace but what they
show on the terminal (`Held.calm`). `hold_schedule` puts this together for the lines of a text.
-/

namespace PipelineShell

/-! ## Runners -/

/-- A runner does not look at what the terminal has received. -/
def Blind (runner : Runner) : Prop :=
  ∀ {old old' : Bytes} {s s' : Session}, s.Apart old old' s' → ∀ number line,
    SameAnswer (Session.Apart old old') (runner number s line) (runner number s' line)

/-- What ends the running of a line from outside: an interrupt, or a failure with a message. -/
structure Fault where
  /-- What has been done of the line by then. -/
  done : Session → Session
  /-- The message of a failure. An interrupt has none. -/
  message : Option String
  blind : ∀ {old old' : Bytes} {s s' : Session}, s.Apart old old' s' →
    (done s).Apart old old' (done s')

namespace Fault

/-- How a line ends that a fault strikes. -/
def verdict (fault : Fault) : Verdict :=
  match fault.message with
  | none => .interrupted
  | some message => .failed message

/-- A fault that strikes before anything of a line is done. -/
def atOnce (message : Option String) : Fault := ⟨id, message, id⟩

/-- A fault that strikes when a line has come to the stage after `k` others, or when it is through. -/
def amid (host : Host) (line : String) (k : Nat) (message : Option String) : Fault where
  done s := ((s.lineArrivals host line)[k]?.map Arrival.session).getD (s.execute host line).1
  message := message
  blind := by
    intro old old' s s' h
    have hmatches : List.Forall₂ (Arrival.Matches host host (Session.Apart old old'))
        (s.lineArrivals host line) (s'.lineArrivals host line) :=
      ((Session.unseen_apart host old old').inStep.runLine h fun _ _ => trivial).2
    have hexecute := (Session.execute_apart host h line).2
    obtain ⟨hlength, hget⟩ := List.forall₂_iff_get.1 hmatches
    by_cases hk : k < (s.lineArrivals host line).length
    · have hk' : k < (s'.lineArrivals host line).length := hlength ▸ hk
      rw [List.getElem?_eq_getElem hk, List.getElem?_eq_getElem hk']
      exact (hget k hk hk').session
    · have hk' : ¬k < (s'.lineArrivals host line).length := hlength ▸ hk
      rw [List.getElem?_eq_none (Nat.not_lt.1 hk), List.getElem?_eq_none (Nat.not_lt.1 hk')]
      exact hexecute

end Fault

/-- Run a line as the shell does, unless there is a fault for the line of this number. -/
def Session.runUnless (host : Host) (faults : Nat → Option Fault) : Runner := fun number s line =>
  match faults number with
  | some fault => (fault.done s, fault.verdict)
  | none => run host number s line

theorem Session.blind_runUnless (host : Host) (faults : Nat → Option Fault) :
    Blind (runUnless host faults) := by
  intro old old' s s' h number line
  unfold runUnless
  cases faults number with
  | some fault => exact ⟨rfl, fault.blind h⟩
  | none =>
    obtain ⟨done, done', answer, hdone, hdone', hafter⟩ := (execute_apart host h line).exists
    simp only [run, hdone, hdone']
    cases answer with
    | ok status => exact ⟨rfl, hafter.flushOutput⟩
    | error stop => cases stop <;> exact ⟨rfl, hafter⟩

namespace Verdict

/-- The code with which a line leaves the session. -/
def code? : Verdict → Option Nat
  | leave code => some code
  | _ => none

theorem code?_eq_some_iff {verdict : Verdict} {code : Nat} :
    verdict.code? = some code ↔ verdict = .leave code := by
  cases verdict <;> simp [code?]

/-- The status that a line leaves behind. -/
def lastStatus? : Verdict → Option Int
  | status n => some n
  | leave _ => none
  | interrupted => some 1
  | failed _ => some 1

end Verdict

/-! ## Moments -/

/-- What comes of one attempt to read a line. -/
inductive Moment
  /-- The attempt is interrupted. -/
  | dropped
  /-- A line is read and run. This shows the given bytes on the terminal. -/
  | ran (line : String) (verdict : Verdict) (shown : Bytes)
  deriving DecidableEq, Repr

namespace Moment

/-- What came of waiting. -/
def read : Moment → Read
  | dropped => .interrupt
  | ran line _ _ => .line line

theorem read_eq_interrupt_iff (moment : Moment) : moment.read = .interrupt ↔ moment = .dropped := by
  cases moment <;> simp [read]

/-- The line that was run, with how it ended. -/
def run? : Moment → Option (String × Verdict)
  | dropped => none
  | ran line verdict _ => some (line, verdict)

/-- What the terminal receives, the prompt included. -/
def text : Moment → Bytes
  | dropped => Text.encode prompt ++ Text.encode "\n"
  | ran _ _ shown => Text.encode prompt ++ shown

end Moment

/-- The lines that were run, with how they ended. -/
def runsOf (moments : List Moment) : List (String × Verdict) := moments.filterMap Moment.run?

/-- The moments in which a line was run. -/
def calmOf (moments : List Moment) : List Moment := moments.filter (·.run?.isSome)

theorem runsOf_calmOf (moments : List Moment) : runsOf (calmOf moments) = runsOf moments := by
  induction moments with
  | nil => rfl
  | cons moment rest ih =>
    cases moment with
    | dropped => exact ih
    | ran line verdict shown => exact congrArg ((line, verdict) :: ·) ih

theorem map_read_calmOf (moments : List Moment) :
    (calmOf moments).map Moment.read = ((runsOf moments).map Prod.fst).map Read.line := by
  induction moments with
  | nil => rfl
  | cons moment rest ih =>
    cases moment with
    | dropped => exact ih
    | ran line verdict shown => exact congrArg (Read.line line :: ·) ih

/-- The code with which the last of some lines leaves the session. -/
def exitCode? (runs : List (String × Verdict)) : Option Nat :=
  runs.getLast?.bind fun run => run.2.code?

/-- The moments are those of a script, up to one in which a line leaves the session. -/
def Follows (moments : List Moment) (reads : List Read) : Prop :=
  ∃ rest, reads = moments.map Moment.read ++ rest ∧
    (rest = [] ∨ (exitCode? (runsOf moments)).isSome)

/-- What the terminal receives at the end of the input. -/
def farewell : Bytes := Text.encode prompt ++ Text.encode "\n"

theorem exitCode?_ran {verdict : Verdict} (h : verdict.code? = none) (line : String)
    (shown : Bytes) (moments : List Moment) :
    exitCode? (runsOf (.ran line verdict shown :: moments)) = exitCode? (runsOf moments) := by
  have hruns : runsOf (.ran line verdict shown :: moments) = (line, verdict) :: runsOf moments := rfl
  rw [hruns]
  cases runsOf moments with
  | nil => exact h
  | cons next rest => simp [exitCode?]

namespace Dialogue

variable {host : Host} {runner : Runner} {d d₀ last : Dialogue} {moments : List Moment} {code : Nat}

/-- A dialogue goes through some moments and ends with a code. -/
inductive Held (host : Host) (runner : Runner) :
    Dialogue → List Moment → Dialogue → Nat → Prop
  /-- The input ends. -/
  | ended (d : Dialogue) : Held host runner d [] (d.ask.print "\n") 0
  | dropped {d last : Dialogue} {moments : List Moment} {code : Nat}
    (h : Held host runner (d.ask.print "\n") moments last code) :
    Held host runner d (.dropped :: moments) last code
  | ran {d d' last : Dialogue} {line : String} {verdict : Verdict} {shown : Bytes}
    {moments : List Moment} {code : Nat}
    (hverdict : (runner d.ask.handed d.ask.session line).2 = verdict)
    (hanswer : d.ask.answer host runner (.line line) = (d', none))
    (hshown : d'.session.out = d.ask.session.out ++ shown)
    (h : Held host runner d' moments last code) :
    Held host runner d (.ran line verdict shown :: moments) last code
  | left {d d' : Dialogue} {line : String} {shown : Bytes} {code : Nat}
    (hverdict : (runner d.ask.handed d.ask.session line).2 = .leave code)
    (hanswer : d.ask.answer host runner (.line line) = (d', some code))
    (hshown : d'.session.out = d.ask.session.out ++ shown) :
    Held host runner d [.ran line (.leave code) shown] d' code

/-! ## One line -/

theorem print_out (d : Dialogue) (text : String) :
    (d.print text).session.out = d.session.out ++ Text.encode text := rfl

theorem ask_out (d : Dialogue) : d.ask.session.out = d.session.out ++ Text.encode prompt := rfl

/-- A line ends the dialogue if it leaves the session. Otherwise its status is the last one. -/
theorem answer_line (host : Host) (runner : Runner) (d : Dialogue) (line : String) :
    let verdict := (runner d.handed d.session line).2
    let answered := d.answer host runner (.line line)
    answered.2 = verdict.code? ∧ answered.1.lastStatus = verdict.lastStatus?.getD d.lastStatus ∧
      answered.1.handed = d.handed + 1 := by
  simp only [answer]
  generalize runner d.handed d.session line = r
  obtain ⟨s, verdict⟩ := r
  cases verdict <;> exact ⟨rfl, rfl, rfl⟩

/-- Two dialogues differ only in what the terminal has received, or is to receive with the next
prompt. -/
def SameButOut (d d' : Dialogue) : Prop :=
  d'.lastStatus = d.lastStatus ∧ d'.handed = d.handed ∧
    d'.session = { d.session with
      out := d'.session.out
      held := { d.session.held with out := d'.session.held.out } }

theorem SameButOut.refl (d : Dialogue) : SameButOut d d := ⟨rfl, rfl, rfl⟩

theorem sameButOut_of_apart {s s' : Session} {old old' : Bytes} (h : s.Apart old old' s')
    (lastStatus : Int) (handed : Nat) :
    SameButOut ⟨s, lastStatus, handed⟩ ⟨s', lastStatus, handed⟩ := by
  obtain ⟨text, -, rfl⟩ := h
  exact ⟨rfl, rfl, rfl⟩

theorem SameButOut.print (h : SameButOut d d₀) (text text' : String) :
    SameButOut (d.print text) (d₀.print text') := by
  obtain ⟨hlast, hhanded, hsession⟩ := h
  refine ⟨hlast, hhanded, ?_⟩
  simp only [Dialogue.print]
  rw [hsession]
  rfl

theorem SameButOut.printed (h : SameButOut d d₀) (text : String) : SameButOut (d.print text) d₀ :=
  h

theorem SameButOut.asked (h : SameButOut d d₀) : SameButOut d.ask d₀ := h

/-- With the prompt the terminal receives all that was held back before it. -/
theorem SameButOut.ask (h : SameButOut d d₀) :
    SameButOut d.ask d₀.ask ∧
      d.ask.session.Apart d.ask.session.out d₀.ask.session.out d₀.ask.session := by
  obtain ⟨hlast, hhanded, hsession⟩ := h
  have hasked : d₀.ask.session = { d.ask.session with out := d₀.ask.session.out } := by
    simp only [Dialogue.ask]
    rw [hsession]
    rfl
  have hstart : d.ask.session.Apart d.ask.session.out d₀.ask.session.out
      { d.ask.session with out := d₀.ask.session.out } := .start _ _
  rw [← hasked] at hstart
  exact ⟨⟨hlast, hhanded, by rw [hasked]⟩, hstart⟩

/-- What the terminal has received makes no difference to a line, which shows the same after it. -/
theorem SameButOut.answer (host : Host) (hblind : Blind runner) (h : SameButOut d d₀) (line : String) :
    (runner d₀.ask.handed d₀.ask.session line).2 = (runner d.ask.handed d.ask.session line).2 ∧
      ∃ (d' d₀' : Dialogue) (left : Option Nat) (shown : Bytes),
        d.ask.answer host runner (.line line) = (d', left) ∧
        d₀.ask.answer host runner (.line line) = (d₀', left) ∧ SameButOut d' d₀' ∧
        d'.session.out = d.ask.session.out ++ shown ∧
        d₀'.session.out = d₀.ask.session.out ++ shown := by
  obtain ⟨⟨hlast, hhanded, -⟩, hapart⟩ := h.ask
  obtain ⟨s, s', verdict, hrun, hrun', hafter⟩ := (hblind hapart d.ask.handed line).exists
  rw [← hhanded] at hrun'
  have hends : ∀ (s s' : Session) (status : Int) (left : Option Nat),
      s.Apart d.ask.session.out d₀.ask.session.out s' →
      ∃ (d' d₀' : Dialogue) (left' : Option Nat) (shown : Bytes),
        (Dialogue.mk s status (d.ask.handed + 1), left) = (d', left') ∧
        (Dialogue.mk s' status (d₀.ask.handed + 1), left) = (d₀', left') ∧
        SameButOut d' d₀' ∧ d'.session.out = d.ask.session.out ++ shown ∧
        d₀'.session.out = d₀.ask.session.out ++ shown := by
    intro s s' status left happart
    rw [hhanded]
    have hsame := sameButOut_of_apart happart status (d.ask.handed + 1)
    obtain ⟨shown, hout, rfl⟩ := happart
    exact ⟨_, _, left, shown, rfl, rfl, hsame, hout, rfl⟩
  simp only [Dialogue.answer, hrun, hrun', hlast, true_and]
  cases verdict with
  | status n => exact hends _ _ _ _ hafter
  | leave code => exact hends _ _ _ _ (hafter.note _)
  | interrupted => exact hends _ _ _ _ (hafter.print _)
  | failed message => exact hends _ _ _ _ ((hafter.note _).printError _)

/-! ## Whole dialogues -/

/-- A line that does not end the dialogue does not leave the session. -/
theorem code?_eq_none {d' : Dialogue} {line : String} {verdict : Verdict}
    (hverdict : (runner d.handed d.session line).2 = verdict)
    (hanswer : d.answer host runner (.line line) = (d', none)) : verdict.code? = none := by
  have hcode := (answer_line host runner d line).1
  rw [hanswer, hverdict] at hcode
  exact hcode.symm

/-- A dialogue over a script goes through the moments of the script. -/
theorem held_follow (host : Host) (hblind : Blind runner) (d : Dialogue) (reads : List Read) :
    ∃ moments, Follows moments reads ∧ Held host runner d moments
      (follow host runner d reads).1 (follow host runner d reads).2 := by
  induction reads generalizing d with
  | nil => exact ⟨[], ⟨[], rfl, .inl rfl⟩, .ended d⟩
  | cons read rest ih =>
    cases read with
    | interrupt =>
      obtain ⟨moments, ⟨after, rfl, hafter⟩, hheld⟩ := ih (d.ask.print "\n")
      exact ⟨.dropped :: moments, ⟨after, rfl, hafter⟩, .dropped hheld⟩
    | line line =>
      obtain ⟨-, d', -, left, shown, hanswer, -, -, hshown, -⟩ :=
        (SameButOut.refl d).answer host hblind line
      simp only [follow, hanswer]
      cases left with
      | none =>
        have hcode := code?_eq_none rfl hanswer
        obtain ⟨moments, ⟨after, rfl, hafter⟩, hheld⟩ := ih d'
        refine ⟨.ran line _ shown :: moments, ⟨after, rfl, ?_⟩, .ran rfl hanswer hshown hheld⟩
        rwa [exitCode?_ran hcode]
      | some code =>
        have hcode := (answer_line host runner d.ask line).1
        rw [hanswer] at hcode
        have hleave := Verdict.code?_eq_some_iff.1 hcode.symm
        exact ⟨[.ran line (.leave code) shown], ⟨rest, rfl, .inr rfl⟩, .left hleave hanswer hshown⟩

/-- The moments tell what comes of every script that they follow. -/
theorem Held.follow (h : Held host runner d moments last code) {reads : List Read}
    (hfollows : Follows moments reads) : follow host runner d reads = (last, code) := by
  obtain ⟨rest, rfl, hrest⟩ := hfollows
  induction h with
  | ended d =>
    rcases hrest with rfl | hleft
    · rfl
    · cases hleft
  | dropped h ih => exact ih hrest
  | ran hverdict hanswer hshown h ih =>
    have hcode := code?_eq_none hverdict hanswer
    simp only [List.map_cons, Moment.read, List.cons_append, Dialogue.follow, hanswer]
    rw [exitCode?_ran hcode] at hrest
    exact ih hrest
  | left hverdict hanswer hshown =>
    simp only [List.map_cons, Moment.read, List.cons_append, Dialogue.follow, hanswer]

/-- The code of a dialogue is that of its last line if this one leaves the session. -/
theorem Held.code_eq (h : Held host runner d moments last code) :
    code = (exitCode? (runsOf moments)).getD 0 := by
  induction h with
  | ended d => rfl
  | dropped h ih => exact ih
  | ran hverdict hanswer hshown h ih => rw [ih, exitCode?_ran (code?_eq_none hverdict hanswer)]
  | left hverdict hanswer hshown => rfl

/-- No line but the last one leaves the session. -/
theorem Held.stays (h : Held host runner d moments last code) :
    ∀ run ∈ (runsOf moments).dropLast, run.2.code? = none := by
  induction h with
  | ended d => simp [runsOf]
  | dropped h ih => exact ih
  | @ran d d' last line verdict shown moments code hverdict hanswer hshown h ih =>
    have hcode := code?_eq_none hverdict hanswer
    change ∀ run ∈ ((line, verdict) :: runsOf moments).dropLast, run.2.code? = none
    cases hruns : runsOf moments with
    | nil => simp
    | cons next rest =>
      rw [hruns] at ih
      intro run hrun
      rcases List.mem_cons.1 hrun with rfl | hrest
      · exact hcode
      · exact ih run hrest
  | left hverdict hanswer hshown => simp [runsOf, Moment.run?]

theorem getLast?_filterMap_cons {α β : Type} (f : α → Option β) (a : α) (rest : List α)
    (default : β) :
    (((a :: rest).filterMap f).getLast?).getD default =
      ((rest.filterMap f).getLast?).getD ((f a).getD default) := by
  cases h : f a with
  | none => simp [h]
  | some b => simp [h, List.getLast?_cons]

/-- The last status is that of the last line that has not left the session. -/
theorem Held.lastStatus_eq (h : Held host runner d moments last code) :
    last.lastStatus =
      (((runsOf moments).filterMap fun run => run.2.lastStatus?).getLast?).getD d.lastStatus := by
  induction h with
  | ended d => rfl
  | dropped h ih => exact ih
  | @ran d d' last line verdict shown moments code hverdict hanswer hshown h ih =>
    have hstatus := (answer_line host runner d.ask line).2.1
    rw [hanswer, hverdict] at hstatus
    rw [ih, hstatus]
    exact (getLast?_filterMap_cons _ (line, verdict) (runsOf moments) _).symm
  | @left d d' line shown code hverdict hanswer hshown =>
    have hstatus := (answer_line host runner d.ask line).2.1
    rw [hanswer, hverdict] at hstatus
    exact hstatus

/-- A line that a fault strikes ends as the fault has it. -/
theorem Held.struck {faults : Nat → Option Fault}
    (h : Held host (Session.runUnless host faults) d moments last code) {k : Nat}
    {run : String × Verdict} {fault : Fault} (hk : (runsOf moments)[k]? = some run)
    (hfault : faults (d.handed + k) = some fault) : run.2 = fault.verdict := by
  have hruns : ∀ (number : Nat) (s : Session) (line : String), faults number = some fault →
      (Session.runUnless host faults number s line).2 = fault.verdict := by
    intro number s line hnumber
    unfold Session.runUnless
    rw [hnumber]
  induction h generalizing k with
  | ended d => cases hk
  | dropped h ih => exact ih hk hfault
  | @ran d d' last line verdict shown moments code hverdict hanswer hshown h ih =>
    cases k with
    | zero =>
      cases hk
      exact hverdict.symm.trans (hruns _ _ _ hfault)
    | succ k =>
      have hhanded := (answer_line host (Session.runUnless host faults) d.ask line).2.2
      rw [hanswer] at hhanded
      refine ih hk ?_
      rw [hhanded, Nat.add_right_comm, Nat.add_assoc]
      exact hfault
  | left hverdict hanswer hshown =>
    cases k with
    | zero =>
      cases hk
      exact hverdict.symm.trans (hruns _ _ _ hfault)
    | succ k => cases hk

/-- The first line is struck at once and the second one at its second stage; the third line, the same as
the first one, is spared. -/
example :
    let faults : Nat → Option Fault
      | 0 => some (.atOnce none)
      | 1 => some (.amid Small.host "echo b > /f | echo c" 1 (some "lost"))
      | _ => none
    let held := hold Small.host (Session.runUnless Small.host faults) Small.session
      [.line "echo a", .line "echo b > /f | echo c", .line "echo a"]
    held.1.session.out = Text.encode "$ \n$ $ a\n$ \n" ∧
      held.1.session.err = Text.encode "lineshell: lost\n" ∧ held.1.lastStatus = 0 := by
  decide +kernel

/-- What the terminal receives is what each moment shows, and the last prompt if the input ends. -/
theorem Held.out_eq (h : Held host runner d moments last code) :
    last.session.out = d.session.out ++ moments.flatMap Moment.text ++
      if (exitCode? (runsOf moments)).isSome then [] else farewell := by
  induction h with
  | ended d => simp [print_out, ask_out, farewell, runsOf, exitCode?]
  | @dropped d last moments code h ih =>
    have hruns : runsOf (.dropped :: moments) = runsOf moments := rfl
    rw [ih, hruns]
    simp only [print_out, ask_out, List.flatMap_cons, Moment.text, List.append_assoc]
  | ran hverdict hanswer hshown h ih =>
    rw [ih, exitCode?_ran (code?_eq_none hverdict hanswer), hshown]
    simp only [ask_out, List.flatMap_cons, Moment.text, List.append_assoc]
  | left hverdict hanswer hshown =>
    rw [hshown]
    simp [ask_out, Moment.text, exitCode?, runsOf, Moment.run?, Verdict.code?]

/-- Without the attempts that are interrupted a dialogue is the same but for what the terminal has
received. -/
theorem Held.calm (hblind : Blind runner) (h : Held host runner d moments last code)
    (hsame : SameButOut d d₀) :
    ∃ last₀, Held host runner d₀ (calmOf moments) last₀ code ∧ SameButOut last last₀ := by
  induction h generalizing d₀ with
  | ended d => exact ⟨_, .ended d₀, hsame.ask.1.print "\n" "\n"⟩
  | dropped h ih => exact ih (hsame.asked.printed "\n")
  | @ran d d' last line verdict shown moments code hverdict hanswer hshown h ih =>
    obtain ⟨hverdict₀, d₁, d₀', left, text, hanswer₁, hanswer₀, hsame', hshown₁, hshown₀⟩ :=
      hsame.answer host hblind line
    cases hanswer₁.symm.trans hanswer
    obtain ⟨last₀, hheld, hlast⟩ := ih hsame'
    have htext : text = shown := List.append_cancel_left (hshown₁.symm.trans hshown)
    subst htext
    exact ⟨last₀, .ran (hverdict₀.trans hverdict) hanswer₀ hshown₀ hheld, hlast⟩
  | @left d d' line shown code hverdict hanswer hshown =>
    obtain ⟨hverdict₀, d₁, d₀', left, text, hanswer₁, hanswer₀, hsame', hshown₁, hshown₀⟩ :=
      hsame.answer host hblind line
    cases hanswer₁.symm.trans hanswer
    have htext : text = shown := List.append_cancel_left (hshown₁.symm.trans hshown)
    subst htext
    exact ⟨d₀', .left (hverdict₀.trans hverdict) hanswer₀ hshown₀, hsame'⟩

/-! ## Scripts -/

/-- The lines that are read in a script. -/
def linesRead (reads : List Read) : List String :=
  reads.filterMap fun read =>
    match read with
    | .line text => some text
    | .interrupt => none

theorem linesRead_map_read (moments : List Moment) :
    linesRead (moments.map Moment.read) = (runsOf moments).map Prod.fst := by
  induction moments with
  | nil => rfl
  | cons moment rest ih =>
    cases moment with
    | dropped => exact ih
    | ran line verdict shown => exact congrArg (line :: ·) ih

/-- No line is lost to an interrupt. -/
theorem linesRead_schedule (interrupts : List Nat) (attempt : Nat) (lines : List String) :
    linesRead (schedule interrupts attempt lines) = lines := by
  fun_induction schedule interrupts attempt lines with
  | case1 interrupts attempt lines h _ ih => exact ih
  | case2 => rfl
  | case3 interrupts attempt _ line rest ih => exact congrArg (line :: ·) ih

theorem schedule_nil (attempt : Nat) (lines : List String) :
    schedule [] attempt lines = lines.map Read.line := by
  induction lines generalizing attempt with
  | nil => simp [schedule]
  | cons line rest ih => rw [schedule, ih]; simp

/-- Just the attempts that are to be interrupted are. -/
theorem schedule_getElem? {interrupts : List Nat} {attempt k : Nat} {lines : List String} {read : Read}
    (h : (schedule interrupts attempt lines)[k]? = some read) :
    read = .interrupt ↔ attempt + k ∈ interrupts := by
  fun_induction schedule interrupts attempt lines generalizing k with
  | case1 interrupts attempt lines hmem _ ih =>
    cases k with
    | zero =>
      cases h
      simpa using hmem
    | succ k =>
      rw [ih h, without, List.mem_filter, Nat.add_right_comm, Nat.add_assoc]
      simp
  | case2 => cases h
  | case3 interrupts attempt hmem line rest ih =>
    cases k with
    | zero =>
      cases h
      simpa using hmem
    | succ k => rw [ih h, Nat.add_right_comm, Nat.add_assoc]

/-- The attempt at which the input ends is not to be interrupted. -/
theorem length_schedule_notMem (interrupts : List Nat) (attempt : Nat) (lines : List String) :
    attempt + (schedule interrupts attempt lines).length ∉ interrupts := by
  fun_induction schedule interrupts attempt lines with
  | case1 interrupts attempt lines hmem _ ih =>
    intro hend
    apply ih
    rw [List.length_cons, Nat.add_comm _ 1, ← Nat.add_assoc] at hend
    exact List.mem_filter.2 ⟨hend, by simp; omega⟩
  | case2 interrupts attempt hmem => exact hmem
  | case3 interrupts attempt hmem line rest ih =>
    rw [List.length_cons, Nat.add_comm _ 1, ← Nat.add_assoc]
    exact ih

end Dialogue

/-! ## Texts -/

theorem Text.flatMap_fields (separator : Char) (text : List Char) :
    ((Text.fields separator text).flatMap fun field => field ++ [separator]) =
      text ++ [separator] := by
  induction text with
  | nil => rfl
  | cons c rest ih =>
    simp only [Text.fields]
    split
    · next h => rw [List.flatMap_cons, ih, h]; rfl
    · cases hf : Text.fields separator rest with
      | nil => exact absurd hf (Text.fields_ne_nil separator rest)
      | cons field others =>
        rw [hf] at ih
        exact congrArg (c :: ·) ih

/-- A text is made of lines: each ends with a line feed, but for the last one, which then is not
empty. -/
def SplitsInto (text : List Char) (lines : List (List Char)) : Prop :=
  (∀ line ∈ lines, '\n' ∉ line) ∧
    ((lines.flatMap fun line => line ++ ['\n']) = text ∨
      ∃ before last, lines = before ++ [last] ∧ last ≠ [] ∧
        (before.flatMap fun line => line ++ ['\n']) ++ last = text)

theorem Dialogue.splitsInto_linesOf (text : List Char) : SplitsInto text (linesOf text) := by
  have hparts := Text.flatMap_fields '\n' text
  have hmem : ∀ part ∈ Text.fields '\n' text, '\n' ∉ part := fun part hpart => Text.mem_fields hpart
  obtain ⟨before, last, hsplit⟩ : ∃ before last, Text.fields '\n' text = before ++ [last] :=
    ⟨_, _, (List.dropLast_concat_getLast (Text.fields_ne_nil '\n' text)).symm⟩
  rw [hsplit] at hparts hmem
  have htext : (before.flatMap fun line => line ++ ['\n']) ++ last = text := by
    rw [List.flatMap_append, List.flatMap_singleton, ← List.append_assoc] at hparts
    exact List.append_cancel_right hparts
  unfold linesOf
  simp only [hsplit, List.getLast?_concat, Option.some.injEq, List.dropLast_concat]
  split
  · next hempty =>
    refine ⟨fun line hline => hmem line (List.mem_append_left _ hline), .inl ?_⟩
    rw [← htext, hempty, List.append_nil]
  · next hlast => exact ⟨hmem, .inr ⟨before, last, rfl, hlast, htext⟩⟩

/-! ## The lines of a text -/

namespace Dialogue

/-- What becomes of lines: some are run, and the dialogue ends with a code and a last status. -/
structure Handed (lines : List String) (runs : List (String × Verdict)) (code : Nat)
    (lastStatus : Int) : Prop where
  /-- The lines are run in their order, each of them once. -/
  order : runs.map Prod.fst <+: lines
  /-- None is run after one that leaves the session, -/
  stays : ∀ run ∈ runs.dropLast, run.2.code? = none
  /-- and all are run if none leaves it. -/
  all : exitCode? runs = none → runs.map Prod.fst = lines
  code : code = (exitCode? runs).getD 0
  /-- The last status is that of the last line that has not left the session. -/
  lastStatus : lastStatus = ((runs.filterMap fun run => run.2.lastStatus?).getLast?).getD 0

variable {interrupts : List Nat} {attempt : Nat} {lines : List String}

/-- Moments of the script of some lines run these in order, and all of them unless one leaves the
session. -/
theorem exists_rest (h : Follows moments (schedule interrupts attempt lines)) :
    ∃ rest, (runsOf moments).map Prod.fst ++ rest = lines ∧
      (rest = [] ∨ (exitCode? (runsOf moments)).isSome) := by
  obtain ⟨rest, hreads, hrest⟩ := h
  refine ⟨linesRead rest, ?_, hrest.imp_left fun hnil => by rw [hnil]; rfl⟩
  rw [← linesRead_map_read, ← linesRead_schedule interrupts attempt lines, hreads]
  exact (List.filterMap_append ..).symm

/-- What is left of moments of a script without the interrupted attempts are moments of the script in
which none is interrupted. -/
theorem follows_calmOf (h : Follows moments (schedule interrupts attempt lines)) (attempt' : Nat) :
    Follows (calmOf moments) (schedule [] attempt' lines) := by
  obtain ⟨rest, hlines, hrest⟩ := exists_rest h
  refine ⟨rest.map Read.line, ?_, ?_⟩
  · rw [schedule_nil, map_read_calmOf, ← List.map_append, hlines]
  · rw [runsOf_calmOf]
    exact hrest.imp_left fun hnil => by rw [hnil]; rfl

theorem dropped_iff (h : Follows moments (schedule interrupts attempt lines)) {k : Nat}
    {moment : Moment} (hk : moments[k]? = some moment) :
    moment = .dropped ↔ attempt + k ∈ interrupts := by
  obtain ⟨rest, hreads, -⟩ := h
  have hread : (schedule interrupts attempt lines)[k]? = some moment.read := by
    have hbound := (List.getElem?_eq_some_iff.1 hk).1
    rw [hreads, List.getElem?_append_left (by simpa using hbound), List.getElem?_map, hk]
    rfl
  rw [← moment.read_eq_interrupt_iff, schedule_getElem? hread]

theorem length_notMem (h : Follows moments (schedule interrupts attempt lines))
    (hstays : exitCode? (runsOf moments) = none) : attempt + moments.length ∉ interrupts := by
  obtain ⟨rest, hreads, hrest⟩ := h
  have hend := length_schedule_notMem interrupts attempt lines
  rcases hrest with rfl | hleft
  · rw [hreads, List.append_nil, List.length_map] at hend
    exact hend
  · rw [hstays] at hleft
    cases hleft

/-- A dialogue over the script of some lines hands on these. -/
theorem Held.handed (h : Held host runner d moments last code)
    (hfollows : Follows moments (schedule interrupts attempt lines)) (hstart : d.lastStatus = 0) :
    Handed lines (runsOf moments) code last.lastStatus := by
  obtain ⟨rest, hlines, hrest⟩ := exists_rest hfollows
  refine ⟨⟨rest, hlines⟩, h.stays, ?_, h.code_eq, ?_⟩
  · intro hstays
    rcases hrest with rfl | hleft
    · exact (List.append_nil _).symm.trans hlines
    · rw [hstays] at hleft
      cases hleft
  · rw [h.lastStatus_eq, hstart]

/-- Whatever attempts to read a line are interrupted and whatever runs of lines a fault strikes, the
lines of a text are run one after the other up to one that leaves the session. The interrupted attempts
change nothing but what the terminal receives: each adds a prompt and a line feed. -/
theorem hold_schedule (host : Host) (faults : Nat → Option Fault) (s : Session) (text : String)
    (interrupts : List Nat) :
    let runner := Session.runUnless host faults
    let lines := (linesOf text.toList).map String.ofList
    let start : Dialogue := ⟨s.note host .sessionStarted, 0, 0⟩
    let held := hold host runner s (schedule interrupts 0 lines)
    let calm := hold host runner s (schedule [] 0 lines)
    SplitsInto text.toList (linesOf text.toList) ∧
      ∃ moments, Held host runner start moments held.1 held.2 ∧
        Held host runner start (calmOf moments) calm.1 calm.2 ∧
        (∀ k moment, moments[k]? = some moment → (moment = .dropped ↔ k ∈ interrupts)) ∧
        (exitCode? (runsOf moments) = none → moments.length ∉ interrupts) ∧
        Handed lines (runsOf moments) held.2 held.1.lastStatus ∧
        (∀ k run fault, (runsOf moments)[k]? = some run → faults k = some fault →
          run.2 = fault.verdict) ∧
        calm.2 = held.2 ∧ SameButOut held.1 calm.1 ∧
        let ending := if (exitCode? (runsOf moments)).isSome then [] else farewell
        held.1.session.out = s.out ++ moments.flatMap Moment.text ++ ending ∧
          calm.1.session.out = s.out ++ (calmOf moments).flatMap Moment.text ++ ending := by
  intro runner lines start held calm
  refine ⟨splitsInto_linesOf text.toList, ?_⟩
  have hblind : Blind runner := Session.blind_runUnless host faults
  have hstart : start.session.out = s.out := Session.note_out host s _
  obtain ⟨moments, hfollows, hheld⟩ : ∃ moments, Follows moments (schedule interrupts 0 lines) ∧
      Held host runner start moments held.1 held.2 := held_follow host hblind start _
  obtain ⟨last₀, hcalm, hsame⟩ := hheld.calm hblind (.refl start)
  have hcalmEq : calm = (last₀, held.2) := hcalm.follow (follows_calmOf hfollows 0)
  rw [hcalmEq]
  refine ⟨moments, hheld, hcalm, ?_, ?_, hheld.handed hfollows rfl, ?_, rfl, hsame, ?_, ?_⟩
  · intro k moment hk
    rw [dropped_iff hfollows hk, Nat.zero_add]
  · intro hstays
    have hend := length_notMem hfollows hstays
    rw [Nat.zero_add] at hend
    exact hend
  · intro k run fault hk hfault
    refine hheld.struck hk ?_
    rw [Nat.zero_add]
    exact hfault
  · rw [hheld.out_eq, hstart]
  · rw [hcalm.out_eq, hstart, runsOf_calmOf]

end Dialogue

end PipelineShell
