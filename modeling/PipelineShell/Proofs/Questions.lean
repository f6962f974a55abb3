import PipelineShell.Proofs.Commands
import PipelineShell.Proofs.Small

/-!
# Questions to the completer

A line editor asks for one match after the other, and between two questions anything may happen to the
session. Only the question for match number 0 looks at the session (`ask_of_zero`); the others are
answered from what it found (`askAll_of_later`). So the answers after a look-up list the candidates of
that moment, whatever was found before (`askAll_lists`). A look-up that is refused finds nothing new, and
the questions after it get old matches (`askAll_of_refused`).
-/

namespace PipelineShell

/-- A question to the completer, with the session as it is when the question is put. -/
structure Question where
  session : Session
  /-- The word to complete. -/
  text : String
  /-- The number of the match that is asked for. -/
  number : Int
  /-- The line that the word stands in. -/
  line : String
  /-- Where the word starts. -/
  position : Int

/-- An answer: a match, nothing, or the reason why there is none. -/
abbrev Answer := Except CompletionFailure (Option String)

/-- The line has more than blanks before the word, so the word is not the name of a command. -/
def Question.PastCommand (q : Question) : Prop :=
  ∃ c ∈ q.line.toList.take q.position.toNat, Text.isBlank c = false

instance (q : Question) : Decidable q.PastCommand :=
  decidable_of_iff ((q.line.toList.take q.position.toNat).any (fun c => !Text.isBlank c) = true)
    (by simp [Question.PastCommand])

namespace Completer

variable {host : Host} {completer : Completer} {q : Question} {later : List Question}
  {names : List String}

/-- The completer after a question, and the answer. -/
def ask (host : Host) (completer : Completer) (q : Question) : Completer × Answer :=
  (complete host q.session completer q.text q.number q.line q.position).2

/-- The completer after some questions, and the answers in their order. -/
def askAll (host : Host) (completer : Completer) : List Question → Completer × List Answer
  | [] => (completer, [])
  | q :: rest =>
    let (next, answer) := completer.ask host q
    let (last, answers) := next.askAll host rest
    (last, answer :: answers)

/-- Candidates as they are put into the line: one that is alone has a space after it. -/
def offered (names : List String) : List String :=
  names.map fun name => if names.length = 1 then name ++ " " else name

theorem finish_eq_offered (names : List String) : finish names = offered names := by
  match names with
  | [] => rfl
  | [name] => rfl
  | first :: second :: rest => simp [finish, offered]

/-- The match of a number, counted from 0. -/
def nth (completer : Completer) (number : Int) : Answer := .ok completer.found[number.toNat]?

/-! ## One question -/

theorem ask_of_later (completer : Completer) (h : 0 < q.number) :
    completer.ask host q = (completer, completer.nth q.number) := by
  have hpositive : q.number ≠ 0 ∧ 0 ≤ q.number := by omega
  have hnumber : q.number.natAbs = q.number.toNat := by omega
  simp [ask, complete, itemAt, nth, hpositive, hnumber]

theorem ask_of_zero (completer : Completer) (h : q.number = 0) :
    completer.ask host q =
      match (lookUp host q.session q.text q.line q.position).2 with
      | .ok found => (found, found.nth 0)
      | .error r => (completer, .error (.refused r)) := by
  simp only [ask, complete, h, if_true]
  generalize lookUp host q.session q.text q.line q.position = looked
  obtain ⟨s, found⟩ := looked
  cases found with
  | ok found => rfl
  | error r => rfl

theorem isBlankText_upTo_iff (hposition : 0 ≤ q.position) :
    Text.isBlankText (upTo q.line.toList q.position) = true ↔ ¬q.PastCommand := by
  have hnumber : q.position.natAbs = q.position.toNat := by omega
  rw [upTo, if_neg (by omega), hnumber, Text.isBlankText_iff]
  simp [Question.PastCommand]

theorem lookUp_of_pastCommand (host : Host) (h : q.PastCommand) (hposition : 0 ≤ q.position) :
    (lookUp host q.session q.text q.line q.position).2 = .ok ⟨[]⟩ := by
  rw [lookUp, if_neg (mt (isBlankText_upTo_iff hposition).1 (not_not_intro h))]

theorem lookUp_of_command (host : Host) (h : ¬q.PastCommand) (hposition : 0 ≤ q.position) :
    (lookUp host q.session q.text q.line q.position).2 =
      (q.session.candidates host q.text).2.map fun names => ⟨offered names⟩ := by
  rw [lookUp, if_pos ((isBlankText_upTo_iff hposition).2 h)]
  generalize q.session.candidates host q.text = listed
  obtain ⟨s, names⟩ := listed
  cases names with
  | ok names => simp only [finish_eq_offered, Except.map]
  | error r => rfl

/-! ## Questions one after the other -/

/-- What was found stays what it is as long as nothing is looked up. -/
theorem askAll_of_later (completer : Completer) (h : ∀ q ∈ later, 0 < q.number) :
    completer.askAll host later = (completer, later.map fun q => completer.nth q.number) := by
  induction later with
  | nil => rfl
  | cons q rest ih =>
    obtain ⟨hq, hrest⟩ := List.forall_mem_cons.1 h
    simp only [askAll, ask_of_later completer hq, ih hrest, List.map_cons]

theorem askAll_of_ok (completer : Completer) {found : Completer} (hzero : q.number = 0)
    (hfound : (lookUp host q.session q.text q.line q.position).2 = .ok found)
    (hlater : ∀ l ∈ later, 0 < l.number) :
    (completer.askAll host (q :: later)).2 = (q :: later).map fun l => found.nth l.number := by
  have hask : completer.ask host q = (found, found.nth 0) := by rw [ask_of_zero completer hzero, hfound]
  simp only [askAll, hask, askAll_of_later found hlater, List.map_cons, hzero]

/-- A look-up that is refused leaves the matches of the look-up before. -/
theorem askAll_of_refused (completer : Completer) {r : Refusal} (hzero : q.number = 0)
    (hrefused : (lookUp host q.session q.text q.line q.position).2 = .error r)
    (hlater : ∀ l ∈ later, 0 < l.number) :
    (completer.askAll host (q :: later)).2 =
      .error (.refused r) :: later.map fun l => completer.nth l.number := by
  have hask : completer.ask host q = (completer, .error (.refused r)) := by
    rw [ask_of_zero completer hzero, hrefused]
  simp only [askAll, hask, askAll_of_later completer hlater]

theorem pairwise_candidates {s : Session} {start : String}
    (h : (s.candidates host start).2 = .ok names) : names.Pairwise (· < ·) := by
  obtain ⟨listed, -, rfl⟩ := Session.candidates_ok h
  exact (Session.pairwise_sortNames _).filter _

/-- The questions after a look-up are answered from what it found, whatever was found before and
whatever happens to the sessions in between: nothing for a word that is no command, and otherwise the
candidates of that moment by their numbers, increasing, and nothing after the last one. A look-up is
refused only where a directory of the search path cannot be put to the system, and then it finds nothing
new. -/
theorem askAll_lists (host : Host) (completer : Completer) (hzero : q.number = 0)
    (hposition : 0 ≤ q.position) (hlater : ∀ l ∈ later, 0 < l.number) :
    (q.PastCommand → (completer.askAll host (q :: later)).2 = (q :: later).map fun _ => .ok none) ∧
    (¬q.PastCommand → ∀ names, (q.session.candidates host q.text).2 = .ok names →
      names.Pairwise (· < ·) ∧
        (completer.askAll host (q :: later)).2 =
          (q :: later).map fun l => .ok (offered names)[l.number.toNat]?) ∧
    (¬q.PastCommand → ∀ r, (q.session.candidates host q.text).2 = .error r →
      (completer.askAll host (q :: later)).2 =
        .error (.refused r) :: later.map fun l => completer.nth l.number) ∧
    (q.session.files.WellNamed →
      (q.session.Clear ↔ ∃ names, (q.session.candidates host q.text).2 = .ok names)) := by
  refine ⟨?_, ?_, ?_, ?_⟩
  · intro hpast
    exact askAll_of_ok completer hzero (lookUp_of_pastCommand host hpast hposition) hlater
  · intro hcommand names hnames
    refine ⟨pairwise_candidates hnames, ?_⟩
    have hfound := lookUp_of_command host hcommand hposition
    rw [hnames] at hfound
    exact askAll_of_ok completer hzero hfound hlater
  · intro hcommand r hrefused
    have hfound := lookUp_of_command host hcommand hposition
    rw [hrefused] at hfound
    exact askAll_of_refused completer hzero hfound hlater
  · intro hnamed
    constructor
    · exact fun hclear => Session.candidates_answers host hclear hnamed q.text
    · exact fun ⟨names, hnames⟩ => Session.clear_of_candidates hnames

/-- A look-up for a word behind blanks after other matches, and two questions when the search path is
gone. -/
theorem askAll_lists_cat :
    let searching := { Small.session with environment := ⟨[("PATH", "/")]⟩ }
    let asked : Question := ⟨searching, "c", 0, "  c", 2⟩
    let next (number : Int) : Question := ⟨Small.session, "", number, "", 0⟩
    ((⟨["pwd"]⟩ : Completer).askAll Small.host [asked, next 1, next 2]).2 =
      [.ok (some "cat"), .ok (some "cd"), .ok none] := by
  intro searching asked next
  have hlater : ∀ l ∈ [next 1, next 2], 0 < l.number := by simp [next]
  have hblank : ¬asked.PastCommand := by decide
  have hcandidates : (asked.session.candidates Small.host asked.text).2 = .ok ["cat", "cd"] := by
    decide +kernel
  have hlists := askAll_lists Small.host ⟨["pwd"]⟩ (q := asked) rfl (by decide) hlater
  exact (hlists.2.1 hblank _ hcandidates).2

/-- Where the search path has a directory that cannot be put to the system, an old match is an answer to
the question after the look-up. -/
theorem askAll_stale :
    let spoilt := { Small.session with environment := ⟨[("PATH", "a\x00b")]⟩ }
    let ask (number : Int) : Question := ⟨spoilt, "p", number, "p", 0⟩
    ((⟨["echo", "exit"]⟩ : Completer).askAll Small.host [ask 0, ask 1]).2 =
      [.error (.refused .embeddedNul), .ok (some "exit")] := by
  intro spoilt ask
  decide +kernel

end Completer

end PipelineShell
