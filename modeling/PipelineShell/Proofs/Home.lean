import PipelineShell.Proofs.Canonical
import PipelineShell.Proofs.Small

/-!
# The home directory

`cd` goes home without an argument, and its argument may start at home. Where there is no home, `cd`
alone and `cd ~` say so and move nothing. What `cd` looks at is whether its target is empty
(`enter_err_eq_homeMissing_iff`), so an empty argument passes for a missing home, and a target below the
home that is missing is one below the root (`moveTo_below_home`).
-/

namespace PipelineShell

namespace Session

variable {s : Session} {arg : String} {args : List String}

/-- There is no home directory: the variable is not set, or it is empty. -/
def Homeless (s : Session) : Prop :=
  s.environment.find? "HOME" = none ∨ s.environment.find? "HOME" = some ""

theorem homeless_iff : s.Homeless ↔ s.home = "" := by
  unfold Homeless home
  cases s.environment.find? "HOME" with
  | none => simp
  | some value => simp

/-- The complaint of `cd` that there is no home directory. -/
def homeMissing : String := "cd: HOME not set\n"

/-! ## Targets -/

theorem expandHome_below (s : Session) (rest : String) :
    s.expandHome ("~/" ++ rest) = s.home ++ ("/" ++ rest) := by
  have htext : ("~/" ++ rest).toList = '~' :: '/' :: rest.toList := by simp
  have hrest : String.ofList ('/' :: rest.toList) = "/" ++ rest :=
    String.ext (by simp)
  simp only [expandHome, htext, hrest]

/-- A path that starts at the root does not start at home. -/
theorem expandHome_rooted (s : Session) (rest : String) : s.expandHome ("/" ++ rest) = "/" ++ rest := by
  have htext : ("/" ++ rest).toList = '/' :: rest.toList := by simp
  simp [expandHome, htext]

theorem expandHome_eq_empty_iff : s.expandHome arg = "" ↔ arg = "" ∨ arg = "~" ∧ s.home = "" := by
  unfold expandHome
  split
  · next htilde =>
    obtain rfl : arg = "~" := String.ext htilde
    simp
  · next rest hbelow =>
    have hne : arg ≠ "" ∧ arg ≠ "~" := by
      constructor
      all_goals
        rintro rfl
        simp at hbelow
    simp [hne]
  · next htilde hbelow =>
    have hne : arg ≠ "~" := by
      rintro rfl
      exact htilde rfl
    simp [hne]

/-- Where `cd` has nowhere to go. -/
theorem moveTarget_eq_empty_iff (hargs : args.length ≤ 1) :
    s.moveTarget args = "" ↔ args = [""] ∨ s.Homeless ∧ (args = [] ∨ args = ["~"]) := by
  rw [homeless_iff]
  match args, hargs with
  | [], _ => simp [moveTarget]
  | [arg], _ => simp [moveTarget, expandHome_eq_empty_iff, and_comm]

/-! ## Complaints -/

/-- A complaint about a path is never the one about the home directory: it has a colon more. -/
theorem complaint_ne_homeMissing (path : String) (e : SystemError) :
    "cd: " ++ path ++ ": " ++ e.reason ++ "\n" ≠ homeMissing := by
  intro h
  have hcolons := congrArg (fun text : String => text.toList.count ':') h
  simp [homeMissing] at hcolons

theorem enter_err_eq_homeMissing_iff (host : Host) (s : Session) (path : String) :
    (s.enter host path).2.err = homeMissing ↔ path = "" := by
  unfold enter
  split
  · next hempty => exact ⟨fun _ => hempty, fun _ => rfl⟩
  · next hfull =>
    constructor
    · intro h
      obtain ⟨e, hstays⟩ | ⟨place, -, hmoved⟩ := changeDirectory_cases host s path
      · rw [hstays] at h
        exact absurd h (complaint_ne_homeMissing path e)
      · rw [hmoved] at h
        simp [Reply.silent, homeMissing] at h
    · exact fun hempty => absurd hempty hfull

theorem moveTo_err_eq_homeMissing_iff (host : Host) (s : Session) (args : List String) :
    (s.moveTo host args).2.err = homeMissing ↔
      args = [""] ∨ s.Homeless ∧ (args = [] ∨ args = ["~"]) := by
  by_cases hargs : args.length ≤ 1
  · rw [moveTo_eq host s hargs, enter_err_eq_homeMissing_iff, moveTarget_eq_empty_iff hargs]
  · match args, hargs with
    | [], hargs => exact absurd (Nat.zero_le 1) hargs
    | [_], hargs => exact absurd (Nat.le_refl 1) hargs
    | first :: second :: rest, _ =>
      have hmany : s.moveTo host (first :: second :: rest) =
          (s, .complain "cd: too many arguments\n") := rfl
      rw [hmany]
      simp [Reply.complain, homeMissing]

theorem moveTo_of_homeMissing (host : Host) (h : (s.moveTo host args).2.err = homeMissing) :
    s.moveTo host args = (s, .complain homeMissing) := by
  have hargs := (moveTo_err_eq_homeMissing_iff host s args).1 h
  have hfew : args.length ≤ 1 := by
    rcases hargs with rfl | ⟨-, rfl | rfl⟩
    all_goals simp
  rw [moveTo_eq host s hfew, (moveTarget_eq_empty_iff hfew).2 hargs]
  rfl

/-- Without a home directory, what is below it is below the root. -/
theorem moveTo_below_home (host : Host) (h : s.Homeless) (rest : String) :
    s.moveTo host ["~/" ++ rest] = s.moveTo host ["/" ++ rest] := by
  have htarget : s.moveTarget ["~/" ++ rest] = s.moveTarget ["/" ++ rest] := by
    simp only [moveTarget, expandHome_below, expandHome_rooted, homeless_iff.1 h, String.empty_append]
  rw [moveTo_eq host s (by simp), moveTo_eq host s (by simp), htarget]

/-! ## What `cd` does -/

theorem homeless_note (host : Host) (s : Session) (event : Event) :
    (s.note host event).Homeless ↔ s.Homeless := by
  simp only [Homeless, note_environment]

/-- `cd` misses its home where it is alone or has a tilde alone and there is no home directory, where its
argument is empty, and nowhere else. It says so then, fails and moves nothing. A target below a home
directory that is missing is not missed: it is one below the root. -/
theorem perform_cd_homeless (host : Host) (s : Session) :
    (∀ args, (s.perform host .cd args).2.err = homeMissing ↔
      args = [""] ∨ s.Homeless ∧ (args = [] ∨ args = ["~"])) ∧
    (∀ args, (s.perform host .cd args).2.err = homeMissing →
      (s.perform host .cd args).2 = .complain homeMissing ∧ Unmoved s (s.perform host .cd args).1) ∧
    (s.Homeless → ∀ rest, s.moveTo host ["~/" ++ rest] = s.moveTo host ["/" ++ rest]) := by
  refine ⟨?_, ?_, moveTo_below_home host⟩
  · intro args
    rw [← homeless_note host s (.builtin Builtin.cd.name args)]
    exact moveTo_err_eq_homeMissing_iff host _ args
  · intro args h
    have hcd : s.perform host .cd args =
        (s.note host (.builtin Builtin.cd.name args), .complain homeMissing) :=
      moveTo_of_homeMissing host h
    rw [hcd]
    exact ⟨rfl, (progress_unmoved host).note s _ rfl⟩

/-- Without a home directory a tilde alone moves nothing. -/
theorem perform_cd_homeless_tilde :
    Small.furnished.Homeless ∧
      (Small.furnished.perform Small.movingHost .cd ["~"]).2 = .complain homeMissing ∧
      Small.furnished.moveTo Small.movingHost ["~/" ++ "d/e"] =
        Small.furnished.moveTo Small.movingHost ["/" ++ "d/e"] := by
  obtain ⟨hwhere, hstays, hbelow⟩ := perform_cd_homeless Small.movingHost Small.furnished
  have hhomeless : Small.furnished.Homeless := .inl rfl
  have htilde := (hwhere ["~"]).2 (.inr ⟨hhomeless, .inr rfl⟩)
  exact ⟨hhomeless, (hstays ["~"] htilde).1, hbelow hhomeless "d/e"⟩

/-- A home directory that is missing does not keep `cd` from moving below it, and one that is there does
not keep it from being called missing. -/
theorem strays_without_home :
    let below := Small.furnished.perform Small.movingHost .cd ["~/d/e"]
    let housed := { Small.furnished with environment := ⟨[("HOME", "/d")]⟩ }
    Small.furnished.Homeless ∧ below.2.ending = .ok 0 ∧ below.2.err = "" ∧
      below.1.directory = "/d/e" ∧ below.1.processPlace = ["e", "d"] ∧
      ¬housed.Homeless ∧ (housed.perform Small.movingHost .cd [""]).2.err = homeMissing := by
  intro below housed
  have hbelow : below.2.err = "" ∧ below.1.directory = "/d/e" ∧ below.1.processPlace = ["e", "d"] := by
    decide +kernel
  have hhoused : ¬housed.Homeless := by simp [housed, homeless_iff, home, Environment.find?]
  exact ⟨.inl rfl, rfl, hbelow.1, hbelow.2.1, hbelow.2.2, hhoused, rfl⟩

end Session

end PipelineShell
