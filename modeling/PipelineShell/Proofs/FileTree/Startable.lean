import PipelineShell.Proofs.FileTree.Agreement

/-!
# Files added beside programs

A file that nobody may execute is never started, whatever the paths, scripts and directories of the
search path are that lead to it: where it stands in the way, the start fails with the file and
without it. So files added outside a set of places do not change which program is started
(`executable_agree`). The reasons of a failure may differ.
-/

namespace PipelineShell.FileTree

theorem ownerExecutes_eq_false {mode : Nat} (h : Entry.someoneExecutes mode = false) :
    Entry.ownerExecutes mode = false := by
  have hall : mode &&& 0o111 = 0 := by simpa [Entry.someoneExecutes] using h
  have howner : mode &&& 0o100 = (mode &&& 0o111) &&& 0o100 := by
    rw [Nat.and_assoc]
    rfl
  simp [Entry.ownerExecutes, howner, hall]

variable {X : Place → Prop} {added : Place → Option Entry} {t t' : FileTree} {start : Place}
  {path : String} {busy busy' : List Place}

/-! ## Lookups -/

/-- What the lookups of an object come to without the files added and with them. -/
inductive StatusBeside :
    Except SystemError (Place × Entry) → Except SystemError (Place × Entry) → Prop
  | same (answer : Except SystemError (Place × Entry)) : StatusBeside answer answer
  | failed (e e' : SystemError) : StatusBeside (.error e) (.error e')
  | idle (e : SystemError) (place : Place) (content : Bytes) {mode : Nat}
    (h : Entry.someoneExecutes mode = false) :
    StatusBeside (.error e) (.ok (place, .file content mode))

theorem status_beside (h : Agree X added t t') (start : Place) (path : String) :
    StatusBeside (t.status start path) (t'.status start path) := by
  cases hstatus : t.status start path with
  | ok found =>
    -- all that the lookup has seen is in both trees
    have htrail : ∀ p ∈ t.trail .object start path, t'.find? p = t.find? p :=
      fun p hp => h.inside p (h.of_isSome (isSome_of_mem_trail hstatus p hp))
    rw [status_congr h.grants htrail, hstatus]
    exact .same _
  | error e =>
    cases hstatus' : t'.status start path with
    | error e' => exact .failed e e'
    | ok found =>
      obtain ⟨place, entry⟩ := found
      obtain ⟨hlocate, hfind⟩ := status_eq_ok_iff.1 hstatus'
      by_cases hplace : X place
      · -- the lookup cannot have passed through a file, so it has seen nothing that was added
        have htrail : ∀ p ∈ t'.trail .object start path, t.find? p = t'.find? p := by
          intro p hp
          rcases (leadsTo_trail hlocate).2 p hp with hend | hopen
          · have hpp : p = place := hend
            rw [hpp, h.inside place hplace]
          · by_cases hX : X p
            · rw [h.inside p hX]
            · rcases hopen with hdir | ⟨target, hlink⟩
              · rw [h.outside p hX] at hdir
                obtain ⟨_, _, hfile, _⟩ := h.idle p hX _ hdir
                cases hfile
              · rw [h.outside p hX] at hlink
                obtain ⟨_, _, hfile, _⟩ := h.idle p hX _ hlink
                cases hfile
        rw [status_congr h.grants.symm htrail, hstatus'] at hstatus
        cases hstatus
      · rw [h.outside place hplace] at hfind
        obtain ⟨content, mode, rfl, hmode⟩ := h.idle place hplace entry hfind
        exact .idle e place content hmode

/-! ## Starting files -/

/-- Two attempts succeed with the same, or both fail. -/
inductive Matching {ε α : Type} : Except ε α → Except ε α → Prop
  | ok (a : α) : Matching (.ok a) (.ok a)
  | error (e e' : ε) : Matching (.error e) (.error e')

theorem Matching.refl {ε α : Type} (r : Except ε α) : Matching r r := by
  cases r with
  | ok a => exact .ok a
  | error e => exact .error e e

/-- The files that are open for writing are the same as far as the places of `X` go. -/
def AgreeBusy (X : Place → Prop) (busy busy' : List Place) : Prop :=
  ∀ p, X p → (p ∈ busy' ↔ p ∈ busy)

theorem openExecutable_agree (h : Agree X added t t') (hbusy : AgreeBusy X busy busy')
    (start : Place) (path : String) :
    Matching (t.openExecutable busy start path) (t'.openExecutable busy' start path) := by
  have hstatus := status_beside h start path
  unfold openExecutable
  cases hfound : t.status start path with
  | error e =>
    rw [hfound] at hstatus
    generalize t'.status start path = answer at hstatus ⊢
    cases hstatus with
    | same => exact .error e e
    | failed _ e' => exact .error e e'
    | idle _ place content hmode =>
      simp only [hmode, true_or, if_true]
      exact .error e .permissionDenied
  | ok found =>
    obtain ⟨place, entry⟩ := found
    rw [hfound] at hstatus
    generalize t'.status start path = answer at hstatus ⊢
    cases hstatus with
    | same =>
      have hplace : X place := by
        refine h.of_isSome ?_
        rw [(status_eq_ok_iff.1 hfound).2]
        rfl
      cases entry with
      | directory => exact .refl _
      | link target => exact .refl _
      | file content mode =>
        simp only [hbusy place hplace, grant_congr h.grants]
        exact .refl _

theorem programOf_agree {installation : Installation} (h : Agree X added t t')
    (hbusy : AgreeBusy X busy busy') (start : Place) (scripts : Nat) (content name : Bytes)
    (argv : List Bytes) :
    Matching (t.programOf installation busy start scripts content name argv)
      (t'.programOf installation busy' start scripts content name argv) := by
  induction scripts using Nat.strongRecOn generalizing content name argv with
  | ind scripts ih =>
    rw [programOf_eq, programOf_eq]
    split
    · exact .refl _
    · exact .refl _
    · next interpreter argument _ _ =>
      have hopen := openExecutable_agree h hbusy start (interpreterPath interpreter)
      generalize t.openExecutable busy start (interpreterPath interpreter) = r at hopen ⊢
      generalize t'.openExecutable busy' start (interpreterPath interpreter) = r' at hopen ⊢
      cases hopen with
      | error e e' => exact .error e e'
      | ok content =>
        cases scripts with
        | zero => exact .refl _
        | succ fewer => exact ih fewer (Nat.lt_succ_self fewer) content _ _

theorem executableFor_agree {installation : Installation} (h : Agree X added t t')
    (hbusy : AgreeBusy X busy busy') (start : Place) (texts : List String) (path : String)
    (argv : List Bytes) :
    Matching (t.executableFor installation busy start texts path argv)
      (t'.executableFor installation busy' start texts path argv) := by
  have hopen := openExecutable_agree h hbusy start path
  unfold executableFor
  generalize t.openExecutable busy start path = r at hopen ⊢
  generalize t'.openExecutable busy' start path = r' at hopen ⊢
  cases hopen with
  | error e e' => exact .error e e'
  | ok content =>
    simp only
    split
    · exact .error _ _
    · exact programOf_agree h hbusy start maxScripts content _ argv

/-- If no path can be started there is a failure, whatever the reasons are that are kept. -/
theorem firstExecutable_nil (begin : String → Except SystemError (Program × List Bytes))
    (kept : Option SystemError) (last : SystemError) :
    ∃ e, firstExecutable begin kept last [] = .error e := by
  cases kept with
  | none => exact ⟨last, rfl⟩
  | some e => exact ⟨e, rfl⟩

/-- A path that cannot be started is passed over. -/
theorem firstExecutable_error {begin : String → Except SystemError (Program × List Bytes)}
    {path : String} {e : SystemError} (h : begin path = .error e) (rest : List String)
    (kept : Option SystemError) (last : SystemError) :
    ∃ kept', firstExecutable begin kept last (path :: rest) =
      firstExecutable begin kept' e rest := by
  by_cases hmissing : e = .noEntry ∨ e = .notDirectory
  · exact ⟨kept, by cases kept <;> simp only [firstExecutable, h, if_pos hmissing]⟩
  · exact ⟨kept.or (some e), by cases kept <;> simp only [firstExecutable, h, if_neg hmissing]⟩

theorem firstExecutable_agree {begin begin' : String → Except SystemError (Program × List Bytes)}
    (h : ∀ path, Matching (begin path) (begin' path)) (paths : List String)
    (kept kept' : Option SystemError) (last last' : SystemError) :
    Matching (firstExecutable begin kept last paths) (firstExecutable begin' kept' last' paths) := by
  induction paths generalizing kept kept' last last' with
  | nil =>
    obtain ⟨e, he⟩ := firstExecutable_nil begin kept last
    obtain ⟨e', he'⟩ := firstExecutable_nil begin' kept' last'
    rw [he, he']
    exact .error e e'
  | cons path rest ih =>
    have hpath := h path
    cases hhere : begin path with
    | ok found =>
      cases hhere' : begin' path with
      | error e' =>
        rw [hhere, hhere'] at hpath
        cases hpath
      | ok found' =>
        rw [hhere, hhere'] at hpath
        cases hpath
        have hfirst : firstExecutable begin kept last (path :: rest) = .ok found := by
          cases kept <;> simp only [firstExecutable, hhere]
        have hfirst' : firstExecutable begin' kept' last' (path :: rest) = .ok found := by
          cases kept' <;> simp only [firstExecutable, hhere']
        rw [hfirst, hfirst']
        exact .ok found
    | error e =>
      cases hhere' : begin' path with
      | ok found' =>
        rw [hhere, hhere'] at hpath
        cases hpath
      | error e' =>
        obtain ⟨next, hnext⟩ := firstExecutable_error hhere rest kept last
        obtain ⟨next', hnext'⟩ := firstExecutable_error hhere' rest kept' last'
        rw [hnext, hnext']
        exact ih next next' e e'

/-- The files added make no difference to the program that an order starts. -/
theorem executable_agree {installation : Installation} {order order' : Order}
    (h : Agree X added t t') (hbusy : AgreeBusy X busy busy') (hpath : order'.path = order.path)
    (hargv : order'.argv = order.argv) (hdirectory : order'.directory = order.directory)
    (henvironment : order'.environment = order.environment) (start : Place) :
    Matching (t.executable installation busy start order)
      (t'.executable installation busy' start order') := by
  have hpaths : launchPaths order' = launchPaths order := by
    simp only [launchPaths, hpath, henvironment]
  have hhanded : handed order' = handed order := by
    simp only [handed, hargv, henvironment]
  have hstatus := status_beside h start order.directory
  unfold executable
  rw [hpath, hargv, hdirectory, hpaths, hhanded]
  generalize t.status start order.directory = r at hstatus ⊢
  generalize t'.status start order.directory = r' at hstatus ⊢
  cases hstatus with
  | failed e e' => exact .error _ _
  | idle e place content hmode => exact .error _ _
  | same =>
    cases r with
    | error e => exact .error _ _
    | ok found =>
      obtain ⟨place, entry⟩ := found
      cases entry with
      | file content mode => exact .error _ _
      | link target => exact .error _ _
      | directory =>
        simp only [grant_congr h.grants]
        have htry : ∀ path, Matching
            (t.executableFor installation busy place (handed order) path
              (order.argv.map Text.encode))
            (t'.executableFor installation busy' place (handed order) path
              (order.argv.map Text.encode)) :=
          fun path => executableFor_agree h hbusy place (handed order) path _
        have hfirst := firstExecutable_agree htry (launchPaths order) none none .noEntry .noEntry
        generalize firstExecutable _ none .noEntry (launchPaths order) = f at hfirst ⊢
        generalize firstExecutable _ none .noEntry (launchPaths order) = f' at hfirst ⊢
        split
        · exact .error _ _
        · cases hfirst with
          | ok found => exact .ok _
          | error e e' => exact .error _ _

end PipelineShell.FileTree
