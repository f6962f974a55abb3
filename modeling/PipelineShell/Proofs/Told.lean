import PipelineShell.Proofs.Blindness
import PipelineShell.Proofs.Terminal

/-!
# What runs tell

A run puts the texts of its stages on the error stream of the terminal, on every host, whatever records
stand between them: for each stage what is wrong with its words, and then its errors (`told`). Runs that
do not see where their sessions differ tell the same (`Unseen.told_of_matches`).
-/

namespace PipelineShell

namespace Session

/-- Before a run comes to a stage it has told what the stages before tell, and what is wrong with the
words of the stage. -/
theorem reports_until {host : Host} {total position k : Nat} {s : Session} {piped : Option Bytes}
    {stages : List Stage} {a : Arrival}
    (hk : (arrivals host total position s piped stages)[k]? = some a) :
    Reports host s
      (told host ((arrivals host total position s piped stages).take k) ++ [a.stage.complaints])
      a.session := by
  induction position, s, piped, stages using runFrom_induction host total generalizing k with
  | nil => cases hk
  | stopped position s piped stage rest done stop hrun =>
    rw [(runFrom_of_stopped hrun).2] at hk
    match k, hk with
    | 0, rfl => exact reports_announced host position total s stage
  | passed position s piped stage rest done result hrun ih =>
    rw [(runFrom_of_passed hrun).2] at hk ⊢
    cases k with
    | zero =>
      cases hk
      exact reports_announced host position total s stage
    | succ k =>
      have hhere := reports_arrival host total position s piped stage rest
      rw [hrun] at hhere
      exact (hhere.trans (.note done rfl)).trans (ih hk)

theorem reports_lineArrivals {host : Host} {s : Session} {line : String} {k : Nat} {a : Arrival}
    (hk : (s.lineArrivals host line)[k]? = some a) :
    Reports host s (told host ((s.lineArrivals host line).take k) ++ [a.stage.complaints]) a.session :=
  (silent_readLine host s line).reports.trans (reports_until hk)

namespace Unseen

variable {host host' : Host} {Clear : Session → Stage → Prop} {R : Session → Session → Prop}
  {s s' : Session} {a a' : Arrival}

/-- The same becomes of a command. -/
theorem deed (hR : Unseen host host' Clear R) (h : R s s') (stage : Stage) (piped : Option Bytes)
    (channels : Channels) (last : Bool) :
    s'.deed host' stage piped channels last = s.deed host stage piped channels last := by
  unfold Session.deed
  split
  · rfl
  · obtain ⟨found, found', answer, hfound, hfound', hafter⟩ :=
      (hR.findCommand h stage.name).exists
    rw [hfound, hfound']
    cases answer with
    | error r => rfl
    | ok command =>
      cases command with
      | unknown => rfl
      | builtin b => exact congrArg Deed.builtin (hR.inStep.perform hafter b stage.args).1
      | program path =>
        simp only [hR.orderOf hafter]
        generalize found.orderOf host stage path (channels.input.or piped) channels last = order
        have hcounted : R (found.flush.counted host order) (found'.flush.counted host' order) :=
          hR.note (hR.tally (hR.flush hafter) fun tally => { tally with total := tally.total + 1 })
            _ rfl
        simp only [hR.started hcounted, performance, feedBytes, hR.input hcounted]

theorem deed?_of_matches (hR : Unseen host host' Clear R) (h : a.Matches host host' R a')
    (hclear : Clear a.session a.stage) : a'.deed? host' = a.deed? host := by
  obtain ⟨ready, ready', answer, hready, hready', hafter⟩ :=
    (hR.openChannels h.session hclear).exists
  unfold Arrival.deed?
  rw [h.stage, hready, hready']
  cases answer with
  | error stop => rfl
  | ok channels => simp only [h.piped, h.last, hR.deed hafter]

theorem errors_of_matches (hR : Unseen host host' Clear R) (h : a.Matches host host' R a')
    (hclear : Clear a.session a.stage) : a'.errors host' = a.errors host := by
  have hshows : host'.shows = host.shows := by
    funext bytes
    simp only [Host.shows, hR.shares]
  have herrors : Deed.errors host' = Deed.errors host := by
    funext name deed
    cases deed <;> simp only [Deed.errors, hshows]
  unfold Arrival.errors
  rw [h.stage, hR.deed?_of_matches h hclear, herrors]

theorem told_of_matches (hR : Unseen host host' Clear R) {reached reached' : List Arrival}
    (h : List.Forall₂ (Arrival.Matches host host' R) reached reached')
    (hclear : ∀ a ∈ reached, Clear a.session a.stage) :
    told host' reached' = told host reached := by
  exact flatMap_of_matches h fun a ha a' hmatches => by
    rw [hmatches.stage, hR.errors_of_matches hmatches (hclear a ha)]

end Unseen

end Session

end PipelineShell
