import PipelineShell.Proofs.Splitting
import PipelineShell.Text.Field

/-!
# Segments put together again

With a bar between each two, the segments of a line are the line (`join_segmentsOf`), and no segment can
be cut further (`segmentsOf_of_mem`). So texts that cannot be cut are the segments of the line that they
make exactly if each of them but the last one leaves a reader outside quotes with nothing to escape
(`segmentsOf_decomposes`).
-/

namespace PipelineShell

namespace Cut

/-! ## Bars put back -/

theorem join_push (cut : Cut) (c : Char) :
    Text.join '|' (cut.push c).segments = c :: Text.join '|' cut.segments := by
  cases h : cut.others with
  | nil => simp [segments, push, Text.join, h]
  | cons next others => simp [segments, push, Text.join, h]

theorem join_scan (m : Mode) (line : List Char) : Text.join '|' (scan m line).segments = line := by
  induction line generalizing m with
  | nil => rw [scan_nil]; rfl
  | cons c rest ih =>
    cases hbar : m.atBar c with
    | true =>
      obtain ⟨rfl, rfl⟩ := Mode.atBar_iff.1 hbar
      rw [scan_bar]
      exact congrArg ('|' :: ·) (ih .bare)
    | false => rw [scan_cons hbar, join_push, ih]

/-! ## Texts without bars between stages -/

/-- A text in which a reader that starts in mode `m` finds no bar between stages. -/
def Whole (m : Mode) (text : List Char) : Prop := scan m text = ⟨text, []⟩

theorem whole_nil (m : Mode) : Whole m [] := scan_nil m

theorem whole_cons_iff {m : Mode} {c : Char} {text : List Char} :
    Whole m (c :: text) ↔ m.atBar c = false ∧ Whole (m.next c) text := by
  unfold Whole
  cases hbar : m.atBar c with
  | true =>
    obtain ⟨rfl, rfl⟩ := Mode.atBar_iff.1 hbar
    simp [scan_bar]
  | false =>
    rw [scan_cons hbar]
    generalize scan (m.next c) text = cut
    cases cut
    simp [push]

/-- The segment that a reader is in has no bar in it, and the segments after it have none. -/
theorem whole_scan (m : Mode) (line : List Char) :
    Whole m (scan m line).segment ∧ ∀ segment ∈ (scan m line).others, Whole .bare segment := by
  induction line generalizing m with
  | nil =>
    rw [scan_nil]
    exact ⟨whole_nil m, fun segment hmem => nomatch hmem⟩
  | cons c rest ih =>
    obtain ⟨hsegment, hothers⟩ := ih (m.next c)
    cases hbar : m.atBar c with
    | true =>
      obtain ⟨rfl, rfl⟩ := Mode.atBar_iff.1 hbar
      rw [scan_bar]
      exact ⟨whole_nil .bare, List.forall_mem_cons.2 ⟨hsegment, hothers⟩⟩
    | false =>
      rw [scan_cons hbar]
      exact ⟨whole_cons_iff.2 ⟨hbar, hsegment⟩, hothers⟩

/-- A bar after a text that leaves nothing open is one between stages. -/
theorem Whole.scan_bar {m : Mode} {text : List Char} (h : Whole m text) (hafter : m.after text = .bare)
    (rest : List Char) : scan m (text ++ '|' :: rest) = ⟨text, segmentsOf rest⟩ := by
  induction text generalizing m with
  | nil =>
    have hm : m = .bare := hafter
    subst hm
    rw [List.nil_append, Cut.scan_bar, segmentsOf_eq_scan]
  | cons c text ih =>
    obtain ⟨hbar, htext⟩ := whole_cons_iff.1 h
    rw [List.cons_append, scan_cons hbar, ih htext hafter]
    rfl

end Cut

open Cut (Whole)

/-- A text is its own only segment if no bar is found in it. -/
theorem segmentsOf_eq_singleton_iff {text : List Char} : segmentsOf text = [text] ↔ Whole .bare text := by
  rw [segmentsOf_eq_scan, Whole]
  generalize Cut.scan .bare text = cut
  cases cut
  simp [Cut.segments]

/-! ## Decompositions -/

/-- Nothing of a line is lost when it is cut. -/
theorem join_segmentsOf (line : List Char) : Text.join '|' (segmentsOf line) = line := by
  rw [segmentsOf_eq_scan, Cut.join_scan]

/-- A segment is not cut further. -/
theorem segmentsOf_of_mem {line segment : List Char} (h : segment ∈ segmentsOf line) :
    segmentsOf segment = [segment] := by
  obtain ⟨hfirst, hothers⟩ := Cut.whole_scan .bare line
  rw [segmentsOf_eq_scan, Cut.segments] at h
  rw [segmentsOf_eq_singleton_iff]
  rcases List.mem_cons.1 h with rfl | h
  · exact hfirst
  · exact hothers segment h

/-- Texts that leave nothing open are cut apart at the bars between them. -/
theorem segmentsOf_join {segments : List (List Char)} (hne : segments ≠ [])
    (hwhole : ∀ segment ∈ segments, segmentsOf segment = [segment])
    (hafter : ∀ segment ∈ segments.dropLast, Mode.bare.after segment = .bare) :
    segmentsOf (Text.join '|' segments) = segments := by
  induction segments with
  | nil => exact absurd rfl hne
  | cons segment others ih =>
    obtain ⟨hsegment, hothers⟩ := List.forall_mem_cons.1 hwhole
    cases others with
    | nil => exact hsegment
    | cons next others =>
      obtain ⟨hclosed, hrest⟩ := List.forall_mem_cons.1 hafter
      have hcut := (segmentsOf_eq_singleton_iff.1 hsegment).scan_bar hclosed
        (Text.join '|' (next :: others))
      have hnext := ih (List.cons_ne_nil next others) hothers hrest
      calc segmentsOf (Text.join '|' (segment :: next :: others))
          = (Cut.scan .bare (segment ++ '|' :: Text.join '|' (next :: others))).segments :=
            segmentsOf_eq_scan _
        _ = segment :: segmentsOf (Text.join '|' (next :: others)) := by rw [hcut]; rfl
        _ = segment :: next :: others := by rw [hnext]

/-- A line can be put together from its segments, and a segment has only itself for a segment. Texts of
which that is true are the segments of the line that they make with bars between them exactly if every
one but the last ends outside quotes and with no backslash that has something to escape. -/
theorem segmentsOf_decomposes :
    (∀ line : List Char, Text.join '|' (segmentsOf line) = line ∧
      ∀ segment ∈ segmentsOf line, segmentsOf segment = [segment]) ∧
    ∀ segments : List (List Char), segments ≠ [] →
      (∀ segment ∈ segments, segmentsOf segment = [segment]) →
      (segmentsOf (Text.join '|' segments) = segments ↔
        ∀ segment ∈ segments.dropLast, Mode.bare.after segment = .bare) := by
  refine ⟨fun line => ⟨join_segmentsOf line, fun _ hmem => segmentsOf_of_mem hmem⟩, ?_⟩
  intro segments hne hwhole
  constructor
  · intro hcut segment hmem
    have hline : segment ∈ (segmentsOf (Text.join '|' segments)).dropLast := by rwa [hcut]
    exact after_of_mem_segmentsOf hline
  · exact segmentsOf_join hne hwhole

/-- Quoted and escaped bars, a bar after a pair of backslashes, and a backslash at the end of the line,
which has nothing after it; and two texts of which the first one leaves its quotes open. -/
theorem segmentsOf_decomposes_quoted :
    let segments := ["echo \"a|b\\\"|\" ".toList, " 'c|' \\| \\\\".toList, "d \\".toList]
    let torn := ["echo \"a".toList, "b\"".toList]
    segmentsOf (Text.join '|' segments) = segments ∧ segmentsOf (Text.join '|' torn) ≠ torn := by
  intro segments torn
  refine ⟨?_, ?_⟩
  · have hclosed := segmentsOf_decomposes.2 segments (by decide) (by decide +kernel)
    exact hclosed.2 (by decide +kernel)
  · have hopen := segmentsOf_decomposes.2 torn (by decide) (by decide +kernel)
    exact mt hopen.1 (by decide +kernel)

end PipelineShell
