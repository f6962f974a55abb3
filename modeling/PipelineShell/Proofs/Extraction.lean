import PipelineShell.Pipeline

/-!
# Sorting words

Words are sorted into a command, redirections and at most one operator that is left over. Which words are
targets is decided by the words before them (`Extraction.isTarget`). Every word has one place
(`Sorted`), and the stage that some words make is also made of its own words: those of the command,
then each redirection in its shortest spelling, then the operator left over (`Stage.words`).
-/

namespace PipelineShell

namespace Extraction

variable {words rest : List String} {word target : String} {op : Operator}

/-! ## One step -/

theorem ofWords_plain (hword : Operator.ofWord? word = none) (rest : List String) :
    ofWords (word :: rest) =
      ⟨word :: (ofWords rest).argv, (ofWords rest).redirections, (ofWords rest).leftover⟩ := by
  rw [ofWords.eq_def]
  simp only [hword]

theorem ofWords_pair {word : String} {op : Operator} (hword : Operator.ofWord? word = some op)
    (target : String) (after : List String) :
    ofWords (word :: target :: after) =
      { ofWords after with redirections := ⟨op, target⟩ :: (ofWords after).redirections } := by
  rw [ofWords.eq_def]
  simp only [hword]

theorem ofWords_dangling (hword : Operator.ofWord? word = some op) :
    ofWords [word] = ⟨[], [], some word⟩ := by
  rw [ofWords.eq_def]
  simp only [hword]

/-! ## Pieces -/

/-- No operator is left at the end of some words, so what comes after them is sorted as if they were not
there. -/
def Whole (words : List String) : Prop := (ofWords words).leftover = none

/-- Words are sorted piece by piece, if the first piece does not end in an operator. -/
theorem ofWords_append {before : List String} (h : Whole before) (after : List String) :
    ofWords (before ++ after) =
      ⟨(ofWords before).argv ++ (ofWords after).argv,
        (ofWords before).redirections ++ (ofWords after).redirections, (ofWords after).leftover⟩ := by
  unfold Whole at h
  fun_induction ofWords before with
  | case1 => rfl
  | case2 word rest hword e ih =>
    rw [List.cons_append, ofWords.eq_def]
    simp only [hword, ih h]
    rfl
  | case3 word op hword => cases h
  | case4 word op target rest hword e ih =>
    rw [List.cons_append, List.cons_append, ofWords.eq_def]
    simp only [hword, ih h]
    rfl

/-! ## What is sorted where -/

theorem argv_sublist (words : List String) : (ofWords words).argv.Sublist words := by
  fun_induction ofWords words with
  | case1 => exact .slnil
  | case2 word rest _ _ ih => exact ih.cons_cons word
  | case3 word _ _ => exact (List.Sublist.slnil).cons word
  | case4 word op target rest _ _ ih => exact (ih.cons target).cons word

theorem targets_sublist (words : List String) :
    ((ofWords words).redirections.map Redirection.target).Sublist words := by
  fun_induction ofWords words with
  | case1 => exact .slnil
  | case2 word rest _ _ ih => exact ih.cons word
  | case3 word _ _ => exact (List.Sublist.slnil).cons word
  | case4 word op target rest _ _ ih => exact (ih.cons_cons target).cons word

/-- No operator is a word of the command. -/
theorem ofWord?_of_mem_argv (h : word ∈ (ofWords words).argv) : Operator.ofWord? word = none := by
  fun_induction ofWords words with
  | case1 => cases h
  | case2 first rest hfirst e ih =>
    rcases List.mem_cons.1 h with rfl | h
    · exact hfirst
    · exact ih h
  | case3 => cases h
  | case4 first op target rest _ e ih => exact ih h

/-- A redirection takes two words, and every other word is in one place. -/
theorem length_eq (words : List String) :
    words.length = (ofWords words).argv.length + 2 * (ofWords words).redirections.length
      + (ofWords words).leftover.toList.length := by
  fun_induction ofWords words with
  | case1 => rfl
  | case2 word rest _ e ih =>
    simp only [List.length_cons, e]
    omega
  | case3 => rfl
  | case4 word op target rest _ e ih =>
    simp only [List.length_cons, e]
    omega

/-! ## Targets -/

/-- Whether the word at a position is a target: the word before it is an operator and no target
itself. -/
def isTarget (words : List String) : Nat → Bool
  | 0 => false
  | position + 1 => (words[position]?.bind Operator.ofWord?).isSome && !isTarget words position

theorem isTarget_plain (hword : Operator.ofWord? word = none) (position : Nat) :
    isTarget (word :: rest) (position + 1) = isTarget rest position := by
  induction position with
  | zero => simp [isTarget, hword]
  | succ position ih =>
    rw [isTarget, ih, List.getElem?_cons_succ]
    rfl

theorem isTarget_pair (hword : Operator.ofWord? word = some op) (position : Nat) :
    isTarget (word :: target :: rest) (position + 2) = isTarget rest position := by
  induction position with
  | zero => simp [isTarget, hword]
  | succ position ih =>
    rw [isTarget, ih, List.getElem?_cons_succ, List.getElem?_cons_succ]
    rfl

/-- The words at the positions of targets, in order. -/
def targetsOf (words : List String) : List String :=
  (words.zipIdx.filter fun w => isTarget words w.2).map Prod.fst

/-- A shift of all positions. -/
theorem map_filter_zipIdx (words : List String) (p : Nat → Bool) (start : Nat) :
    ((words.zipIdx start).filter fun w => p w.2).map Prod.fst =
      (words.zipIdx.filter fun w => p (w.2 + start)).map Prod.fst := by
  rw [List.zipIdx_eq_map_add, List.filter_map, List.map_map]
  simp only [Function.comp_def, Nat.add_comm start]

/-- What an operator takes as its target is a target in the sense of `isTarget`, and nothing else is. -/
theorem targets_eq (words : List String) :
    (ofWords words).redirections.map Redirection.target = targetsOf words := by
  fun_induction ofWords words with
  | case1 => rfl
  | case2 word rest hword e ih =>
    rw [targetsOf, List.zipIdx_cons, List.filter_cons_of_neg (by simp [isTarget]), map_filter_zipIdx]
    simp only [Nat.zero_add, isTarget_plain hword]
    exact ih
  | case3 word op hword => simp [targetsOf, isTarget]
  | case4 word op target rest hword e ih =>
    rw [targetsOf, List.zipIdx_cons, List.filter_cons_of_neg (by simp [isTarget]), List.zipIdx_cons,
      List.filter_cons_of_pos (by simp [isTarget, hword]), List.map_cons, List.map_cons,
      map_filter_zipIdx]
    simp only [Nat.zero_add, Nat.reduceAdd, isTarget_pair hword]
    exact congrArg (target :: ·) ih

/-- The last word is an operator and no target. -/
def EndsOpen (words : List String) (word : String) : Prop :=
  words.getLast? = some word ∧ (Operator.ofWord? word).isSome ∧ isTarget words (words.length - 1) = false

theorem leftover_eq_some_iff (words : List String) (last : String) :
    (ofWords words).leftover = some last ↔ EndsOpen words last := by
  unfold EndsOpen
  fun_induction ofWords words with
  | case1 => simp
  | case2 word rest hword e ih =>
    cases rest with
    | nil =>
      constructor
      · intro h
        cases h
      · rintro ⟨hlast, hop, -⟩
        cases hlast
        simp [hword] at hop
    | cons next rest =>
      rw [List.getLast?_cons_cons, List.length_cons, Nat.add_sub_cancel, List.length_cons,
        isTarget_plain hword]
      exact ih
  | case3 word op hword =>
    constructor
    · rintro ⟨⟩
      exact ⟨rfl, by simp [hword], rfl⟩
    · exact fun h => h.1
  | case4 word op target rest hword e ih =>
    cases rest with
    | nil =>
      constructor
      · intro h
        cases h
      · rintro ⟨-, -, htarget⟩
        simp [isTarget, hword] at htarget
    | cons next rest =>
      rw [List.getLast?_cons_cons, List.getLast?_cons_cons]
      simp only [List.length_cons, Nat.add_sub_cancel, isTarget_pair hword]
      exact ih

/-! ## Words in normal form -/

theorem ofWords_of_plain (h : ∀ word ∈ words, Operator.ofWord? word = none) :
    ofWords words = ⟨words, [], none⟩ := by
  induction words with
  | nil => rfl
  | cons word rest ih =>
    obtain ⟨hword, hrest⟩ := List.forall_mem_cons.1 h
    rw [ofWords_plain hword, ih hrest]

end Extraction

open Extraction (EndsOpen targetsOf ofWords_pair)

/-- A redirection in its shortest spelling. -/
def Redirection.words (r : Redirection) : List String := [r.operator.word, r.target]

theorem Extraction.ofWords_redirections (redirections : List Redirection) :
    ofWords (redirections.flatMap Redirection.words) = ⟨[], redirections, none⟩ := by
  induction redirections with
  | nil => rfl
  | cons r rest ih =>
    have hpair := ofWords_pair (Operator.ofWord?_word r.operator) r.target
      (rest.flatMap Redirection.words)
    rw [ih] at hpair
    exact hpair

theorem Extraction.ofWords_leftover (words : List String) :
    ofWords (ofWords words).leftover.toList = ⟨[], [], (ofWords words).leftover⟩ := by
  cases hlast : (ofWords words).leftover with
  | none => rfl
  | some last =>
    obtain ⟨-, hoperator, -⟩ := (leftover_eq_some_iff words last).1 hlast
    obtain ⟨op, hop⟩ := Option.isSome_iff_exists.1 hoperator
    exact ofWords_dangling hop

namespace Stage

/-- The words of the command, then the redirections, then an operator that is left over. -/
def words (stage : Stage) : List String :=
  stage.argv ++ stage.redirections.flatMap Redirection.words
    ++ stage.diagnostics.map Dangling.operator

theorem words_ofWords (words : List String) :
    (ofWords words).words =
      (Extraction.ofWords words).argv
        ++ (Extraction.ofWords words).redirections.flatMap Redirection.words
        ++ (Extraction.ofWords words).leftover.toList := by
  simp only [Stage.words, ofWords, Extraction.diagnostics, List.map_map, Function.comp_def,
    List.map_id']

/-- The words of a stage are sorted as those were that made it. -/
theorem extraction_words (words : List String) :
    Extraction.ofWords (ofWords words).words = Extraction.ofWords words := by
  have hplain : ∀ word ∈ (Extraction.ofWords words).argv, Operator.ofWord? word = none :=
    fun _ h => Extraction.ofWord?_of_mem_argv h
  have hargv := Extraction.ofWords_of_plain hplain
  have hredirections := Extraction.ofWords_redirections (Extraction.ofWords words).redirections
  have hwhole : Extraction.Whole (Extraction.ofWords words).argv := by rw [Extraction.Whole, hargv]
  have hpairs : Extraction.ofWords ((Extraction.ofWords words).argv
      ++ (Extraction.ofWords words).redirections.flatMap Redirection.words) =
        ⟨(Extraction.ofWords words).argv, (Extraction.ofWords words).redirections, none⟩ := by
    rw [Extraction.ofWords_append hwhole, hargv, hredirections]
    simp
  rw [words_ofWords, Extraction.ofWords_append (by rw [Extraction.Whole, hpairs]), hpairs,
    Extraction.ofWords_leftover]
  simp

/-- What is known of a stage that some words make. -/
structure Sorted (words : List String) (stage : Stage) : Prop where
  /-- Each word has one place: a redirection takes two, all others are alone. -/
  length : words.length =
    stage.argv.length + 2 * stage.redirections.length + stage.diagnostics.length
  plain : ∀ word ∈ stage.argv, Operator.ofWord? word = none
  argv : stage.argv.Sublist words
  targets : (stage.redirections.map Redirection.target).Sublist words
  /-- The targets are the words that follow an operator which is no target itself. -/
  targets_eq : stage.redirections.map Redirection.target = targetsOf words
  single : stage.diagnostics.length ≤ 1
  diagnosed : stage.diagnostics.length = 1 ↔ ∃ last, EndsOpen words last
  normal : ofWords stage.words = stage
  /-- Where nothing is left over, words that come after are sorted as they are by themselves. -/
  append : stage.diagnostics = [] → ∀ more : List String,
    (ofWords (words ++ more)).argv = stage.argv ++ (ofWords more).argv ∧
      (ofWords (words ++ more)).redirections = stage.redirections ++ (ofWords more).redirections

/-- The words of a stage are sorted: each is in one place and in order, an operator at the end is
reported unless it is a target, and the stage is made of its words in normal form as well. -/
theorem sorted_ofWords (words : List String) : (ofWords words).Sorted words := by
  have hdiagnostics : (ofWords words).diagnostics.length =
      (Extraction.ofWords words).leftover.toList.length := List.length_map _
  constructor
  case length =>
    rw [hdiagnostics]
    exact Extraction.length_eq words
  case plain => exact fun word h => Extraction.ofWord?_of_mem_argv h
  case argv => exact Extraction.argv_sublist words
  case targets => exact Extraction.targets_sublist words
  case targets_eq => exact Extraction.targets_eq words
  case single =>
    rw [hdiagnostics]
    cases (Extraction.ofWords words).leftover with
    | none => exact Nat.zero_le 1
    | some last => exact Nat.le_refl 1
  case diagnosed =>
    rw [hdiagnostics]
    simp only [← Extraction.leftover_eq_some_iff]
    cases (Extraction.ofWords words).leftover with
    | none => simp
    | some last => simp
  case normal =>
    rw [ofWords, extraction_words]
    rfl
  case append =>
    intro hnone more
    have hwhole : Extraction.Whole words := by
      rw [Extraction.Whole]
      cases hlast : (Extraction.ofWords words).leftover with
      | none => rfl
      | some last => simp [hlast, hnone] at hdiagnostics
    simp only [ofWords, Extraction.ofWords_append hwhole, and_self]

/-- Operators as targets, one that is left over, and the same words in normal form. -/
example : (ofWords ["1>", ">", "a", "<", "<", "b", "1>>"]).words = ["a", "b", ">", ">", "<", "<", "1>>"] := by
  decide +kernel

end Stage

end PipelineShell
