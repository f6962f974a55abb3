import Mathlib.Data.List.TakeWhile
import Mathlib.Data.Nat.Digits.Defs
import PipelineShell.Proofs.Deeds

/-!
# Numerals

The spellings of an integer, and the status that `exit` makes of its argument. A spelling is put
together from margins, a sign and digits (`Spelling`), and what is read as an integer is what some
spelling gives, with the value that its digits have by their places (`ofText?_eq_some_iff`). So the
status is the value modulo 256 however the integer is spelled, and anything else is complained about
(`perform_exit_leaves`).
-/

namespace PipelineShell

namespace Text

/-! ## Digits -/

theorem exists_zero_of_isDigit {c : Char} (h : isDigit c = true) :
    ∃ z ∈ zeros, ∃ value < 10, c.toNat = z + value := by
  simp only [isDigit, digitValue?, Option.isSome_map, List.find?_isSome, Bool.and_eq_true,
    decide_eq_true_eq] at h
  obtain ⟨z, hz, hle, hlt⟩ := h
  exact ⟨z, hz, c.toNat - z, by omega, by omega⟩

/-- No digit of any script is blank. -/
theorem isBlank_of_isDigit {c : Char} (h : isDigit c = true) : isBlank c = false := by
  have htables : ∀ z ∈ zeros, ∀ value < 10, inRanges blankRanges (z + value) = false := by
    decide +kernel
  obtain ⟨z, hz, value, hvalue, hc⟩ := exists_zero_of_isDigit h
  rw [isBlank, hc]
  exact htables z hz value hvalue

namespace Integer

/-- A decimal digit of any script. -/
abbrev Digit := { c : Char // isDigit c = true }

/-- The value of a digit. -/
def Digit.value (d : Digit) : Nat := (digitValue? d.val).get d.property

theorem Digit.digitValue?_val (d : Digit) : digitValue? d.val = some d.value :=
  (Option.some_get d.property).symm

theorem exists_digit {c : Char} {value : Nat} (h : digitValue? c = some value) :
    ∃ d : Digit, d.val = c ∧ d.value = value := by
  have hdigit : isDigit c = true := by simp [isDigit, h]
  refine ⟨⟨c, hdigit⟩, rfl, ?_⟩
  simp [Digit.value, h]

/-- A digit is neither a margin nor a sign nor an underscore. -/
theorem Digit.facts (d : Digit) :
    isMargin d.val = false ∧ d.val ≠ '-' ∧ d.val ≠ '+' ∧ d.val ≠ '_' := by
  refine ⟨by simp [isMargin, isBlank_of_isDigit d.property], ?_, ?_, ?_⟩
  all_goals
    intro h
    have hdigit := d.property
    rw [h] at hdigit
    exact absurd hdigit (by decide)

/-! ## Numerals -/

/-- A row of digits. -/
structure Numeral where
  first : Digit
  /-- The digits after the first one, and whether an underscore stands before each. -/
  others : List (Bool × Digit)

namespace Numeral

/-- The digits without the underscores. -/
def digits (n : Numeral) : List Digit := n.first :: n.others.map Prod.snd

/-- What is written after the first digit. -/
def writtenOthers (others : List (Bool × Digit)) : List Char :=
  others.flatMap fun d => if d.1 then ['_', d.2.val] else [d.2.val]

/-- What is written. -/
def written (n : Numeral) : List Char := n.first.val :: writtenOthers n.others

/-- The number that the digits denote by their places. -/
def value (n : Numeral) : Nat := Nat.ofDigits 10 (n.digits.map Digit.value).reverse

/-- One more digit in front. -/
def push (d : Digit) (underscore : Bool) (n : Numeral) : Numeral :=
  ⟨d, (underscore, n.first) :: n.others⟩

theorem written_push (d : Digit) (underscore : Bool) (n : Numeral) :
    (n.push d underscore).written =
      d.val :: (if underscore then '_' :: n.written else n.written) := by
  cases underscore <;> rfl

theorem digits_push (d : Digit) (underscore : Bool) (n : Numeral) :
    (n.push d underscore).digits = d :: n.digits := rfl

/-- A numeral is a digit, or a numeral with one more digit in front. -/
@[elab_as_elim]
theorem inductionOn {motive : Numeral → Prop} (n : Numeral) (single : ∀ d, motive ⟨d, []⟩)
    (push : ∀ d underscore n, motive n → motive (n.push d underscore)) : motive n := by
  obtain ⟨first, others⟩ := n
  induction others generalizing first with
  | nil => exact single first
  | cons next others ih => exact push first next.1 ⟨next.2, others⟩ (ih next.2)

/-- What is written is read as its digits. -/
theorem digits?_written (n : Numeral) : digits? n.written = some (n.digits.map Digit.value) := by
  induction n using inductionOn with
  | single d => simp [written, writtenOthers, digits?, digits, d.digitValue?_val]
  | push d underscore n ih =>
    rw [written_push, digits_push]
    cases underscore with
    | true => simp [digits?, d.digitValue?_val, ih]
    | false =>
      have hfirst : n.first.val ≠ '_' := n.first.facts.2.2.2
      simp only [written] at ih
      simp [written, digits?, d.digitValue?_val, ih, hfirst]

theorem getLast?_written (n : Numeral) : ∃ d : Digit, n.written.getLast? = some d.val := by
  induction n using inductionOn with
  | single d => exact ⟨d, rfl⟩
  | push d underscore n ih =>
    obtain ⟨last, hlast⟩ := ih
    refine ⟨last, ?_⟩
    rw [written_push]
    cases underscore <;> simp [List.getLast?_cons, hlast]

/-- What is read as digits is written with them. -/
theorem exists_written {text : List Char} {values : List Nat} (h : digits? text = some values) :
    ∃ n : Numeral, n.written = text ∧ n.digits.map Digit.value = values := by
  fun_induction digits? text generalizing values with
  | case1 => cases h
  | case2 c =>
    obtain ⟨value, hvalue, rfl⟩ := Option.map_eq_some_iff.1 h
    obtain ⟨d, rfl, rfl⟩ := exists_digit hvalue
    exact ⟨⟨d, []⟩, rfl, rfl⟩
  | case3 c rest value others hothers hvalue ih =>
    cases h
    obtain ⟨d, rfl, rfl⟩ := exists_digit hvalue
    obtain ⟨n, rfl, rfl⟩ := ih hothers
    exact ⟨n.push d true, n.written_push d true, rfl⟩
  | case4 => cases h
  | case5 c rest _ _ value others hothers hvalue ih =>
    cases h
    obtain ⟨d, rfl, rfl⟩ := exists_digit hvalue
    obtain ⟨n, rfl, rfl⟩ := ih hothers
    exact ⟨n.push d false, n.written_push d false, rfl⟩
  | case6 => cases h

end Numeral

theorem ofDigits_eq (digits : List Nat) : ofDigits digits = Nat.ofDigits 10 digits.reverse := by
  rw [Nat.ofDigits_eq_foldr, List.foldr_reverse, ofDigits]
  congr 1
  funext n d
  simp [Nat.add_comm]

/-- A natural number is what a numeral that is not too long denotes. -/
theorem natural?_eq_some_iff {text : List Char} {value : Nat} :
    natural? text = some value ↔
      ∃ n : Numeral, n.digits.length ≤ maxDigits ∧ n.written = text ∧ n.value = value := by
  constructor
  · intro h
    unfold natural? at h
    split at h
    · next values hvalues =>
      split at h
      · next hshort =>
        cases h
        obtain ⟨n, hwritten, rfl⟩ := Numeral.exists_written hvalues
        exact ⟨n, by simpa using hshort, hwritten, (ofDigits_eq _).symm⟩
      · cases h
    · cases h
  · rintro ⟨n, hshort, rfl, rfl⟩
    simp [natural?, n.digits?_written, hshort, ofDigits_eq, Numeral.value]

/-! ## Margins -/

/-- A character that may stand around an integer. -/
abbrev Margin := { c : Char // isMargin c = true }

theorem exists_margins (text : List Char) :
    ∃ before after : List Margin,
      text = before.map Subtype.val ++ trim text ++ after.map Subtype.val := by
  have hmargins (chars : List Char) :
      ∃ margins : List Margin, margins.map Subtype.val = chars.takeWhile isMargin :=
    ⟨(chars.takeWhile isMargin).attach.map fun c => ⟨c.val, List.mem_takeWhile_imp c.property⟩, by simp⟩
  obtain ⟨before, hbefore⟩ := hmargins text
  obtain ⟨after, hafter⟩ := hmargins (text.dropWhile isMargin).reverse
  refine ⟨before, after.reverse, ?_⟩
  have hinner : text.dropWhile isMargin = trim text ++ (after.map Subtype.val).reverse := by
    rw [hafter, trim, ← List.reverse_append, List.takeWhile_append_dropWhile, List.reverse_reverse]
  rw [hbefore, List.append_assoc, List.map_reverse, ← hinner, List.takeWhile_append_dropWhile]

theorem dropWhile_margins (margins : List Margin) {c : Char} (hc : isMargin c = false)
    (rest : List Char) :
    (margins.map Subtype.val ++ c :: rest).dropWhile isMargin = c :: rest := by
  induction margins with
  | nil => simp [hc]
  | cons margin margins ih =>
    rw [List.map_cons, List.cons_append, List.dropWhile_cons_of_pos margin.property, ih]

/-- A text that neither starts nor ends with a margin is what is left without the margins around it. -/
theorem trim_eq (before after : List Margin) {text : List Char} {first last : Char}
    (hhead : text.head? = some first) (hfirst : isMargin first = false)
    (hgetLast : text.getLast? = some last) (hlast : isMargin last = false) :
    trim (before.map Subtype.val ++ text ++ after.map Subtype.val) = text := by
  obtain ⟨rest, htext⟩ := List.head?_eq_some_iff.1 hhead
  obtain ⟨front, hreverse⟩ : ∃ front, text.reverse = last :: front :=
    List.head?_eq_some_iff.1 (by rw [List.head?_reverse, hgetLast])
  have hfront : (before.map Subtype.val ++ text ++ after.map Subtype.val).dropWhile isMargin =
      text ++ after.map Subtype.val := by
    rw [List.append_assoc, htext, List.cons_append, dropWhile_margins before hfirst]
  rw [trim, hfront, List.reverse_append, ← List.map_reverse, hreverse,
    dropWhile_margins after.reverse hlast, ← hreverse, List.reverse_reverse]

/-! ## Spellings -/

/-- What may stand before the digits. -/
inductive Sign
  | unsigned
  | plus
  | minus

/-- What is written for a sign. -/
def Sign.written : Sign → List Char
  | .unsigned => []
  | .plus => ['+']
  | .minus => ['-']

/-- A number with a sign. -/
def Sign.apply : Sign → Nat → Int
  | .unsigned, n => n
  | .plus, n => n
  | .minus, n => -n

/-- A way to write an integer. -/
structure Spelling where
  before : List Margin
  sign : Sign
  numeral : Numeral
  after : List Margin
  short : numeral.digits.length ≤ maxDigits

namespace Spelling

/-- What is written. -/
def text (w : Spelling) : String :=
  String.ofList (w.before.map Subtype.val ++ (w.sign.written ++ w.numeral.written)
    ++ w.after.map Subtype.val)

/-- The integer that is written. -/
def value (w : Spelling) : Int := w.sign.apply w.numeral.value

end Spelling

theorem trim_text (w : Spelling) : trim w.text.toList = w.sign.written ++ w.numeral.written := by
  obtain ⟨last, hgetLast⟩ := w.numeral.getLast?_written
  obtain ⟨first, hhead, hfirst⟩ : ∃ first,
      (w.sign.written ++ w.numeral.written).head? = some first ∧ isMargin first = false := by
    cases w.sign with
    | unsigned => exact ⟨_, rfl, w.numeral.first.facts.1⟩
    | plus => exact ⟨'+', rfl, by decide⟩
    | minus => exact ⟨'-', rfl, by decide⟩
  have hend : (w.sign.written ++ w.numeral.written).getLast? = some last.val := by
    simp [List.getLast?_append, hgetLast]
  rw [Spelling.text, String.toList_ofList]
  exact trim_eq w.before w.after hhead hfirst hend last.facts.1

/-- What is read as an integer is what some spelling of it gives. -/
theorem ofText?_eq_some_iff {text : String} {n : Int} :
    ofText? text = some n ↔ ∃ w : Spelling, w.text = text ∧ w.value = n := by
  constructor
  · intro h
    obtain ⟨before, after, htext⟩ := exists_margins text.toList
    have hspelled (sign : Sign) {core : List Char} {value : Nat}
        (htrim : trim text.toList = sign.written ++ core) (hvalue : natural? core = some value) :
        ∃ w : Spelling, w.text = text ∧ w.value = sign.apply value := by
      obtain ⟨numeral, hshort, rfl, rfl⟩ := natural?_eq_some_iff.1 hvalue
      refine ⟨⟨before, sign, numeral, after, hshort⟩, ?_, rfl⟩
      rw [Spelling.text, ← htrim, ← htext, String.ofList_toList]
    unfold ofText? at h
    split at h
    · next core htrim =>
      obtain ⟨_, hcast, rfl⟩ := Option.map_eq_some_iff.1 h
      obtain ⟨value, hvalue, hn⟩ := Option.bind_eq_some_iff.1 hcast
      cases hn
      exact hspelled .minus htrim hvalue
    · next core htrim =>
      obtain ⟨value, hvalue, rfl⟩ := Option.map_eq_some_iff.1 h
      exact hspelled .plus htrim hvalue
    · obtain ⟨value, hvalue, rfl⟩ := Option.map_eq_some_iff.1 h
      exact hspelled .unsigned rfl hvalue
  · rintro ⟨w, rfl, rfl⟩
    have hnatural : natural? w.numeral.written = some w.numeral.value :=
      natural?_eq_some_iff.2 ⟨w.numeral, w.short, rfl, rfl⟩
    unfold ofText?
    rw [trim_text, Spelling.value]
    cases w.sign with
    | plus => simp [Sign.written, Sign.apply, hnatural]
    | minus => simp [Sign.written, Sign.apply, hnatural]
    | unsigned =>
      obtain ⟨-, hminus, hplus, -⟩ := w.numeral.first.facts
      simp only [Sign.written, List.nil_append]
      split
      · next heq => exact absurd (List.head_eq_of_cons_eq heq) hminus
      · next heq => exact absurd (List.head_eq_of_cons_eq heq) hplus
      · simp [hnatural, Sign.apply]

/-- Margins, a sign, an underscore and a digit of another script. -/
example : ofText? " -\u0661_0\u3000" = some (-10) := by decide

end Integer

end Text

/-! ## Leaving -/

namespace Builtin

open Text.Integer (Spelling ofText? ofText?_eq_some_iff)

/-- The status and the complaint with which `exit` leaves, by its arguments. All arguments but the first
one are passed over. -/
inductive Leaves : List String → Nat → String → Prop
  | bare : Leaves [] 0 ""
  | number (w : Spelling) (rest : List String) {code : Nat} (h : (code : Int) = w.value % 256) :
    Leaves (w.text :: rest) code ""
  | other {arg : String} (rest : List String) (h : ∀ w : Spelling, w.text ≠ arg) :
    Leaves (arg :: rest) 2 ("exit: " ++ arg ++ ": numeric argument required\n")

variable {arg complaint : String} {args rest : List String} {code : Nat}

theorem leaves_nil_iff : Leaves [] code complaint ↔ code = 0 ∧ complaint = "" := by
  constructor
  · intro h
    cases h
    exact ⟨rfl, rfl⟩
  · rintro ⟨rfl, rfl⟩
    exact .bare

/-- All spellings of an integer leave with the same status. -/
theorem leaves_cons_iff_of_some {n : Int} (hn : ofText? arg = some n) :
    Leaves (arg :: rest) code complaint ↔ code = (n % 256).toNat ∧ complaint = "" := by
  obtain ⟨w, rfl, rfl⟩ := ofText?_eq_some_iff.1 hn
  constructor
  · intro h
    generalize hargs : w.text :: rest = args at h
    cases h with
    | bare => cases hargs
    | number w' rest' hcode =>
      have hvalue : ofText? w'.text = some w'.value := ofText?_eq_some_iff.2 ⟨w', rfl, rfl⟩
      rw [← (List.cons.inj hargs).1, hn, Option.some.injEq] at hvalue
      exact ⟨by omega, rfl⟩
    | other rest' hother => exact absurd (List.cons.inj hargs).1 (hother w)
  · rintro ⟨rfl, rfl⟩
    exact .number w rest (by omega)

theorem leaves_cons_iff_of_none (hnone : ofText? arg = none) :
    Leaves (arg :: rest) code complaint ↔
      code = 2 ∧ complaint = "exit: " ++ arg ++ ": numeric argument required\n" := by
  have hother : ∀ w : Spelling, w.text ≠ arg := by
    rintro w rfl
    rw [ofText?_eq_some_iff.2 ⟨w, rfl, rfl⟩] at hnone
    cases hnone
  constructor
  · intro h
    cases h with
    | number w => exact absurd rfl (hother w)
    | other => exact ⟨rfl, rfl⟩
  · rintro ⟨rfl, rfl⟩
    exact .other rest hother

theorem exitReply_eq_iff :
    exitReply args = ⟨"", complaint, .error (.leave code)⟩ ↔ Leaves args code complaint := by
  cases args with
  | nil => simp [exitReply, leaves_nil_iff, eq_comm, and_comm]
  | cons arg rest =>
    cases hn : ofText? arg with
    | some n =>
      rw [leaves_cons_iff_of_some hn, exitReply]
      simp [hn, eq_comm, and_comm]
    | none =>
      rw [leaves_cons_iff_of_none hn, exitReply]
      simp [hn, eq_comm, and_comm]

end Builtin

namespace Session

/-- `exit` ends the session whatever its arguments are. It writes no output, and its status and its
complaint are those that its arguments call for, and no others. -/
theorem perform_exit_leaves (host : Host) (s : Session) (args : List String) :
    (∃ code < 256, ∃ complaint, s.perform host .exit args =
      (s.note host (.builtin "exit" args), ⟨"", complaint, .error (.leave code)⟩)) ∧
    ∀ code complaint, (s.perform host .exit args).2 = ⟨"", complaint, .error (.leave code)⟩ ↔
      Builtin.Leaves args code complaint := by
  refine ⟨?_, fun _ _ => Builtin.exitReply_eq_iff⟩
  obtain ⟨code, hcode, hending, hout⟩ := exitReply_spec args
  refine ⟨code, hcode, (Builtin.exitReply args).err, ?_⟩
  rw [← hout, ← hending]
  rfl

end Session

end PipelineShell
