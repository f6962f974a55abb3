import PipelineShell.Text.Blank
import PipelineShell.Text.Digit

/-!
# Integers in text

The spelling of an integer: blanks, a sign, decimal digits of any script with single underscores
between them, and blanks again. The four separators U+001C to U+001F are no blanks here, and a
spelling of more than `Integer.maxDigits` digits is no integer.
-/

namespace PipelineShell.Text.Integer

/-- The most digits that a spelling may have, leading zeros counted. -/
def maxDigits : Nat := 4300

/-- The blanks that may stand around an integer. -/
def isMargin (c : Char) : Bool :=
  isBlank c && !(decide (0x1C ≤ c.toNat) && decide (c.toNat ≤ 0x1F))

/-- `text` without the margins on its two sides. -/
def trim (text : List Char) : List Char :=
  ((text.dropWhile isMargin).reverse.dropWhile isMargin).reverse

/-- The digits of a spelling without a sign, most significant first. -/
def digits? : List Char → Option (List Nat)
  | [] => none
  | [c] => (digitValue? c).map ([·])
  | c :: '_' :: rest =>
    match digitValue? c, digits? rest with
    | some d, some ds => some (d :: ds)
    | _, _ => none
  | c :: rest =>
    match digitValue? c, digits? rest with
    | some d, some ds => some (d :: ds)
    | _, _ => none

/-- The number that decimal digits denote, most significant first. -/
def ofDigits (digits : List Nat) : Nat := digits.foldl (fun n d => 10 * n + d) 0

/-- The natural number of a spelling without a sign. -/
def natural? (text : List Char) : Option Nat :=
  match digits? text with
  | some digits => if digits.length ≤ maxDigits then some (ofDigits digits) else none
  | none => none

/-- The integer that `text` spells. -/
def ofText? (text : String) : Option Int :=
  match trim text.toList with
  | '-' :: rest => (natural? rest).map fun n => -(n : Int)
  | '+' :: rest => (natural? rest).map Int.ofNat
  | rest => (natural? rest).map Int.ofNat

end PipelineShell.Text.Integer
