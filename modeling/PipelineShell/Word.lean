import PipelineShell.Quoting
import PipelineShell.Text.Blank

/-!
# Words

The words of one stage of a pipeline. Blanks outside quotes separate words, quotes and escapes are
taken away, and an empty word is no word: a pair of quotes with nothing inside adds nothing. Quotes
that never close run to the end of the text, and a backslash outside quotes at the end is dropped.
-/

namespace PipelineShell

/-- What the rest of a text gives to a reader in the middle of a word. -/
structure Reading where
  /-- What the rest adds to the word. -/
  word : List Char
  /-- The words after it. -/
  others : List (List Char)
  /-- The text ends outside quotes. -/
  closed : Bool
  deriving DecidableEq, Repr

namespace Reading

/-- One more character in front of the word. -/
def push (c : Char) (r : Reading) : Reading := { r with word := c :: r.word }

/-- All the words: the first one counts if it is not empty. -/
def words (r : Reading) : List (List Char) :=
  if r.word = [] then r.others else r.word :: r.others

/-- The word ends here. -/
def breakWord (r : Reading) : Reading := ⟨[], r.words, r.closed⟩

/-- Read `text` from the given quotes on. -/
def ofText : Quoting → List Char → Reading
  | .bare, [] => ⟨[], [], true⟩
  | .single, [] => ⟨[], [], false⟩
  | .double, [] => ⟨[], [], false⟩
  | .single, c :: rest =>
    if c = '\'' then ofText .bare rest else (ofText .single rest).push c
  | .double, c :: rest =>
    if c = '"' then ofText .bare rest
    else if c = '\\' then
      match rest with
      | [] => (ofText .double []).push '\\'
      | d :: after =>
        if Quoting.escapable d then (ofText .double after).push d
        else (ofText .double (d :: after)).push '\\'
    else (ofText .double rest).push c
  | .bare, c :: rest =>
    if c = '\'' then ofText .single rest
    else if c = '"' then ofText .double rest
    else if c = '\\' then
      match rest with
      | [] => ofText .bare []
      | d :: after => (ofText .bare after).push d
    else if Text.isBlank c then (ofText .bare rest).breakWord
    else (ofText .bare rest).push c

end Reading

/-- The words of `text`. -/
def wordsOf (text : List Char) : List (List Char) := (Reading.ofText .bare text).words

/-- Whether `text` leaves no quotes open. -/
def closesQuotes (text : List Char) : Bool := (Reading.ofText .bare text).closed

theorem Reading.nil_notMem_words {r : Reading} (h : [] ∉ r.others) : [] ∉ r.words := by
  unfold Reading.words
  split
  · exact h
  · next hword => exact List.not_mem_cons_of_ne_of_not_mem (Ne.symm hword) h

theorem Reading.nil_notMem_ofText (q : Quoting) (text : List Char) :
    [] ∉ (Reading.ofText q text).others := by
  fun_induction Reading.ofText q text with
  | case1 => exact List.not_mem_nil
  | case2 => exact List.not_mem_nil
  | case3 => exact List.not_mem_nil
  | case15 _ _ _ _ _ _ ih => exact Reading.nil_notMem_words ih
  | _ => assumption

/-- No word is empty. -/
theorem nil_notMem_wordsOf (text : List Char) : [] ∉ wordsOf text :=
  Reading.nil_notMem_words (Reading.nil_notMem_ofText .bare text)

end PipelineShell
