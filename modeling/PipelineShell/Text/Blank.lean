import PipelineShell.Text.Range

/-!
# Blank characters

The characters that separate words: the white space of Unicode, the four
separators U+001C to U+001F included.
-/

namespace PipelineShell.Text

/-- The blank characters, in code-point order. -/
def blankRanges : List (Nat × Nat) :=
  [(0x09, 0x0D), (0x1C, 0x20), (0x85, 0x85), (0xA0, 0xA0), (0x1680, 0x1680), (0x2000, 0x200A),
   (0x2028, 0x2029), (0x202F, 0x202F), (0x205F, 0x205F), (0x3000, 0x3000)]

/-- Whether `c` separates words. -/
def isBlank (c : Char) : Bool := inRanges blankRanges c.toNat

/-- Whether `text` holds blank characters only. -/
def isBlankText (text : List Char) : Bool := text.all isBlank

theorem isBlankText_iff {text : List Char} :
    isBlankText text = true ↔ ∀ c ∈ text, isBlank c = true := by
  simp [isBlankText]

end PipelineShell.Text
