/-!
# Classes of characters

A class of characters is an ascending list of code point ranges, ends included. The first of them is
white space in the sense of Unicode, wider than the ASCII blanks: a name is blank when it has no
other character, and numbers may be surrounded by it.
-/

namespace ScriptFold.Text

/-- The code point lies in one of the ranges. -/
def inRanges (ranges : List (Nat × Nat)) (code : Nat) : Bool :=
  ranges.any fun range => decide (range.1 ≤ code ∧ code ≤ range.2)

theorem inRanges_eq_true_iff {ranges : List (Nat × Nat)} {code : Nat} :
    inRanges ranges code = true ↔ ∃ range ∈ ranges, range.1 ≤ code ∧ code ≤ range.2 := by
  simp [inRanges]

/-! ### Blank characters -/

/-- The ranges of white space, ends included. -/
def blankRanges : List (Nat × Nat) :=
  [(0x09, 0x0D), (0x20, 0x20), (0x85, 0x85), (0xA0, 0xA0), (0x1680, 0x1680), (0x2000, 0x200A),
   (0x2028, 0x2029), (0x202F, 0x202F), (0x205F, 0x205F), (0x3000, 0x3000)]

/-- White space. -/
def isBlankChar (c : Char) : Bool :=
  inRanges blankRanges c.toNat

/-- A text without any character but white space. -/
def isBlank (s : String) : Bool :=
  s.toList.all isBlankChar

/-- The characters without the white space around them. -/
def trimChars (s : List Char) : List Char :=
  ((s.dropWhile isBlankChar).reverse.dropWhile isBlankChar).reverse

end ScriptFold.Text
