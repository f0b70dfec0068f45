import SchemaScalar.Text.Ranges

/-!
# White space

The characters with the White_Space property of Unicode.
-/

namespace SchemaScalar.Text

def blankRanges : Ranges :=
  [(0x09, 0x0D), (0x20, 0x20), (0x85, 0x85), (0xA0, 0xA0), (0x1680, 0x1680), (0x2000, 0x200A),
   (0x2028, 0x2029), (0x202F, 0x202F), (0x205F, 0x205F), (0x3000, 0x3000)]

def isBlank (c : Char) : Bool := blankRanges.contains c

theorem isBlank_iff {c : Char} :
    isBlank c ↔ ∃ range ∈ blankRanges, range.1 ≤ c.toNat ∧ c.toNat ≤ range.2 := by
  have ordered : blankRanges.isOrdered 0 := by decide
  exact Ranges.contains_iff ordered c

/-- Twenty-five characters are white space. -/
example : blankRanges.size = 25 := by decide

end SchemaScalar.Text
