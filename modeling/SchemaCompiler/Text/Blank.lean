import SchemaCompiler.Text.RangeSet

/-!
# Blank characters

The characters with the Unicode property `White_Space`, and the removal of such characters from the
ends of a text.
-/

namespace SchemaCompiler.Text

/-- The code points with the property `White_Space`. -/
def blankRanges : RangeSet where
  ranges :=
    [(0x9, 0xD), (0x20, 0x20), (0x85, 0x85), (0xA0, 0xA0), (0x1680, 0x1680), (0x2000, 0x200A),
     (0x2028, 0x2029), (0x202F, 0x202F), (0x205F, 0x205F), (0x3000, 0x3000)]
  ascending := by decide

/-- Whether a character has the property `White_Space`. -/
def isBlank (c : Char) : Bool :=
  blankRanges.includes c

/-- A text without the blanks at its start. -/
def trimStart (text : List Char) : List Char :=
  text.dropWhile isBlank

/-- A text without the blanks at its end. -/
def trimEnd (text : List Char) : List Char :=
  (trimStart text.reverse).reverse

/-- A text without the blanks at its start and at its end. -/
def trim (text : List Char) : List Char :=
  trimEnd (trimStart text)

end SchemaCompiler.Text
