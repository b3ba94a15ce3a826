import SchemaCompiler.Text.Hex

/-!
# Visible text

A text for a terminal, in which the control characters that could act on the terminal are written
as codes: escape, bell, backspace, form feed, delete and the controls from U+0080 to U+009F. Line
breaks and tabs stay as they are.
-/

namespace SchemaCompiler.Text

/-- A character as it is shown on a terminal. -/
def visibleChar (c : Char) : List Char :=
  if c ∈ ['\x07', '\x08', '\x0c', '\x1b', '\x7f'] then '\\' :: 'x' :: hexDigits 2 c.toNat
  else if 0x80 ≤ c.toNat ∧ c.toNat ≤ 0x9F then
    ['\\', 'u', '\x7b'] ++ hexNumeral c.toNat ++ ['\x7d']
  else [c]

/-- A text as it is shown on a terminal. -/
def visible (text : String) : String :=
  String.ofList (text.toList.flatMap visibleChar)

end SchemaCompiler.Text
