import SchemaCompiler.Text.Hex

/-!
# Quoted text

A text as a JSON string: in double quotes, with a backslash before quote and backslash, short
escapes for the common controls and four digits for the other ones. Every other character stands as
it is.
-/

namespace SchemaCompiler.Text

/-- The letter that stands after a backslash for a character with a short escape. -/
def shortEscape? : Char → Option Char
  | '"' => some '"'
  | '\\' => some '\\'
  | '\x08' => some 'b'
  | '\t' => some 't'
  | '\n' => some 'n'
  | '\x0c' => some 'f'
  | '\r' => some 'r'
  | _ => none

/-- A character as it is written between quotes. -/
def quotedChar (c : Char) : List Char :=
  match shortEscape? c with
  | some letter => ['\\', letter]
  | none => if c.toNat < 0x20 then '\\' :: 'u' :: hexDigits 4 c.toNat else [c]

/-- The characters of a text in quotes. -/
def quotedChars (text : List Char) : List Char :=
  '"' :: (text.flatMap quotedChar ++ ['"'])

/-- A text in quotes. -/
def quoted (text : String) : String :=
  String.ofList (quotedChars text.toList)

end SchemaCompiler.Text
