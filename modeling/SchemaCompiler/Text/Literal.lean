import SchemaCompiler.Text.Hex
import SchemaCompiler.Text.Printable

/-!
# Text literals

A text as an escaped literal for diagnostics that show the value itself: in double quotes, with
short escapes for the null character, tab, carriage return, line feed, quote and backslash, and the
code point in braces for every other character that is not printable.
-/

namespace SchemaCompiler.Text

/-- A character as it is written in a literal. -/
def literalChar (c : Char) : List Char :=
  match c with
  | '\x00' => ['\\', '0']
  | '\t' => ['\\', 't']
  | '\r' => ['\\', 'r']
  | '\n' => ['\\', 'n']
  | '"' => ['\\', '"']
  | '\\' => ['\\', '\\']
  | _ =>
    if isPrintable c then [c]
    else ['\\', 'u', '\x7b'] ++ hexNumeral c.toNat ++ ['\x7d']

/-- A text as an escaped literal. -/
def literal (text : String) : String :=
  String.ofList ('"' :: (text.toList.flatMap literalChar ++ ['"']))

end SchemaCompiler.Text
