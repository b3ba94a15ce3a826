import SchemaCompiler.Schema.FieldType
import SchemaCompiler.Text.Alphabetic
import SchemaCompiler.Text.Blank
import SchemaCompiler.Text.LineBreak
import SchemaCompiler.Text.Numeral
import SchemaCompiler.Token

/-!
# Scanning a schema text

`Token.scan` splits a text into tokens. Blanks, line breaks and comments separate tokens and are
dropped. At every other place the first of three readings that applies is taken:

* a reserved word, the first in the order of `reservedWords` that starts there, even when letters
  follow it (`messageX` is the word `message` and the name `X`);
* the longest identifier;
* the longest run of decimal digits.

A place where none applies fails with the rest of its line.
-/

namespace SchemaCompiler

/-- Why a text cannot be split into tokens: the rest of a line from the first character that starts
no token, without blanks at its end, and the number of the line. -/
structure ScanError where
  remainder : String
  line : Int
deriving DecidableEq, Repr

/-- The mark that opens a comment. -/
def commentMark : String := "//"

/-- The reserved words, in the order in which they are tried. -/
def reservedWords : List String :=
  ["message", "package", "\x7b", "\x7d", ";", "repeated", commentMark, "="] ++
    Primitive.all.map Primitive.word

/-- Whether a character can stand after the first one of an identifier. -/
def isIdentifierPart (c : Char) : Bool :=
  Text.isAlphabetic c || Text.isNumeral c

/-- Whether a character is a decimal digit of ASCII. Field numbers take no other digits. -/
def isDecimalDigit (c : Char) : Bool :=
  decide ('0' ≤ c) && decide (c ≤ '9')

/-- Whether a character separates tokens and is dropped. -/
def isLayout (c : Char) : Bool :=
  Text.isLineBreak c || Text.isBlank c

/-- The reserved word at the start of a text. -/
def reservedAt? (text : List Char) : Option String :=
  reservedWords.find? fun word => word.toList.isPrefixOf text

/-- The longest identifier at the start of a text, empty if there is none. -/
def identifierAt : List Char → List Char
  | [] => []
  | c :: rest => if Text.isAlphabetic c then c :: rest.takeWhile isIdentifierPart else []

/-- The longest run of digits at the start of a text. -/
def digitsAt (text : List Char) : List Char :=
  text.takeWhile isDecimalDigit

/-- What stands at a place of a text that is no layout: a comment, which ends before the next line
break, or the characters of a token of some kind. -/
inductive Lexeme where
  | comment
  | word (content : List Char) (kind : TokenKind)
deriving DecidableEq, Repr

/-- The lexeme at the start of a text. -/
def lexemeAt? (text : List Char) : Option Lexeme :=
  match reservedAt? text with
  | some word => some (if word = commentMark then .comment else .word word.toList .reserved)
  | none =>
    match identifierAt text with
    | c :: rest => some (.word (c :: rest) .identifier)
    | [] =>
      match digitsAt text with
      | c :: rest => some (.word (c :: rest) .number)
      | [] => none

/-- No reserved word is empty. -/
theorem reservedWords_ne_nil : ∀ word ∈ reservedWords, word.toList ≠ [] := by
  decide

/-- Every token has at least one character. -/
theorem content_ne_nil_of_lexemeAt? {text content : List Char} {kind : TokenKind}
    (h : lexemeAt? text = some (.word content kind)) : content ≠ [] := by
  unfold lexemeAt? at h
  split at h
  · next word hword =>
    split at h
    · simp at h
    · simp only [Option.some.injEq, Lexeme.word.injEq] at h
      exact h.1 ▸ reservedWords_ne_nil word (List.mem_of_find?_eq_some hword)
  · split at h
    · simp only [Option.some.injEq, Lexeme.word.injEq] at h
      exact h.1 ▸ List.cons_ne_nil _ _
    · split at h
      · simp only [Option.some.injEq, Lexeme.word.injEq] at h
        exact h.1 ▸ List.cons_ne_nil _ _
      · simp at h

namespace Token

/-- The tokens of a text whose first character stands on the given line. -/
def scanFrom (line : Int) (text : List Char) : Except ScanError (List Token) :=
  match text with
  | [] => .ok [endOfInput]
  | c :: rest =>
    if isLayout c then scanFrom (line + Text.breaksAt c rest) rest
    else
      match _ : lexemeAt? (c :: rest) with
      | none => .error ⟨String.ofList (Text.trimEnd (Text.firstLine (c :: rest))), line⟩
      | some .comment => scanFrom line (Text.afterFirstLine rest)
      | some (.word content kind) =>
        (scanFrom line ((c :: rest).drop content.length)).map
          (⟨String.ofList content, kind, line⟩ :: ·)
termination_by text.length
decreasing_by
  · simp
  · exact Nat.lt_succ_of_le (List.dropWhile_suffix _).length_le
  · have := List.length_pos_iff.2 (content_ne_nil_of_lexemeAt? ‹_›)
    simp only [List.length_drop, List.length_cons]
    omega

/-- The tokens of a schema text, with the end of the input as the last one. -/
def scan (text : String) : Except ScanError (List Token) :=
  scanFrom 1 text.toList

end Token

end SchemaCompiler
