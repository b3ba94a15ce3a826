/-!
# Line breaks

The characters that end a line of a schema text. They are not the blank characters: the separators
U+001C to U+001E end a line and are no blanks, and a space is a blank and ends no line. A carriage
return directly before a line feed forms one break with it.
-/

namespace SchemaCompiler.Text

/-- Whether a character ends a line: line feed, vertical tab, form feed, carriage return, the file,
group and record separators, next line, and the line and paragraph separators. -/
def isLineBreak (c : Char) : Bool :=
  c ∈ ['\n', '\x0b', '\x0c', '\r', '\x1c', '\x1d', '\x1e', '\u0085', '\u2028', '\u2029']

/-- How many lines end with the character `c` before the text `rest`. A carriage return before a
line feed counts nothing, since the break is counted at the line feed. -/
def breaksAt (c : Char) (rest : List Char) : Nat :=
  if isLineBreak c && !(c == '\r' && rest.head? == some '\n') then 1 else 0

/-- The text up to its first line break. -/
def firstLine (text : List Char) : List Char :=
  text.takeWhile (!isLineBreak ·)

/-- The text from its first line break on. -/
def afterFirstLine (text : List Char) : List Char :=
  text.dropWhile (!isLineBreak ·)

/-- The first line and what follows it make up the text. -/
theorem firstLine_append_afterFirstLine (text : List Char) :
    firstLine text ++ afterFirstLine text = text :=
  List.takeWhile_append_dropWhile

/-- The first line holds no line break. -/
theorem isLineBreak_eq_false_of_mem_firstLine {text : List Char} {c : Char}
    (h : c ∈ firstLine text) : isLineBreak c = false := by
  induction text with
  | nil => simp [firstLine] at h
  | cons first rest ih =>
    simp only [firstLine, List.takeWhile_cons] at h
    split at h
    · next hfirst =>
      rcases List.mem_cons.1 h with rfl | hrest
      · simpa using hfirst
      · exact ih hrest
    · simp at h

end SchemaCompiler.Text
