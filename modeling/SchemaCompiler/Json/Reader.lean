import SchemaCompiler.Json.Number
import SchemaCompiler.Json.String

/-!
# Reading JSON values

Truth values, strings and lists of strings, and the fault at a value of another type. Such a value
is read as far as a message has to describe it: a word, a number or a string to its end, a list or
an object only by its bracket.
-/

namespace SchemaCompiler.Json

/-- Whether a character may stand between the parts of a JSON text. -/
def isSpace (c : Char) : Bool :=
  c == ' ' || c == '\t' || c == '\n' || c == '\r'

/-- A text without the spaces at its start. -/
def skipSpace (text : List Char) : List Char :=
  text.dropWhile isSpace

/-- Reads the given characters, which are the rest of a word. -/
def readWord : List Char → List Char → Except Fault (List Char)
  | [], text => .ok text
  | _ :: _, [] => .error (.before [] .endInValue)
  | letter :: letters, c :: rest =>
    if c = letter then readWord letters rest else .error (.seeing (c :: rest) .expectedWord)

/-- What a text starts with, as far as a message describes it. -/
def readFound (text : List Char) : Except Fault (Found × List Char) :=
  match text with
  | [] => .error (.before [] .endInValue)
  | 'n' :: rest => (readWord "ull".toList rest).map (.null, ·)
  | 't' :: rest => (readWord "rue".toList rest).map (.boolean true, ·)
  | 'f' :: rest => (readWord "alse".toList rest).map (.boolean false, ·)
  | '-' :: rest => readNumber true rest
  | '"' :: rest => (readString rest).map fun (content, rest) => (.string content, rest)
  | '[' :: _ => .ok (.list, text)
  | '\x7b' :: _ => .ok (.object, text)
  | c :: _ =>
    if (digitValue? c).isSome then readNumber false text
    else .error (.seeing text .expectedValue)

/-- The fault at a value that is not what was expected. -/
def mismatch (expected : String) (text : List Char) : Fault :=
  match readFound text with
  | .ok (found, rest) => .before rest (.wrongType found expected)
  | .error fault => fault

/-- Reads a truth value. -/
def readFlag (text : List Char) : Except Fault (Bool × List Char) :=
  match skipSpace text with
  | 't' :: rest => (readWord "rue".toList rest).map (true, ·)
  | 'f' :: rest => (readWord "alse".toList rest).map (false, ·)
  | text => .error (mismatch "a boolean" text)

/-- Reads a string with its quotes. -/
def readText (text : List Char) : Except Fault (String × List Char) :=
  match skipSpace text with
  | '"' :: rest => readString rest
  | text => .error (mismatch "a string" text)

/-- Looks for the next item of a list, of which no item was read yet if `first` holds. The text
that is given starts with the item, or with the closing bracket if there is none. -/
def nextItem (first : Bool) (text : List Char) : Except Fault (Bool × List Char) :=
  match skipSpace text with
  | [] => .error (.before [] .endInList)
  | ']' :: rest => .ok (false, ']' :: rest)
  | c :: rest =>
    if first then .ok (true, c :: rest)
    else if c = ',' then
      match skipSpace rest with
      | [] => .error (.before [] .endInValue)
      | ']' :: rest => .error (.seeing (']' :: rest) .trailingComma)
      | text => .ok (true, text)
    else .error (.seeing (c :: rest) .expectedListSeparator)

/-- Skipping spaces makes no text longer. -/
theorem length_skipSpace_le (text : List Char) : (skipSpace text).length ≤ text.length :=
  (List.dropWhile_suffix _).length_le

/-- Looking for an item makes no text longer. -/
theorem length_le_of_nextItem {first more : Bool} {text rest : List Char}
    (h : nextItem first text = .ok (more, rest)) : rest.length ≤ text.length := by
  have hspace := length_skipSpace_le text
  unfold nextItem at h
  split at h
  · simp at h
  · next hskip =>
    simp only [Except.ok.injEq, Prod.mk.injEq] at h
    rw [← h.2, ← hskip]
    exact hspace
  · next c tail _ hskip =>
    rw [hskip, List.length_cons] at hspace
    split at h
    · simp only [Except.ok.injEq, Prod.mk.injEq] at h
      rw [← h.2]
      exact hspace
    · split at h
      · have htail := length_skipSpace_le tail
        split at h
        · simp at h
        · simp at h
        · simp only [Except.ok.injEq, Prod.mk.injEq] at h
          rw [← h.2]
          omega
      · simp at h

/-- What is left after a string with its quotes is shorter. -/
theorem length_lt_of_readText {text rest : List Char} {content : String}
    (h : readText text = .ok (content, rest)) : rest.length < text.length := by
  have hspace := length_skipSpace_le text
  unfold readText at h
  split at h
  · next tail hskip =>
    rw [hskip, List.length_cons] at hspace
    have := length_lt_of_readString h
    omega
  · simp at h

/-- Reads the strings of a list and its closing bracket. No item was read yet if `first` holds. -/
def readTexts (first : Bool) (text : List Char) : Except Fault (List String × List Char) :=
  match _ : nextItem first text with
  | .error fault => .error fault
  | .ok (false, rest) => .ok ([], rest.tail)
  | .ok (true, rest) =>
    match _ : readText rest with
    | .error fault => .error fault
    | .ok (item, rest) => (readTexts false rest).map fun (items, rest) => (item :: items, rest)
termination_by text.length
decreasing_by
  exact Nat.lt_of_lt_of_le (length_lt_of_readText ‹_›) (length_le_of_nextItem ‹_›)

/-- Reads a list of strings. -/
def readTextList (text : List Char) : Except Fault (List String × List Char) :=
  match skipSpace text with
  | '[' :: rest => readTexts true rest
  | text => .error (mismatch "a sequence" text)

end SchemaCompiler.Json
