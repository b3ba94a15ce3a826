import SchemaCompiler.Json.Fault
import SchemaCompiler.Text.Hex

/-!
# Reading JSON strings

`readString` reads the characters of a string up to its closing quote. An escape is a backslash and
a letter, or `\u` and four hexadecimal digits; a character beyond U+FFFF is written as two such
codes, its halves.
-/

namespace SchemaCompiler.Json

/-- The character that a letter after a backslash stands for. -/
def unescape? : Char → Option Char
  | '"' => some '"'
  | '\\' => some '\\'
  | '/' => some '/'
  | 'b' => some '\x08'
  | 'f' => some '\x0c'
  | 'n' => some '\n'
  | 'r' => some '\r'
  | 't' => some '\t'
  | _ => none

/-- The number of four hexadecimal digits. Four bytes are taken before the digits are looked at. -/
def readCode (text : List Char) : Except Fault (Nat × List Char) :=
  match text with
  | a :: b :: c :: d :: rest =>
    match Text.hexValue? a, Text.hexValue? b, Text.hexValue? c, Text.hexValue? d with
    | some a, some b, some c, some d => .ok (((a * 16 + b) * 16 + c) * 16 + d, rest)
    | _, _, _, _ => .error ⟨.invalidEscape, text, 4⟩
  | _ =>
    if byteCount text < 4 then .error (.before [] .endInString)
    else .error ⟨.invalidEscape, text, 4⟩

/-- Whether a code is the first half of a character. -/
def isFirstHalf (code : Nat) : Bool :=
  decide (0xD800 ≤ code) && decide (code ≤ 0xDBFF)

/-- Whether a code is the second half of a character. -/
def isSecondHalf (code : Nat) : Bool :=
  decide (0xDC00 ≤ code) && decide (code ≤ 0xDFFF)

/-- The character with the given halves. -/
def joinHalves (first second : Nat) : Char :=
  Char.ofNat (0x10000 + (first - 0xD800) * 0x400 + (second - 0xDC00))

/-- Reads the given character and gives the text after it. -/
def readMark (mark : Char) : List Char → Except Fault (List Char)
  | [] => .error (.before [] .endInString)
  | c :: rest => if c = mark then .ok rest else .error (.seeing (c :: rest) .expectedSecondHalf)

/-- Reads the second half of a character after its first half. -/
def readSecondHalf (first : Nat) (text : List Char) : Except Fault (Char × List Char) := do
  let text ← readMark '\\' text
  let text ← readMark 'u' text
  let (second, rest) ← readCode text
  if isSecondHalf second then .ok (joinHalves first second, rest)
  else .error (.before rest .loneHalf)

/-- Reads the code after `\u`. -/
def readCodedChar (text : List Char) : Except Fault (Char × List Char) := do
  let (code, rest) ← readCode text
  if isSecondHalf code then .error (.before rest .loneHalf)
  else if isFirstHalf code then readSecondHalf code rest
  else .ok (Char.ofNat code, rest)

/-- Reads an escape after its backslash. -/
def readEscape : List Char → Except Fault (Char × List Char)
  | [] => .error (.before [] .endInString)
  | 'u' :: rest => readCodedChar rest
  | c :: rest =>
    match unescape? c with
    | some plain => .ok (plain, rest)
    | none => .error (.seeing (c :: rest) .invalidEscape)

/-- What is left after a code is shorter. -/
theorem length_lt_of_readCode {text rest : List Char} {code : Nat}
    (h : readCode text = .ok (code, rest)) : rest.length < text.length := by
  unfold readCode at h
  split at h
  · split at h
    · simp only [Except.ok.injEq, Prod.mk.injEq] at h
      simp only [← h.2, List.length_cons]
      omega
    · simp at h
  · split at h <;> simp at h

/-- What is left after a given character is shorter. -/
theorem length_lt_of_readMark {mark : Char} {text rest : List Char}
    (h : readMark mark text = .ok rest) : rest.length < text.length := by
  cases text with
  | nil => simp [readMark] at h
  | cons c text =>
    simp only [readMark] at h
    split at h
    · simp only [Except.ok.injEq] at h
      simp [h]
    · simp at h

/-- What is left after a second half is shorter. -/
theorem length_lt_of_readSecondHalf {first : Nat} {text rest : List Char} {c : Char}
    (h : readSecondHalf first text = .ok (c, rest)) : rest.length < text.length := by
  simp only [readSecondHalf, bind, Except.bind] at h
  split at h
  · simp at h
  next afterBackslash hbackslash =>
  split at h
  · simp at h
  next afterLetter hletter =>
  split at h
  · simp at h
  next second hcode =>
  split at h
  · simp only [Except.ok.injEq, Prod.mk.injEq] at h
    have := length_lt_of_readMark hbackslash
    have := length_lt_of_readMark hletter
    have := length_lt_of_readCode hcode
    rw [← h.2]
    omega
  · simp at h

/-- What is left after a coded character is shorter. -/
theorem length_lt_of_readCodedChar {text rest : List Char} {c : Char}
    (h : readCodedChar text = .ok (c, rest)) : rest.length < text.length := by
  simp only [readCodedChar, bind, Except.bind] at h
  split at h
  · simp at h
  next code hcode =>
  have hshorter := length_lt_of_readCode hcode
  split at h
  · simp at h
  · split at h
    · exact Nat.lt_trans (length_lt_of_readSecondHalf h) hshorter
    · simp only [Except.ok.injEq, Prod.mk.injEq] at h
      exact h.2 ▸ hshorter

/-- What is left after an escape is shorter. -/
theorem length_lt_of_readEscape {text rest : List Char} {c : Char}
    (h : readEscape text = .ok (c, rest)) : rest.length < text.length := by
  unfold readEscape at h
  split at h
  · simp at h
  · exact Nat.lt_succ_of_lt (length_lt_of_readCodedChar h)
  · split at h
    · simp only [Except.ok.injEq, Prod.mk.injEq] at h
      simp [h.2]
    · simp at h

/-- Reads the characters of a string and its closing quote. -/
def readChars (text : List Char) : Except Fault (List Char × List Char) :=
  match text with
  | [] => .error (.before [] .endInString)
  | '"' :: rest => .ok ([], rest)
  | '\\' :: rest =>
    match _ : readEscape rest with
    | .error fault => .error fault
    | .ok (c, rest) => (readChars rest).map fun (content, rest) => (c :: content, rest)
  | c :: rest =>
    if c.toNat < 0x20 then .error (.before rest .controlCharacter)
    else (readChars rest).map fun (content, rest) => (c :: content, rest)
termination_by text.length
decreasing_by
  · exact Nat.lt_succ_of_lt (length_lt_of_readEscape ‹_›)
  · simp

/-- What is left after the characters of a string is shorter. -/
theorem length_lt_of_readChars {text rest content : List Char}
    (h : readChars text = .ok (content, rest)) : rest.length < text.length := by
  fun_induction readChars text generalizing content with
  | case1 => simp at h
  | case2 tail =>
    simp only [Except.ok.injEq, Prod.mk.injEq] at h
    simp [h.2]
  | case3 tail fault hescape => simp at h
  | case4 tail c afterEscape hescape ih =>
    cases hmore : readChars afterEscape with
    | error fault => simp [hmore, Except.map] at h
    | ok value =>
      obtain ⟨chars, left⟩ := value
      simp only [hmore, Except.map, Except.ok.injEq, Prod.mk.injEq] at h
      have := ih (h.2 ▸ hmore)
      have := length_lt_of_readEscape hescape
      simp only [List.length_cons]
      omega
  | case5 => simp at h
  | case6 c tail _ _ _ ih =>
    cases hmore : readChars tail with
    | error fault => simp [hmore, Except.map] at h
    | ok value =>
      obtain ⟨chars, left⟩ := value
      simp only [hmore, Except.map, Except.ok.injEq, Prod.mk.injEq] at h
      have := ih (h.2 ▸ hmore)
      simp only [List.length_cons]
      omega

/-- Reads a string after its opening quote. -/
def readString (text : List Char) : Except Fault (String × List Char) :=
  (readChars text).map fun (content, rest) => (String.ofList content, rest)

/-- What is left after a string is shorter. -/
theorem length_lt_of_readString {text rest : List Char} {content : String}
    (h : readString text = .ok (content, rest)) : rest.length < text.length := by
  unfold readString at h
  cases hchars : readChars text with
  | error fault =>
      rw [hchars] at h
      cases h
  | ok value =>
      rw [hchars] at h
      cases h
      exact length_lt_of_readChars hchars

end SchemaCompiler.Json
