import Mathlib.Data.List.Find
import Mathlib.Data.List.TakeWhile
import SchemaCompiler.Compile

/-!
# Scanning line by line

A second scanner, which splits the text into lines first and then takes the tokens of each line on
its own. `Token.scanByLines` numbers the lines from 1, strips blanks before each token, tries the
reserved words, an identifier and a run of digits in this order, and drops the rest of a line after
a comment mark. `Token.tokenize_eq_scanByLines` says that the scanner, which keeps one place in the
whole text and counts the breaks that it passes, gives the same tokens and the same error.

The two recursions have different shapes. What makes them agree is that a lexeme never reaches over
a line break (`lexemeAt?_firstLine`), so that the rest of the text after it has the same later lines
(`Text.laterLines_append`).
-/

namespace SchemaCompiler

namespace Text

/-- The lines of a text. A carriage return and the line feed after it are one break, and every other
line break is one of its own. -/
def lines : List Char → List (List Char)
  | [] => [[]]
  | '\r' :: '\n' :: rest => [] :: lines rest
  | c :: rest => if isLineBreak c then [] :: lines rest else (lines rest).modifyHead (c :: ·)

/-- The lines of a text after the first one. -/
def laterLines (text : List Char) : List (List Char) :=
  (lines text).tail

/-- A line is longer than what stands after its first character that is no blank. -/
theorem length_lt_of_trimStart {line rest : List Char} {c : Char}
    (h : trimStart line = c :: rest) : rest.length < line.length := by
  have hsuffix : c :: rest <:+ line := h ▸ List.dropWhile_suffix isBlank
  exact Nat.lt_of_succ_le hsuffix.length_le

end Text

namespace Token

/-- The tokens of a line with the given number. -/
def scanLine (number : Int) (line : List Char) : Except ScanError (List Token) :=
  match _ : Text.trimStart line with
  | [] => .ok []
  | c :: rest =>
    match _ : reservedWords.find? fun word => word.toList.isPrefixOf (c :: rest) with
    | some word =>
      if word = commentMark then .ok []
      else
        (scanLine number ((c :: rest).drop word.toList.length)).map
          (⟨word, .reserved, number⟩ :: ·)
    | none =>
      if Text.isAlphabetic c then
        (scanLine number (rest.dropWhile isIdentifierPart)).map
          (⟨String.ofList (c :: rest.takeWhile isIdentifierPart), .identifier, number⟩ :: ·)
      else if isDecimalDigit c then
        (scanLine number (rest.dropWhile isDecimalDigit)).map
          (⟨String.ofList (c :: rest.takeWhile isDecimalDigit), .number, number⟩ :: ·)
      else .error ⟨String.ofList (Text.trimEnd (c :: rest)), number⟩
termination_by line.length
decreasing_by
  all_goals have hrest := Text.length_lt_of_trimStart ‹_›
  · have hlength := List.length_pos_iff.2
      (reservedWords_ne_nil word (List.mem_of_find?_eq_some ‹_›))
    simp only [List.length_drop, List.length_cons]
    omega
  · exact Nat.lt_of_le_of_lt (List.dropWhile_suffix _).length_le hrest
  · exact Nat.lt_of_le_of_lt (List.dropWhile_suffix _).length_le hrest

/-- The tokens of lines of which the first one has the given number, with the end of the input as
the last one. -/
def scanLines : Int → List (List Char) → Except ScanError (List Token)
  | _, [] => .ok [endOfInput]
  | number, line :: rest =>
    match scanLine number line with
    | .ok tokens => (scanLines (number + 1) rest).map (tokens ++ ·)
    | .error error => .error error

/-- The tokens of a text, taken line by line. -/
def scanByLines (text : String) : Except ScanError (List Token) :=
  scanLines 1 (Text.lines text.toList)

end Token

namespace Text

/-! ## Lines -/

/-- A line break ends a line, unless it is a carriage return that a line feed follows. -/
theorem lines_cons_of_break {c : Char} (h : isLineBreak c = true) (rest : List Char) :
    lines (c :: rest) =
      if c == '\r' && rest.head? == some '\n' then lines rest else [] :: lines rest := by
  by_cases hpair : c = '\r' ∧ rest.head? = some '\n'
  · obtain ⟨rfl, hhead⟩ := hpair
    obtain ⟨more, rfl⟩ := List.head?_eq_some_iff.1 hhead
    simp [lines, isLineBreak]
  · rw [lines]
    · simp [h, hpair]
    · rintro more rfl rfl
      exact hpair ⟨rfl, rfl⟩

/-- A character that is no line break belongs to the first line. -/
theorem lines_cons_of_not_break {c : Char} (h : isLineBreak c = false) (rest : List Char) :
    lines (c :: rest) = (lines rest).modifyHead (c :: ·) := by
  rw [lines]
  · simp [h]
  · rintro more rfl
    simp [isLineBreak] at h

/-- The lines of a text are the first one and the later ones. -/
theorem lines_eq_cons (text : List Char) : lines text = firstLine text :: laterLines text := by
  induction text with
  | nil => rfl
  | cons c rest ih =>
      cases hc : isLineBreak c with
      | true =>
          have hfirst : firstLine (c :: rest) = [] := by simp [firstLine, hc]
          rw [laterLines, lines_cons_of_break hc, hfirst]
          split
          · next hpair =>
            -- The line feed after the carriage return ends the same empty line.
            obtain ⟨-, hhead⟩ : c = '\r' ∧ rest.head? = some '\n' := by simpa using hpair
            obtain ⟨more, rfl⟩ := List.head?_eq_some_iff.1 hhead
            rw [ih]
            simp [firstLine, isLineBreak]
          · rfl
      | false =>
          have hfirst : firstLine (c :: rest) = c :: firstLine rest := by simp [firstLine, hc]
          rw [laterLines, lines_cons_of_not_break hc, ih, hfirst]
          rfl

/-- Characters that are no line breaks belong to the first line. -/
theorem firstLine_append {content : List Char} (h : ∀ c ∈ content, isLineBreak c = false)
    (rest : List Char) : firstLine (content ++ rest) = content ++ firstLine rest := by
  rw [firstLine, List.takeWhile_append_of_pos]
  · rfl
  · intro c hc
    simp [h c hc]

/-- Characters that are no line breaks do not change the later lines. -/
theorem laterLines_append {content : List Char} (h : ∀ c ∈ content, isLineBreak c = false)
    (rest : List Char) : laterLines (content ++ rest) = laterLines rest := by
  induction content with
  | nil => rfl
  | cons c more ih =>
      have hmore := ih fun other hother => h other (by simp [hother])
      rw [List.cons_append, laterLines, lines_cons_of_not_break (h c (by simp)), lines_eq_cons]
      exact hmore

/-- The later lines do not depend on the first one. -/
theorem laterLines_afterFirstLine (text : List Char) :
    laterLines (afterFirstLine text) = laterLines text := by
  have happend : laterLines (firstLine text ++ afterFirstLine text) =
      laterLines (afterFirstLine text) :=
    laterLines_append (fun _ hc => isLineBreak_eq_false_of_mem_firstLine hc) _
  rw [firstLine_append_afterFirstLine] at happend
  exact happend.symm

/-- The first line ends before its break. -/
theorem firstLine_afterFirstLine (text : List Char) : firstLine (afterFirstLine text) = [] := by
  unfold firstLine afterFirstLine
  rw [List.takeWhile_eq_nil_iff]
  intro hlength
  simpa using List.dropWhile_get_zero_not _ _ hlength

end Text

/-! ## Lexemes do not reach over a line break -/

/-- No reserved word holds a line break. -/
theorem reservedWords_not_break :
    ∀ word ∈ reservedWords, ∀ c ∈ word.toList, Text.isLineBreak c = false := by
  have hall : reservedWords.all (fun word => word.toList.all fun c => !Text.isLineBreak c) = true :=
    rfl
  simpa only [List.all_eq_true, Bool.not_eq_true'] using hall

/-- A line break is no part of an identifier or of a number. -/
theorem not_word_of_isLineBreak {c : Char} (h : Text.isLineBreak c = true) :
    isIdentifierPart c = false ∧ isDecimalDigit c = false := by
  simp only [Text.isLineBreak, List.mem_cons, List.not_mem_nil, or_false, decide_eq_true_eq] at h
  rcases h with rfl | rfl | rfl | rfl | rfl | rfl | rfl | rfl | rfl | rfl <;> decide +kernel

/-- No character of an identifier is a line break. -/
theorem isLineBreak_of_isIdentifierPart {c : Char} (h : isIdentifierPart c = true) :
    Text.isLineBreak c = false :=
  Bool.eq_false_iff.2 fun hbreak => by simp [(not_word_of_isLineBreak hbreak).1] at h

/-- No digit is a line break. -/
theorem isLineBreak_of_isDecimalDigit {c : Char} (h : isDecimalDigit c = true) :
    Text.isLineBreak c = false :=
  Bool.eq_false_iff.2 fun hbreak => by simp [(not_word_of_isLineBreak hbreak).2] at h

/-- A run of characters that are no line breaks ends in the first line. -/
theorem takeWhile_firstLine {p : Char → Bool}
    (hp : ∀ c, p c = true → Text.isLineBreak c = false) (text : List Char) :
    (Text.firstLine text).takeWhile p = text.takeWhile p := by
  rw [Text.firstLine, List.takeWhile_takeWhile]
  congr 1
  funext c
  cases hc : p c with
  | false => simp
  | true => simp [hp c hc]

/-- The reserved word at the start of a text is a part of it. -/
theorem reservedAt?_eq_some {text : List Char} {word : String} (h : reservedAt? text = some word) :
    word ∈ reservedWords ∧ word.toList <+: text := by
  have hstarts := List.find?_some h
  exact ⟨List.mem_of_find?_eq_some h, List.isPrefixOf_iff_prefix.1 hstarts⟩

/-- The reserved word at the start of a text stands in its first line. -/
theorem reservedAt?_firstLine (text : List Char) :
    reservedAt? (Text.firstLine text) = reservedAt? text := by
  have hword : ∀ word ∈ reservedWords,
      word.toList.isPrefixOf (Text.firstLine text) = word.toList.isPrefixOf text := by
    intro word hmem
    rw [Bool.eq_iff_iff, List.isPrefixOf_iff_prefix, List.isPrefixOf_iff_prefix]
    constructor
    · intro h
      exact h.trans (List.takeWhile_prefix _)
    · rintro ⟨rest, rfl⟩
      rw [Text.firstLine_append (reservedWords_not_break word hmem)]
      exact List.prefix_append _ _
  exact List.find?_congr hword

/-- The identifier at the start of a text stands in its first line. -/
theorem identifierAt_firstLine (text : List Char) :
    identifierAt (Text.firstLine text) = identifierAt text := by
  cases text with
  | nil => rfl
  | cons c rest =>
      cases hc : Text.isLineBreak c with
      | true =>
          have halphabetic : Text.isAlphabetic c = false := by
            have hpart := (not_word_of_isLineBreak hc).1
            simp only [isIdentifierPart, Bool.or_eq_false_iff] at hpart
            exact hpart.1
          simp [Text.firstLine, hc, identifierAt, halphabetic]
      | false =>
          have hfirst : Text.firstLine (c :: rest) = c :: Text.firstLine rest := by
            simp [Text.firstLine, hc]
          rw [hfirst, identifierAt, identifierAt,
            takeWhile_firstLine fun _ => isLineBreak_of_isIdentifierPart]

/-- The lexeme at the start of a text stands in its first line. -/
theorem lexemeAt?_firstLine (text : List Char) :
    lexemeAt? (Text.firstLine text) = lexemeAt? text := by
  have hdigits : digitsAt (Text.firstLine text) = digitsAt text :=
    takeWhile_firstLine (fun _ => isLineBreak_of_isDecimalDigit) text
  rw [lexemeAt?, lexemeAt?, reservedAt?_firstLine, identifierAt_firstLine, hdigits]

/-- The three readings of a word, in the order in which they are tried. -/
theorem lexemeAt?_word_cases {text content : List Char} {kind : TokenKind}
    (h : lexemeAt? text = some (.word content kind)) :
    (∃ word, reservedAt? text = some word ∧ word ≠ commentMark ∧ content = word.toList ∧
      kind = .reserved) ∨
    (reservedAt? text = none ∧ content = identifierAt text ∧ kind = .identifier) ∨
    (reservedAt? text = none ∧ identifierAt text = [] ∧ content = digitsAt text ∧
      kind = .number) := by
  unfold lexemeAt? at h
  split at h
  · next word hword =>
    split_ifs at h with hcomment
    · cases h
    · cases h
      exact .inl ⟨word, hword, hcomment, rfl, rfl⟩
  · next hword =>
    split at h
    · next c rest hidentifier =>
      cases h
      exact .inr (.inl ⟨hword, hidentifier.symm, rfl⟩)
    · next hidentifier =>
      split at h
      · next c rest hdigits =>
        cases h
        exact .inr (.inr ⟨hword, hidentifier, hdigits.symm, rfl⟩)
      · cases h

/-- The identifier at the start of a text is a part of it. -/
theorem identifierAt_isPrefix (text : List Char) : identifierAt text <+: text := by
  cases text with
  | nil => exact List.prefix_refl _
  | cons c rest =>
      rw [identifierAt]
      split
      · exact List.cons_prefix_cons.2 ⟨rfl, List.takeWhile_prefix _⟩
      · exact List.nil_prefix

/-- The identifier at the start of a text consists of parts of identifiers. -/
theorem isIdentifierPart_of_mem_identifierAt {text : List Char} {c : Char}
    (h : c ∈ identifierAt text) : isIdentifierPart c = true := by
  cases text with
  | nil => cases h
  | cons first rest =>
      rw [identifierAt] at h
      split at h
      · next hfirst =>
        rcases List.mem_cons.1 h with rfl | hrest
        · simp [isIdentifierPart, hfirst]
        · exact List.mem_takeWhile_imp hrest
      · cases h

/-- The characters of a token stand at the start of the text, and none of them is a line break. -/
theorem lexemeAt?_eq_word {text content : List Char} {kind : TokenKind}
    (h : lexemeAt? text = some (.word content kind)) :
    content <+: text ∧ ∀ c ∈ content, Text.isLineBreak c = false := by
  rcases lexemeAt?_word_cases h with ⟨word, hword, -, rfl, -⟩ | ⟨-, rfl, -⟩ | ⟨-, -, rfl, -⟩
  · obtain ⟨hmem, hstarts⟩ := reservedAt?_eq_some hword
    exact ⟨hstarts, reservedWords_not_break word hmem⟩
  · exact ⟨identifierAt_isPrefix text,
      fun c hc => isLineBreak_of_isIdentifierPart (isIdentifierPart_of_mem_identifierAt hc)⟩
  · exact ⟨List.takeWhile_prefix _,
      fun c hc => isLineBreak_of_isDecimalDigit (List.mem_takeWhile_imp hc)⟩

/-- A character is no layout if it is neither a line break nor a blank. -/
theorem isLayout_eq_false_iff {c : Char} :
    isLayout c = false ↔ Text.isLineBreak c = false ∧ Text.isBlank c = false := by
  simp [isLayout]

namespace Token

/-! ## The tokens of a line -/

/-- What stands after a run is what the run leaves. -/
theorem drop_length_takeWhile (p : Char → Bool) (text : List Char) :
    text.drop (text.takeWhile p).length = text.dropWhile p := by
  induction text with
  | nil => rfl
  | cons c rest ih =>
      cases hc : p c with
      | true => simp [hc, ih]
      | false => simp [hc]

/-- Blanks at the start of a line are dropped. -/
theorem scanLine_cons_blank {c : Char} (h : Text.isBlank c = true) (number : Int)
    (rest : List Char) : scanLine number (c :: rest) = scanLine number rest := by
  have htrim : Text.trimStart (c :: rest) = Text.trimStart rest := by
    simp [Text.trimStart, h]
  conv_lhs => rw [scanLine]
  conv_rhs => rw [scanLine]
  rw [htrim]

/-- Where no blank stands, a line goes on with the lexeme that starts there. -/
theorem scanLine_cons {c : Char} (h : Text.isBlank c = false) (number : Int)
    (rest : List Char) :
    scanLine number (c :: rest) =
      match lexemeAt? (c :: rest) with
      | none => .error ⟨String.ofList (Text.trimEnd (c :: rest)), number⟩
      | some .comment => .ok []
      | some (.word content kind) =>
        (scanLine number ((c :: rest).drop content.length)).map
          (⟨String.ofList content, kind, number⟩ :: ·) := by
  have htrim : Text.trimStart (c :: rest) = c :: rest := by
    simp [Text.trimStart, h]
  rw [scanLine]
  split
  · next hnil => simp [htrim] at hnil
  · next first more hcons =>
    obtain ⟨rfl, rfl⟩ : c = first ∧ rest = more := by simpa [htrim] using hcons
    rw [lexemeAt?, reservedAt?]
    split
    · next word hword =>
      simp only [hword]
      split_ifs with hcomment
      · rfl
      · simp
    · next hword =>
      simp only [hword]
      split_ifs with halphabetic hdigit
      · simp [identifierAt, halphabetic, drop_length_takeWhile]
      · simp [identifierAt, halphabetic, digitsAt, hdigit, drop_length_takeWhile]
      · simp [identifierAt, halphabetic, digitsAt, hdigit]

/-- Where no layout stands, the first line of a text goes on with the lexeme that starts there, and
then with the first line of what follows it. -/
theorem scanLine_firstLine {c : Char} (h : isLayout c = false) (number : Int) (rest : List Char) :
    scanLine number (Text.firstLine (c :: rest)) =
      match lexemeAt? (c :: rest) with
      | none => .error ⟨String.ofList (Text.trimEnd (Text.firstLine (c :: rest))), number⟩
      | some .comment => .ok []
      | some (.word content kind) =>
        (scanLine number (Text.firstLine ((c :: rest).drop content.length))).map
          (⟨String.ofList content, kind, number⟩ :: ·) := by
  obtain ⟨hbreak, hblank⟩ := isLayout_eq_false_iff.1 h
  have hfirst : Text.firstLine (c :: rest) = c :: Text.firstLine rest := by
    simp [Text.firstLine, hbreak]
  rw [hfirst, scanLine_cons hblank, ← hfirst, lexemeAt?_firstLine]
  split
  · rfl
  · rfl
  · next content kind hlexeme =>
    obtain ⟨⟨after, hafter⟩, hcontent⟩ := lexemeAt?_eq_word hlexeme
    rw [← hafter, Text.firstLine_append hcontent, List.drop_left, List.drop_left]

/-! ## The tokens of a text -/

/-- An empty line holds no tokens. -/
theorem scanLine_nil (number : Int) : scanLine number [] = .ok [] := by
  rw [scanLine]
  rfl

/-- A line without tokens counts as a line and adds nothing. -/
theorem scanLines_cons_of_ok_nil {number : Int} {line : List Char}
    (h : scanLine number line = .ok []) (rest : List (List Char)) :
    scanLines number (line :: rest) = scanLines (number + 1) rest := by
  rw [scanLines, h]
  cases scanLines (number + 1) rest <;> rfl

/-- A token at the start of a line is the first one of the whole. -/
theorem scanLines_cons_of_map {number : Int} {line after : List Char} {token : Token}
    (h : scanLine number line = (scanLine number after).map (token :: ·))
    (rest : List (List Char)) :
    scanLines number (line :: rest) = (scanLines number (after :: rest)).map (token :: ·) := by
  rw [scanLines, scanLines, h]
  cases scanLine number after with
  | error error => rfl
  | ok tokens => cases scanLines (number + 1) rest <;> rfl

/-- Layout at the start of a text ends the line or belongs to it, as it counts breaks. -/
theorem scanLines_cons_layout {c : Char} (h : isLayout c = true) (line : Int)
    (rest : List Char) :
    scanLines line (Text.lines (c :: rest)) =
      scanLines (line + Text.breaksAt c rest) (Text.lines rest) := by
  cases hbreak : Text.isLineBreak c with
  | true =>
      rw [Text.lines_cons_of_break hbreak]
      split
      · next hpair =>
        have hcount : Text.breaksAt c rest = 0 := by simp [Text.breaksAt, hpair]
        rw [hcount, Int.natCast_zero, Int.add_zero]
      · next hpair =>
        have hcount : Text.breaksAt c rest = 1 := by simp [Text.breaksAt, hbreak, hpair]
        rw [hcount, scanLines_cons_of_ok_nil (scanLine_nil line)]
        rfl
  | false =>
      have hblank : Text.isBlank c = true := by simpa [isLayout, hbreak] using h
      have hcount : Text.breaksAt c rest = 0 := by simp [Text.breaksAt, hbreak]
      rw [hcount, Int.natCast_zero, Int.add_zero, Text.lines_cons_of_not_break hbreak,
        Text.lines_eq_cons rest]
      show scanLines line ((c :: Text.firstLine rest) :: Text.laterLines rest) = _
      rw [scanLines, scanLines, scanLine_cons_blank hblank]

/-- The scan of a text and the scan of its lines agree, whatever the number of the first line. -/
theorem scanFrom_eq_scanLines (line : Int) (text : List Char) :
    scanFrom line text = scanLines line (Text.lines text) := by
  fun_induction scanFrom line text with
  | case1 line =>
      rw [Text.lines, scanLines_cons_of_ok_nil (scanLine_nil line)]
      rfl
  | case2 line c rest hlayout ih => rw [ih, scanLines_cons_layout hlayout]
  | case3 line c rest hlayout hlexeme =>
      have hline := scanLine_firstLine (Bool.eq_false_iff.2 hlayout) line rest
      rw [hlexeme] at hline
      rw [Text.lines_eq_cons, scanLines, hline]
  | case4 line c rest hlayout hlexeme ih =>
      -- The comment ends with the line, and the scan goes on at the break after it.
      have hline := scanLine_firstLine (Bool.eq_false_iff.2 hlayout) line rest
      rw [hlexeme] at hline
      have hbreak := (isLayout_eq_false_iff.1 (Bool.eq_false_iff.2 hlayout)).1
      have hlater : Text.laterLines (c :: rest) = Text.laterLines rest :=
        Text.laterLines_append (fun _ hmem => List.mem_singleton.1 hmem ▸ hbreak) rest
      rw [ih, Text.lines_eq_cons (Text.afterFirstLine rest), Text.firstLine_afterFirstLine,
        Text.laterLines_afterFirstLine, scanLines_cons_of_ok_nil (scanLine_nil line),
        Text.lines_eq_cons (c :: rest), scanLines_cons_of_ok_nil hline, hlater]
  | case5 line c rest hlayout content kind hlexeme ih =>
      -- The lexeme stands in the first line, so what follows it has the same later lines.
      have hline := scanLine_firstLine (Bool.eq_false_iff.2 hlayout) line rest
      rw [hlexeme] at hline
      obtain ⟨⟨after, hafter⟩, hcontent⟩ := lexemeAt?_eq_word hlexeme
      rw [ih, Text.lines_eq_cons (c :: rest), scanLines_cons_of_map hline, Text.lines_eq_cons]
      rw [← hafter, List.drop_left, Text.laterLines_append hcontent]

/-- The scan of a text gives the same tokens with the same lines, or the same error, as the scan of
its lines one by one. -/
theorem tokenize_eq_scanByLines (text : String) :
    (tokenize text).result = (scanByLines text).mapError .scan := by
  rw [tokenize, scan, scanFrom_eq_scanLines, scanByLines]
  cases scanLines 1 (Text.lines text.toList) <;> rfl

end Token

end SchemaCompiler
