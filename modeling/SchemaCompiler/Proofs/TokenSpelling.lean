import SchemaCompiler.Proofs.LineScan

/-!
# Which token lists are scanned

`Token.Lexical` says of a token list how its tokens are spelled and that their lines do not go back.
The token lists that a scan gives are exactly the lexical ones: every scan is lexical
(`Token.lexical_of_scan`), and `Token.layOut` writes every lexical list as a text that is scanned as
the list (`Token.scan_layOut`).

What makes the second part hold is that the reading at a place does not depend on what follows a
separator (`lexemeAt?_append`): reserved words, identifiers and numbers hold no layout, so all of
them end before it. A well spelled token is read as itself (`Token.WellSpelled.lexemeAt?_content`).
-/

namespace SchemaCompiler

/-- A letter, and letters and numerals after it. -/
def IsLetterFirst : List Char → Prop
  | [] => False
  | c :: rest => Text.isAlphabetic c = true ∧ ∀ part ∈ rest, isIdentifierPart part = true

/-- The names that are read as one identifier: they have the form of an identifier, and no reserved
word stands at their start. -/
structure IsIdentifier (name : String) : Prop where
  letterFirst : IsLetterFirst name.toList
  unreserved : ∀ word ∈ reservedWords, ¬ word.toList <+: name.toList

/-- Whether a text is a letter, and letters and numerals after it, can be computed. -/
instance decidableIsLetterFirst : (text : List Char) → Decidable (IsLetterFirst text)
  | [] => .isFalse id
  | c :: rest =>
    decidable_of_iff (Text.isAlphabetic c = true ∧ rest.all isIdentifierPart = true)
      (and_congr_right' List.all_eq_true)

/-- Whether a name is read as one identifier can be computed. -/
instance decidableIsIdentifier (name : String) : Decidable (IsIdentifier name) :=
  decidable_of_iff
    (IsLetterFirst name.toList ∧ ∀ word ∈ reservedWords, ¬ word.toList <+: name.toList)
    ⟨fun h => ⟨h.1, h.2⟩, fun h => ⟨h.letterFirst, h.unreserved⟩⟩

/-- No reserved word is found exactly where none starts the text. -/
theorem reservedAt?_eq_none_iff {text : List Char} :
    reservedAt? text = none ↔ ∀ word ∈ reservedWords, ¬ word.toList <+: text := by
  rw [reservedAt?, List.find?_eq_none]
  refine forall₂_congr fun word _ => ?_
  rw [List.isPrefixOf_iff_prefix]

/-- Every character of a word is a letter or a numeral. -/
theorem IsLetterFirst.isIdentifierPart_of_mem {word : List Char} (h : IsLetterFirst word) {c : Char}
    (hc : c ∈ word) : isIdentifierPart c = true := by
  cases word with
  | nil => cases hc
  | cons first rest =>
      rcases List.mem_cons.1 hc with rfl | hrest
      · simp [isIdentifierPart, h.1]
      · exact h.2 c hrest

/-- Every character of an identifier is a letter or a numeral. -/
theorem IsIdentifier.isIdentifierPart_of_mem {name : String} (h : IsIdentifier name) {c : Char}
    (hc : c ∈ name.toList) : isIdentifierPart c = true :=
  h.letterFirst.isIdentifierPart_of_mem hc

namespace Token

/-- A token is spelled as its kind asks for. -/
def WellSpelled (token : Token) : Prop :=
  match token.kind with
  | .reserved => token.content ∈ reservedWords ∧ token.content ≠ commentMark
  | .identifier => IsIdentifier token.content
  | .number => token.content ≠ "" ∧ ∀ c ∈ token.content.toList, isDecimalDigit c = true
  | .endOfInput => False

/-- Whether a token is spelled as its kind asks for can be computed. -/
instance decidableWellSpelled : (token : Token) → Decidable token.WellSpelled
  | ⟨content, .reserved, _⟩ =>
    inferInstanceAs (Decidable (content ∈ reservedWords ∧ content ≠ commentMark))
  | ⟨content, .identifier, _⟩ => decidableIsIdentifier content
  | ⟨content, .number, _⟩ =>
    decidable_of_iff (content ≠ "" ∧ content.toList.all isDecimalDigit = true)
      (and_congr_right' List.all_eq_true)
  | ⟨_, .endOfInput, _⟩ => .isFalse id

/-- Well spelled tokens that stand on the given line or after it, in the order of their lines. -/
structure InOrder (line : Int) (words : List Token) : Prop where
  wellSpelled : ∀ token ∈ words, token.WellSpelled
  line_le : ∀ token ∈ words, line ≤ token.line
  ascending : words.Pairwise fun earlier later => earlier.line ≤ later.line

/-- A token list as a scan gives it: well spelled tokens from line 1 on in the order of their lines,
and the end of the input. -/
def Lexical (tokens : List Token) : Prop :=
  ∃ words, tokens = words ++ [endOfInput] ∧ InOrder 1 words

/-- The text between a token on the line `previous` and the next token on the line `line`: a space
on the same line, and line feeds up to a later one. -/
def gap (previous line : Int) : List Char :=
  if line = previous then [' '] else List.replicate (line - previous).toNat '\n'

/-- Tokens as a text that follows a token on the given line. -/
def layOutAfter : Int → List Token → List Char
  | _, [] => []
  | previous, token :: rest =>
    gap previous token.line ++ token.content.toList ++ layOutAfter token.line rest

/-- Tokens as a text: line feeds up to the line of each token, and a space between tokens on the
same line. -/
def layOut : List Token → String
  | [] => ""
  | token :: rest =>
    String.ofList
      (List.replicate (token.line - 1).toNat '\n' ++ token.content.toList ++
        layOutAfter token.line rest)

/-! ## Every scan is lexical -/

/-- Tokens in order from a line on are in order from every line before it on. -/
theorem InOrder.mono {line earlier : Int} {words : List Token} (h : InOrder line words)
    (hline : earlier ≤ line) : InOrder earlier words := by
  refine ⟨h.wellSpelled, fun token hmem => ?_, h.ascending⟩
  have hle := h.line_le token hmem
  omega

/-- A token before others is in order with them if they are from its line on. -/
theorem inOrder_cons {line : Int} {token : Token} {words : List Token} :
    InOrder line (token :: words) ↔
      token.WellSpelled ∧ line ≤ token.line ∧ InOrder token.line words := by
  constructor
  · rintro ⟨hspelled, hlines, hascending⟩
    obtain ⟨hfirst, hrest⟩ := List.pairwise_cons.1 hascending
    exact ⟨hspelled token (by simp), hlines token (by simp),
      fun other hmem => hspelled other (by simp [hmem]), hfirst, hrest⟩
  · rintro ⟨hspelled, hline, hwords⟩
    refine ⟨List.forall_mem_cons.2 ⟨hspelled, hwords.wellSpelled⟩,
      List.forall_mem_cons.2 ⟨hline, (hwords.mono hline).line_le⟩,
      List.pairwise_cons.2 ⟨hwords.line_le, hwords.ascending⟩⟩

/-- The identifier at the start of a text has the form of an identifier. -/
theorem isLetterFirst_identifierAt {text : List Char} (h : identifierAt text ≠ []) :
    IsLetterFirst (identifierAt text) := by
  cases text with
  | nil => exact absurd rfl h
  | cons c rest =>
      rw [identifierAt] at h ⊢
      split_ifs at h ⊢ with hc
      · exact ⟨hc, fun part hpart => List.mem_takeWhile_imp hpart⟩
      · exact h rfl

/-- The word at the start of a text is spelled as its kind asks for. -/
theorem wellSpelled_of_lexemeAt? {text content : List Char} {kind : TokenKind}
    (h : lexemeAt? text = some (.word content kind)) (line : Int) :
    WellSpelled ⟨String.ofList content, kind, line⟩ := by
  have hne := content_ne_nil_of_lexemeAt? h
  rcases lexemeAt?_word_cases h with ⟨word, hword, hcomment, rfl, rfl⟩ | ⟨hword, rfl, rfl⟩ |
    ⟨-, -, rfl, rfl⟩
  · rw [String.ofList_toList]
    exact ⟨(reservedAt?_eq_some hword).1, hcomment⟩
  · refine ⟨?_, fun word hmem hstarts => ?_⟩
    · rw [String.toList_ofList]
      exact isLetterFirst_identifierAt hne
    · rw [String.toList_ofList] at hstarts
      exact reservedAt?_eq_none_iff.1 hword word hmem
        (hstarts.trans (identifierAt_isPrefix text))
  · refine ⟨fun hempty => hne ?_, fun c hc => ?_⟩
    · simpa using congrArg String.toList hempty
    · rw [String.toList_ofList] at hc
      exact List.mem_takeWhile_imp hc

/-- The tokens of a text are in order from its line on, and the end of the input follows them. -/
theorem inOrder_of_scanFrom {line : Int} {text : List Char} {tokens : List Token}
    (h : scanFrom line text = .ok tokens) :
    ∃ words, tokens = words ++ [endOfInput] ∧ InOrder line words := by
  fun_induction scanFrom line text generalizing tokens with
  | case1 line =>
      cases h
      exact ⟨[], rfl, by simp, by simp, .nil⟩
  | case2 line c rest hlayout ih =>
      obtain ⟨words, rfl, hwords⟩ := ih h
      exact ⟨words, rfl, hwords.mono (by omega)⟩
  | case3 line c rest hlayout hlexeme => cases h
  | case4 line c rest hlayout hlexeme ih => exact ih h
  | case5 line c rest hlayout content kind hlexeme ih =>
      cases hrest : scanFrom line ((c :: rest).drop content.length) with
      | error error => simp [hrest, Except.map] at h
      | ok more =>
          obtain ⟨words, rfl, hwords⟩ := ih hrest
          rw [hrest] at h
          cases h
          exact ⟨_ :: words, rfl,
            inOrder_cons.2 ⟨wellSpelled_of_lexemeAt? hlexeme line, le_refl line, hwords⟩⟩

/-- Every scan is lexical. -/
theorem lexical_of_scan {text : String} {tokens : List Token} (h : scan text = .ok tokens) :
    Lexical tokens :=
  inOrder_of_scanFrom h

end Token

/-! ## Tokens end at layout -/

/-- A text before which a token ends: it is empty or starts with layout. -/
def EndsWord (rest : List Char) : Prop :=
  ∀ c ∈ rest.head?, isLayout c = true

/-- No blank is a letter or a numeral. -/
theorem isIdentifierPart_of_isBlank {c : Char} (h : Text.isBlank c = true) :
    isIdentifierPart c = false := by
  have hcodes : ∀ range ∈ Text.blankRanges.ranges,
      ∀ code ∈ List.range' range.1 (range.2 - range.1 + 1),
      Text.alphabeticRanges.includesCode code = false ∧
        Text.numeralRanges.includesCode code = false := by
    decide +kernel
  obtain ⟨range, hrange, hfirst, hlast⟩ := (Text.blankRanges.includes_eq_true_iff c).1 h
  have hcode := hcodes range hrange c.toNat (List.mem_range'_1.2 (by omega))
  simp [isIdentifierPart, Text.isAlphabetic, Text.isNumeral, Text.RangeSet.includes, hcode]

/-- No layout is a letter or a numeral. -/
theorem isIdentifierPart_of_isLayout {c : Char} (h : isLayout c = true) :
    isIdentifierPart c = false := by
  rcases Bool.or_eq_true_iff.1 h with hbreak | hblank
  · exact (not_word_of_isLineBreak hbreak).1
  · exact isIdentifierPart_of_isBlank hblank

/-- The code point of a digit. -/
theorem toNat_of_isDecimalDigit {c : Char} (h : isDecimalDigit c = true) :
    0x30 ≤ c.toNat ∧ c.toNat ≤ 0x39 := by
  simp only [isDecimalDigit, Bool.and_eq_true, decide_eq_true_eq] at h
  exact h

/-- Every digit is a numeral. -/
theorem isIdentifierPart_of_isDecimalDigit {c : Char} (h : isDecimalDigit c = true) :
    isIdentifierPart c = true := by
  have hnumeral : Text.isNumeral c = true :=
    (Text.numeralRanges.includes_eq_true_iff c).2
      ⟨(0x30, 0x39), List.mem_cons_self, toNat_of_isDecimalDigit h⟩
  rw [isIdentifierPart, hnumeral, Bool.or_true]

/-- No digit is a letter. -/
theorem isAlphabetic_of_isDecimalDigit {c : Char} (h : isDecimalDigit c = true) :
    Text.isAlphabetic c = false := by
  have hcodes : ∀ code < 0x40, Text.alphabeticRanges.includesCode code = false := by
    decide
  have hlast := (toNat_of_isDecimalDigit h).2
  exact hcodes c.toNat (by omega)

/-- No reserved word holds layout. -/
theorem reservedWords_not_layout :
    ∀ word ∈ reservedWords, ∀ c ∈ word.toList, isLayout c = false := by
  have hall : reservedWords.all (fun word => word.toList.all fun c => !isLayout c) = true := by
    decide
  simpa only [List.all_eq_true, Bool.not_eq_true'] using hall

/-- A word at the start of two texts ends within the first one, or it reaches into the second. -/
theorem isPrefix_append_cases {word content rest : List Char} (h : word <+: content ++ rest) :
    word <+: content ∨ content <+: word ∧ ∃ c ∈ rest.head?, c ∈ word := by
  rcases List.prefix_or_prefix_of_prefix h (List.prefix_append content rest) with hshort | hlong
  · exact .inl hshort
  · obtain ⟨more, rfl⟩ := hlong
    have hmore : more <+: rest := (List.prefix_append_right_inj content).1 h
    cases more with
    | nil => exact .inl (by simp)
    | cons c more =>
        obtain ⟨after, rfl⟩ := hmore
        exact .inr ⟨List.prefix_append _ _, c, rfl, by simp⟩

/-- A word without layout that starts a text starts what stands before the first layout. -/
theorem isPrefix_append_iff {word content rest : List Char}
    (hword : ∀ c ∈ word, isLayout c = false) (hrest : EndsWord rest) :
    word <+: content ++ rest ↔ word <+: content := by
  constructor
  · intro h
    rcases isPrefix_append_cases h with hshort | ⟨-, c, hc, hmem⟩
    · exact hshort
    · have hlayout := hword c hmem
      rw [hrest c hc] at hlayout
      cases hlayout
  · intro h
    exact h.trans (List.prefix_append content rest)

/-- A run of characters that are no layout ends before layout. -/
theorem takeWhile_append_of_endsWord {p : Char → Bool}
    (hp : ∀ c, isLayout c = true → p c = false) (content : List Char) {rest : List Char}
    (hrest : EndsWord rest) : (content ++ rest).takeWhile p = content.takeWhile p := by
  induction content with
  | nil =>
      cases rest with
      | nil => rfl
      | cons c rest =>
          rw [List.nil_append, List.takeWhile_nil, List.takeWhile_cons_of_neg]
          simp [hp c (hrest c rfl)]
  | cons c content ih =>
      cases hc : p c with
      | true => simp [hc, ih]
      | false => simp [hc]

/-- The lexeme at the start of a text depends only on what stands before layout. -/
theorem lexemeAt?_append (content : List Char) {rest : List Char} (hrest : EndsWord rest) :
    lexemeAt? (content ++ rest) = lexemeAt? content := by
  have hreserved : reservedAt? (content ++ rest) = reservedAt? content := by
    refine List.find?_congr fun word hmem => ?_
    rw [Bool.eq_iff_iff, List.isPrefixOf_iff_prefix, List.isPrefixOf_iff_prefix]
    exact isPrefix_append_iff (reservedWords_not_layout word hmem) hrest
  have hidentifier : identifierAt (content ++ rest) = identifierAt content := by
    cases content with
    | nil =>
        cases rest with
        | nil => rfl
        | cons c rest =>
            have hpart := isIdentifierPart_of_isLayout (hrest c rfl)
            have hletter : Text.isAlphabetic c = false := (Bool.or_eq_false_iff.1 hpart).1
            simp [identifierAt, hletter]
    | cons c content =>
        rw [List.cons_append, identifierAt, identifierAt,
          takeWhile_append_of_endsWord (fun _ => isIdentifierPart_of_isLayout) content hrest]
  have hdigits : digitsAt (content ++ rest) = digitsAt content := by
    refine takeWhile_append_of_endsWord (fun c hc => Bool.eq_false_iff.2 fun hdigit => ?_) content
      hrest
    have hpart := isIdentifierPart_of_isDecimalDigit hdigit
    rw [isIdentifierPart_of_isLayout hc] at hpart
    cases hpart
  rw [lexemeAt?, lexemeAt?, hreserved, hidentifier, hdigits]

/-- No reserved word starts another one. -/
theorem eq_of_isPrefix_reserved : ∀ word ∈ reservedWords, ∀ other ∈ reservedWords,
    word.toList <+: other.toList → word = other := by
  decide

/-- No reserved word starts with a digit. -/
theorem reservedWords_not_digit :
    ∀ word ∈ reservedWords, ∀ c ∈ word.toList.head?, isDecimalDigit c = false := by
  have hall : reservedWords.all (fun word => word.toList.head?.all fun c => !isDecimalDigit c) =
      true := by
    decide
  simpa only [List.all_eq_true, Option.all_eq_true, Bool.not_eq_true', Option.mem_def] using hall

/-- A reserved word at the start of a text is the one that is found there, whatever follows it. -/
theorem reservedAt?_append {word : String} (h : word ∈ reservedWords) (rest : List Char) :
    reservedAt? (word.toList ++ rest) = some word := by
  have hword : word.toList <+: word.toList ++ rest := List.prefix_append _ _
  cases hfound : reservedAt? (word.toList ++ rest) with
  | none => exact absurd hword (reservedAt?_eq_none_iff.1 hfound word h)
  | some other =>
      obtain ⟨hmem, hstarts⟩ := reservedAt?_eq_some hfound
      -- Of two words at the same start one would start the other.
      rcases List.prefix_or_prefix_of_prefix hstarts hword with hshort | hlong
      · rw [eq_of_isPrefix_reserved other hmem word h hshort]
      · rw [eq_of_isPrefix_reserved word h other hmem hlong]

/-- A reserved word is the one at its own start. -/
theorem reservedAt?_reserved {word : String} (h : word ∈ reservedWords) :
    reservedAt? word.toList = some word := by
  have hword := reservedAt?_append h []
  rwa [List.append_nil] at hword

/-- No reserved word stands at a digit: it would have the digit as its first character. -/
theorem reservedAt?_of_isDecimalDigit {c : Char} (h : isDecimalDigit c = true)
    (rest : List Char) : reservedAt? (c :: rest) = none := by
  refine reservedAt?_eq_none_iff.2 fun word hmem hstarts => ?_
  cases hword : word.toList with
  | nil => exact reservedWords_ne_nil word hmem hword
  | cons first more =>
      rw [hword] at hstarts
      obtain rfl : first = c := (List.cons_prefix_cons.1 hstarts).1
      have hnot := reservedWords_not_digit word hmem first (by simp [hword])
      rw [h] at hnot
      cases hnot

/-- An identifier is the lexeme at its own start. -/
theorem IsIdentifier.lexemeAt?_eq {name : String} (h : IsIdentifier name) :
    lexemeAt? name.toList = some (.word name.toList .identifier) := by
  have hform := h.letterFirst
  rw [lexemeAt?, reservedAt?_eq_none_iff.2 h.unreserved]
  cases hname : name.toList with
  | nil =>
      rw [hname] at hform
      exact hform.elim
  | cons c rest =>
      rw [hname] at hform
      simp [identifierAt, hform.1, List.takeWhile_eq_self_iff.2 hform.2]

/-- Digits are the lexeme at their own start. -/
theorem lexemeAt?_digits {c : Char} {rest : List Char}
    (h : ∀ digit ∈ c :: rest, isDecimalDigit digit = true) :
    lexemeAt? (c :: rest) = some (.word (c :: rest) .number) := by
  have hfirst : isDecimalDigit c = true := h c (by simp)
  have hall : digitsAt (c :: rest) = c :: rest := List.takeWhile_eq_self_iff.2 h
  have hidentifier : identifierAt (c :: rest) = [] := by
    simp [identifierAt, isAlphabetic_of_isDecimalDigit hfirst]
  rw [lexemeAt?, reservedAt?_of_isDecimalDigit hfirst, hidentifier, hall]

namespace Token

/-! ## Every lexical token list is scanned -/

/-- A well spelled token is the lexeme at its own start. -/
theorem WellSpelled.lexemeAt?_content {token : Token} (h : token.WellSpelled) :
    lexemeAt? token.content.toList = some (.word token.content.toList token.kind) := by
  obtain ⟨content, kind, line⟩ := token
  cases kind with
  | reserved =>
      obtain ⟨hmem, hcomment⟩ : content ∈ reservedWords ∧ content ≠ commentMark := h
      simp [lexemeAt?, reservedAt?_reserved hmem, hcomment]
  | identifier =>
      have hname : IsIdentifier content := h
      exact hname.lexemeAt?_eq
  | number =>
      obtain ⟨hne, hdigits⟩ :
        content ≠ "" ∧ ∀ c ∈ content.toList, isDecimalDigit c = true := h
      show lexemeAt? content.toList = some (.word content.toList .number)
      cases hcontent : content.toList with
      | nil => exact absurd (String.toList_eq_nil_iff.1 hcontent) hne
      | cons c rest =>
          rw [hcontent] at hdigits
          exact lexemeAt?_digits hdigits
  | endOfInput => exact h.elim

/-- The first character of a well spelled token is no layout. -/
theorem WellSpelled.isLayout_of_head {token : Token} (h : token.WellSpelled) {c : Char}
    {rest : List Char} (hcontent : token.content.toList = c :: rest) : isLayout c = false := by
  refine Bool.eq_false_iff.2 fun hlayout => ?_
  -- Nothing stands before the layout, and no lexeme is found there.
  have hends : EndsWord (c :: rest) := fun first hfirst => by
    obtain rfl : c = first := Option.some.inj hfirst
    exact hlayout
  have hlexeme := lexemeAt?_append [] hends
  rw [List.nil_append, ← hcontent, h.lexemeAt?_content] at hlexeme
  cases hlexeme

/-- Where a well spelled token is the lexeme at the start of a text, it is scanned as itself. -/
theorem WellSpelled.scanFrom_of_lexemeAt? {token : Token} (h : token.WellSpelled)
    {rest : List Char}
    (hlexeme : lexemeAt? (token.content.toList ++ rest) =
      some (.word token.content.toList token.kind)) :
    scanFrom token.line (token.content.toList ++ rest) =
      (scanFrom token.line rest).map (token :: ·) := by
  cases hcontent : token.content.toList with
  | nil =>
      rw [hcontent, List.nil_append] at hlexeme
      exact absurd rfl (content_ne_nil_of_lexemeAt? hlexeme)
  | cons c more =>
      have hlayout := h.isLayout_of_head hcontent
      have hself : (⟨String.ofList (c :: more), token.kind, token.line⟩ : Token) = token := by
        rw [← hcontent, String.ofList_toList]
      rw [hcontent] at hlexeme
      rw [List.cons_append] at hlexeme ⊢
      rw [scanFrom, if_neg (by simp [hlayout])]
      split
      · next hnone => simp [hnone] at hlexeme
      · next hcomment => simp [hcomment] at hlexeme
      · next content kind hword =>
        obtain ⟨rfl, rfl⟩ : content = c :: more ∧ kind = token.kind := by
          simpa [hword] using hlexeme
        rw [← List.cons_append, List.drop_left, hself]

/-- Where layout follows, a well spelled token is scanned as itself. -/
theorem WellSpelled.scanFrom_append {token : Token} (h : token.WellSpelled) {rest : List Char}
    (hrest : EndsWord rest) :
    scanFrom token.line (token.content.toList ++ rest) =
      (scanFrom token.line rest).map (token :: ·) := by
  refine h.scanFrom_of_lexemeAt? ?_
  rw [lexemeAt?_append token.content.toList hrest]
  exact h.lexemeAt?_content

/-- Layout before a text only moves it down. -/
theorem scanFrom_cons_layout {c : Char} (h : isLayout c = true) (line : Int) (rest : List Char) :
    scanFrom line (c :: rest) = scanFrom (line + Text.breaksAt c rest) rest := by
  rw [scanFrom, if_pos h]

/-- Line feeds before a text move it down by their number. -/
theorem scanFrom_replicate (line : Int) (count : Nat) (rest : List Char) :
    scanFrom line (List.replicate count '\n' ++ rest) = scanFrom (line + count) rest := by
  induction count generalizing line with
  | zero => simp
  | succ count ih =>
      have hbreak : Text.breaksAt '\n' (List.replicate count '\n' ++ rest) = 1 := rfl
      rw [List.replicate_succ, List.cons_append, scanFrom_cons_layout rfl, hbreak, ih]
      congr 1
      omega

/-- The text between two tokens leads from the line of the first to the line of the second. -/
theorem scanFrom_gap {previous line : Int} (h : previous ≤ line) (rest : List Char) :
    scanFrom previous (gap previous line ++ rest) = scanFrom line rest := by
  unfold gap
  split
  · next hsame =>
    subst hsame
    rw [List.cons_append, List.nil_append, scanFrom_cons_layout rfl]
    show scanFrom (line + 0) rest = _
    rw [Int.add_zero]
  · rw [scanFrom_replicate]
    congr 1
    omega

/-- The text between two tokens ends the first one. -/
theorem endsWord_gap_append {previous line : Int} (h : previous ≤ line) (rest : List Char) :
    EndsWord (gap previous line ++ rest) := by
  intro c hc
  unfold gap at hc
  split at hc
  · obtain rfl : ' ' = c := Option.some.inj hc
    rfl
  · next hne =>
    obtain ⟨count, hcount⟩ : ∃ count, (line - previous).toNat = count + 1 :=
      Nat.exists_eq_succ_of_ne_zero (by omega)
    rw [hcount, List.replicate_succ] at hc
    obtain rfl : '\n' = c := Option.some.inj hc
    rfl

/-- The end of the input adds nothing to a text. -/
theorem layOutAfter_endOfInput {line : Int} (h : 1 ≤ line) :
    layOutAfter line [endOfInput] = [] := by
  have hne : endOfInput.line ≠ line := by
    show (-1 : Int) ≠ line
    omega
  have hcount : (endOfInput.line - line).toNat = 0 := by
    show (-1 - line).toNat = 0
    omega
  rw [layOutAfter, layOutAfter, gap, if_neg hne, hcount]
  rfl

/-- What is laid out after a token ends it. -/
theorem endsWord_layOutAfter {line : Int} {words : List Token} (hline : 1 ≤ line)
    (h : InOrder line words) : EndsWord (layOutAfter line (words ++ [endOfInput])) := by
  cases words with
  | nil =>
      rw [List.nil_append, layOutAfter_endOfInput hline]
      intro c hc
      cases hc
  | cons token rest =>
      rw [List.cons_append, layOutAfter, List.append_assoc]
      exact endsWord_gap_append (inOrder_cons.1 h).2.1 _

/-- Tokens in order that are laid out after a line are scanned as they are. -/
theorem scanFrom_layOutAfter {line : Int} {words : List Token} (hline : 1 ≤ line)
    (h : InOrder line words) :
    scanFrom line (layOutAfter line (words ++ [endOfInput])) = .ok (words ++ [endOfInput]) := by
  induction words generalizing line with
  | nil =>
      rw [List.nil_append, layOutAfter_endOfInput hline, scanFrom]
  | cons token rest ih =>
      obtain ⟨hspelled, hle, hrest⟩ := inOrder_cons.1 h
      have htoken : 1 ≤ token.line := by omega
      rw [List.cons_append, layOutAfter, List.append_assoc, scanFrom_gap hle,
        hspelled.scanFrom_append (endsWord_layOutAfter htoken hrest), ih htoken hrest]
      rfl

/-- Every lexical token list is the scan of its text. -/
theorem scan_layOut {tokens : List Token} (h : Lexical tokens) :
    scan (layOut tokens) = .ok tokens := by
  obtain ⟨words, rfl, hwords⟩ := h
  cases words with
  | nil =>
      rw [scan]
      show scanFrom 1 (String.ofList []).toList = _
      rw [String.toList_ofList, scanFrom]
      rfl
  | cons token rest =>
      obtain ⟨hspelled, hle, hrest⟩ := inOrder_cons.1 hwords
      have hline : 1 + ((token.line - 1).toNat : Int) = token.line := by omega
      rw [scan, List.cons_append, layOut, String.toList_ofList, List.append_assoc,
        scanFrom_replicate, hline, hspelled.scanFrom_append (endsWord_layOutAfter hle hrest),
        scanFrom_layOutAfter hle hrest]
      rfl

end Token

/-! ## The main result -/

/-- The tokens of a text are those that the scan gives. -/
theorem tokenize_eq_ok_iff {text : String} {tokens : List Token} :
    (tokenize text).result = .ok tokens ↔ Token.scan text = .ok tokens := by
  unfold tokenize
  cases Token.scan text with
  | error error => simp [Logged.ofExcept]
  | ok found => simp [Logged.report]

/-- The token lists that texts are split into are exactly the lexical ones: every text that is split
gives a lexical list, and every lexical list is what its own text is split into. So the tokens of a
text, written again and split again, are the same. -/
theorem tokenize_image_is_lexical :
    (∀ (text : String) (tokens : List Token),
      (tokenize text).result = .ok tokens → Token.Lexical tokens) ∧
    (∀ tokens : List Token, Token.Lexical tokens →
      (tokenize (Token.layOut tokens)).result = .ok tokens) ∧
    (∀ (text : String) (tokens : List Token), (tokenize text).result = .ok tokens →
      (tokenize (Token.layOut tokens)).result = .ok tokens) := by
  have hlexical (text : String) (tokens : List Token)
      (h : (tokenize text).result = .ok tokens) : Token.Lexical tokens :=
    Token.lexical_of_scan (tokenize_eq_ok_iff.1 h)
  have hlayOut (tokens : List Token) (h : Token.Lexical tokens) :
      (tokenize (Token.layOut tokens)).result = .ok tokens :=
    tokenize_eq_ok_iff.2 (Token.scan_layOut h)
  exact ⟨hlexical, hlayOut, fun text tokens h => hlayOut tokens (hlexical text tokens h)⟩

/-- Tokens that touch each other in a text: reserved words before names, and a number before a
name. -/
def touchingTokens : List Token :=
  [⟨"message", .reserved, 1⟩, ⟨"s", .identifier, 1⟩, ⟨"string", .reserved, 1⟩,
   ⟨"y", .identifier, 1⟩, ⟨"0042", .number, 3⟩, ⟨"é२", .identifier, 3⟩, .endOfInput]

/-- Tokens that touch each other are written apart and read again. -/
theorem touchingTokens_read_again :
    Token.Lexical touchingTokens ∧
    (tokenize (Token.layOut touchingTokens)).result = .ok touchingTokens ∧
    Token.layOut touchingTokens = "message s string y\n\n0042 é२" := by
  have hlexical : Token.Lexical touchingTokens :=
    ⟨touchingTokens.dropLast, rfl, by decide, by decide, by decide⟩
  exact ⟨hlexical, tokenize_image_is_lexical.2.1 touchingTokens hlexical, by decide⟩

end SchemaCompiler
