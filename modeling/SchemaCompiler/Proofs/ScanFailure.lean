import SchemaCompiler.Proofs.ErrorPlace
import SchemaCompiler.Proofs.Segmentation

/-!
# Where a scan fails

A scan fails at the first place where neither layout nor a comment nor a token can be read.
`scan_fails_at_first_stop` describes this place without the scanner: what stands before it is
scanned and leaves no comment open, and what stands after it starts with a character that starts
nothing and does not go on with an identifier (`StopsBetween`). There is at most one such place.

What stands before a place is segmented there as it is on its own. Nothing is lost when the rest of
the text is cut off (`Segments.of_append`), and nothing changes when a text that starts nothing
is added (`Segments.append`). The second part needs that no reserved word grows out of an identifier
and that the last gap leaves no comment open.
-/

namespace SchemaCompiler

/-- A comment mark stands on the last line of a text. A text that is scanned ends inside a comment
exactly then, since no token holds a slash. -/
def EndsInComment (text : List Char) : Prop :=
  ∃ start body, text = start ++ commentMark.toList ++ body ∧
    ∀ c ∈ body, Text.isLineBreak c = false

/-- The last token of a text is an identifier, and its characters end the text. -/
def EndsInIdentifier (text : String) : Prop :=
  ∃ words name line,
    (tokenize text).result = .ok (words ++ [⟨name, .identifier, line⟩, .endOfInput]) ∧
      name.toList <:+ text.toList

/-- The reserved words of one character. -/
def signs : List Char :=
  ['\x7b', '\x7d', ';', '=']

/-- A scan stops between two texts. The first one is scanned, and no comment is open at its end. The
second one does not start with a comment. It has a first character, which is no layout and starts no
token, and which does not go on with an identifier if it is a numeral. -/
structure StopsBetween (before after : String) : Prop where
  scanned : ∃ tokens, (tokenize before).result = .ok tokens
  closed : ¬ EndsInComment before.toList
  uncommented : ¬ commentMark.toList <+: after.toList
  first : ∃ c ∈ after.toList.head?, Text.isBlank c = false ∧ Text.isLineBreak c = false ∧
    Text.isAlphabetic c = false ∧ isDecimalDigit c = false ∧ c ∉ signs ∧
    ¬ (Text.isNumeral c = true ∧ EndsInIdentifier before)

/-! ## Characters that start nothing -/

/-- A reserved word is the comment mark, a sign, or starts with a letter. -/
theorem reservedWords_cases : ∀ word ∈ reservedWords,
    word = commentMark ∨ (∃ c ∈ signs, word.toList = [c]) ∨
      ∀ c ∈ word.toList.head?, Text.isAlphabetic c = true := by
  have hall : reservedWords.all (fun word => word == commentMark ||
      (signs.any (word.toList == [·]) || word.toList.head?.all Text.isAlphabetic)) = true := by
    decide
  simpa only [List.all_eq_true, Bool.or_eq_true, beq_iff_eq, List.any_eq_true,
    Option.all_eq_true, Option.mem_def] using hall

/-- Every sign is a reserved word. -/
theorem exists_reserved_of_mem_signs : ∀ c ∈ signs, ∃ word ∈ reservedWords, word.toList = [c] := by
  have hall : signs.all (fun c => reservedWords.any (·.toList == [c])) = true := by
    decide
  simpa only [List.all_eq_true, List.any_eq_true, beq_iff_eq] using hall

/-- A reserved word that starts with a letter consists of letters and digits. -/
theorem reservedWords_letters : ∀ word ∈ reservedWords,
    (∀ c ∈ word.toList.head?, Text.isAlphabetic c = true) →
      ∀ c ∈ word.toList, Text.isAlphabetic c = true ∨ isDecimalDigit c = true := by
  have hall : reservedWords.all (fun word => !word.toList.head?.all Text.isAlphabetic ||
      word.toList.all fun c => Text.isAlphabetic c || isDecimalDigit c) = true := by
    decide
  intro word hmem hfirst
  have hword := List.all_eq_true.1 hall word hmem
  rw [(Option.all_eq_true _ _).2 hfirst] at hword
  simpa only [Bool.not_true, Bool.false_or, List.all_eq_true, Bool.or_eq_true] using hword

/-- No lexeme starts a text when none of the three readings applies. -/
theorem lexemeAt?_eq_none_iff {text : List Char} :
    lexemeAt? text = none ↔
      reservedAt? text = none ∧ identifierAt text = [] ∧ digitsAt text = [] := by
  unfold lexemeAt?
  cases reservedAt? text with
  | some word => simp
  | none =>
      cases identifierAt text with
      | cons c rest => simp
      | nil => cases digitsAt text <;> simp

/-- A text starts with no lexeme exactly when its first character is no letter, no digit and no sign
and it does not start with a comment mark. -/
theorem lexemeAt?_cons_eq_none_iff {c : Char} {rest : List Char} :
    lexemeAt? (c :: rest) = none ↔
      Text.isAlphabetic c = false ∧ isDecimalDigit c = false ∧ c ∉ signs ∧
        ¬ commentMark.toList <+: c :: rest := by
  have hidentifier : identifierAt (c :: rest) = [] ↔ Text.isAlphabetic c = false := by
    simp [identifierAt]
  have hdigits : digitsAt (c :: rest) = [] ↔ isDecimalDigit c = false := by
    cases hc : isDecimalDigit c <;> simp [digitsAt, hc]
  rw [lexemeAt?_eq_none_iff, hidentifier, hdigits, reservedAt?_eq_none_iff]
  constructor
  · rintro ⟨hreserved, hletter, hdigit⟩
    refine ⟨hletter, hdigit, fun hsign => ?_, hreserved commentMark (by decide)⟩
    obtain ⟨word, hmem, hword⟩ := exists_reserved_of_mem_signs c hsign
    exact hreserved word hmem (hword ▸ List.prefix_append [c] rest)
  · rintro ⟨hletter, hdigit, hsign, hcomment⟩
    refine ⟨fun word hmem hstarts => ?_, hletter, hdigit⟩
    cases hword : word.toList with
    | nil => exact reservedWords_ne_nil word hmem hword
    | cons first more =>
        obtain rfl : first = c := (List.cons_prefix_cons.1 (hword ▸ hstarts)).1
        rcases reservedWords_cases word hmem with rfl | ⟨sign, hmem, heq⟩ | hfirst
        · exact hcomment hstarts
        · obtain ⟨rfl, -⟩ := List.cons.inj (hword.symm.trans heq)
          exact hsign hmem
        · rw [hfirst first (by simp [hword])] at hletter
          cases hletter

/-! ## Cutting off what follows -/

/-- Where a gap is one depends only on whether a line ends after it. -/
theorem IsGap.mono {gap after other : List Char} (h : IsGap after gap)
    (hends : Text.EndsLine after → Text.EndsLine other) : IsGap other gap := by
  induction h with
  | nil => exact .nil
  | layout hc hgap ih => exact .layout hc ih
  | @comment body gap hbody hline hgap ih =>
      refine .comment hbody ?_ ih
      cases gap with
      | nil => exact hends hline
      | cons c more => exact hline

/-- A token that can stand before a text can stand before its start. -/
theorem Token.Fits.of_append {token : Token} {after more : List Char}
    (h : token.Fits (after ++ more)) : token.Fits after := by
  have hhead {c : Char} (hc : c ∈ after.head?) : c ∈ (after ++ more).head? := by
    obtain ⟨rest, rfl⟩ := List.head?_eq_some_iff.1 hc
    rfl
  obtain ⟨content, kind, line⟩ := token
  cases kind with
  | reserved => exact h
  | identifier =>
      refine ⟨fun word hmem hstarts => h.1 word hmem ?_, h.2.1, fun c hc => h.2.2 c (hhead hc)⟩
      rw [← List.append_assoc]
      exact hstarts.trans (List.prefix_append _ _)
  | number => exact ⟨h.1, h.2.1, fun c hc => h.2.2 c (hhead hc)⟩
  | endOfInput => exact h

/-- No line ends before a character that is no line break. -/
theorem Text.not_endsLine_cons {c : Char} (h : Text.isLineBreak c = false) (rest : List Char) :
    ¬ Text.EndsLine (c :: rest) := by
  intro hends
  rw [hends c rfl] at h
  cases h

/-- No line ends where a well spelled token stands. -/
theorem Token.WellSpelled.not_endsLine {token : Token} (h : token.WellSpelled)
    (after : List Char) : ¬ Text.EndsLine (token.content.toList ++ after) := by
  obtain ⟨c, rest, hcontent⟩ := List.exists_cons_of_ne_nil h.content_ne_nil
  rw [hcontent]
  exact Text.not_endsLine_cons (h.not_break c (by simp [hcontent])) (rest ++ after)

/-- What is segmented before a text is segmented on its own. -/
theorem Segments.of_append {line : Int} {pieces : List Piece} {last after : List Char}
    (h : Segments line pieces last after) : Segments line pieces last [] := by
  refine ⟨fun done piece rest hpieces => ?_, h.last.mono fun _ c hc => by cases hc⟩
  obtain ⟨hgap, hfits, hline⟩ := h.pieces done piece rest hpieces
  rw [← List.append_assoc] at hfits
  refine ⟨hgap.mono fun hends => ?_, ?_, hline⟩
  · exact absurd hends (hfits.wellSpelled.not_endsLine _)
  · rw [List.append_nil]
    exact hfits.of_append

/-! ## Comments end before a stop -/

/-- Every slash of a text is followed by a line break. -/
def ClosesComments (text : List Char) : Prop :=
  ∀ start rest, text = start ++ '/' :: rest → ∃ c ∈ rest, Text.isLineBreak c = true

/-- A text that closes its comments does not end inside one. -/
theorem ClosesComments.not_endsInComment {text : List Char} (h : ClosesComments text) :
    ¬ EndsInComment text := by
  rintro ⟨start, body, rfl, hbody⟩
  have hmark : commentMark.toList = ['/'] ++ ['/'] := rfl
  obtain ⟨c, hc, hbreak⟩ := h (start ++ ['/']) body (by simp [hmark])
  rw [hbody c hc] at hbreak
  cases hbreak

/-- A text without slashes has no comments to close. -/
theorem closesComments_of_notMem {text : List Char} (h : '/' ∉ text) : ClosesComments text := by
  rintro start rest rfl
  simp at h

/-- Two texts close their comments together if the second one does, and the first one does or the
second one has a line break. -/
theorem ClosesComments.append {first second : List Char} (hsecond : ClosesComments second)
    (hfirst : ClosesComments first ∨ ∃ c ∈ second, Text.isLineBreak c = true) :
    ClosesComments (first ++ second) := by
  intro start rest heq
  rcases List.append_eq_append_iff.1 heq with ⟨middle, -, hsplit⟩ | ⟨middle, hsplit, hrest⟩
  · exact hsecond middle rest hsplit
  · cases middle with
    | nil => exact hsecond [] rest hrest.symm
    | cons slash middle =>
        obtain ⟨rfl, rfl⟩ := List.cons.inj hrest
        rcases hfirst with hfirst | ⟨c, hc, hbreak⟩
        · obtain ⟨c, hc, hbreak⟩ := hfirst start middle hsplit
          exact ⟨c, List.mem_append_left _ hc, hbreak⟩
        · exact ⟨c, List.mem_append_right _ hc, hbreak⟩

/-- A gap after which no line ends closes its comments. -/
theorem IsGap.closesComments {gap after : List Char} (h : IsGap after gap)
    (hafter : ¬ Text.EndsLine after) : ClosesComments gap := by
  induction h with
  | nil => exact closesComments_of_notMem (by simp)
  | @layout c gap hc hgap ih =>
      have hslash : '/' ∉ [c] := by
        rintro hmem
        obtain rfl := List.mem_singleton.1 hmem
        revert hc
        decide
      exact ih.append (.inl (closesComments_of_notMem hslash))
  | @comment body gap hbody hline hgap ih =>
      cases gap with
      | nil => exact absurd hline hafter
      | cons c more => exact ih.append (.inr ⟨c, by simp, hline c rfl⟩)

/-- A gap after which no line ends, and which is not empty, ends with layout. -/
theorem IsGap.isLayout_of_getLast? {gap after : List Char} (h : IsGap after gap)
    (hafter : ¬ Text.EndsLine after) {c : Char} (hc : gap.getLast? = some c) :
    isLayout c = true := by
  induction h with
  | nil => cases hc
  | @layout first gap hfirst hgap ih =>
      cases gap with
      | nil =>
          obtain rfl : first = c := Option.some.inj hc
          exact hfirst
      | cons next more => exact ih (by rwa [List.getLast?_cons_cons] at hc)
  | @comment body gap hbody hline hgap ih =>
      cases gap with
      | nil => exact absurd hline hafter
      | cons next more => exact ih (by rwa [List.getLast?_append_of_ne_nil _ (by simp)] at hc)

/-- No well spelled token holds a slash. -/
theorem Token.WellSpelled.slash_notMem {token : Token} (h : token.WellSpelled) :
    '/' ∉ token.content.toList := by
  obtain ⟨content, kind, line⟩ := token
  intro hslash
  cases kind with
  | reserved =>
      have hwords : ∀ word ∈ reservedWords, '/' ∈ word.toList → word = commentMark := by decide
      exact h.2 (hwords content h.1 hslash)
  | identifier =>
      have hpart := IsIdentifier.isIdentifierPart_of_mem h hslash
      revert hpart
      decide
  | number =>
      have hdigit := h.2 '/' hslash
      revert hdigit
      decide
  | endOfInput => exact h

/-- What is segmented before a text at which no line ends closes its comments. -/
theorem Segments.closesComments {line : Int} {pieces : List Piece} {last after : List Char}
    (h : Segments line pieces last after) (hafter : ¬ Text.EndsLine after) :
    ClosesComments (spelled pieces ++ last) := by
  induction pieces generalizing line with
  | nil => exact h.last.closesComments hafter
  | cons piece rest ih =>
      obtain ⟨hpiece, hrest⟩ := segments_cons.1 h
      have hspelled := hpiece.fits.wellSpelled
      have hgap := hpiece.gap.closesComments (hspelled.not_endsLine _)
      have hcontent := closesComments_of_notMem hspelled.slash_notMem
      rw [spelled, List.flatMap_cons, Piece.text, List.append_assoc, List.append_assoc]
      exact ((ih hrest).append (.inl hcontent)).append (.inl hgap)

/-! ## Adding what starts nothing -/

/-- A text that is added after another one ends inside a comment if it does. -/
theorem EndsInComment.append {text : List Char} (h : EndsInComment text) (more : List Char) :
    EndsInComment (more ++ text) := by
  obtain ⟨start, body, rfl, hbody⟩ := h
  exact ⟨more ++ start, body, by simp, hbody⟩

/-- A gap that leaves no comment open is one whatever follows. -/
theorem IsGap.of_closed {gap : List Char} (h : IsGap [] gap) (hclosed : ¬ EndsInComment gap)
    (after : List Char) : IsGap after gap := by
  induction h with
  | nil => exact .nil
  | @layout c gap hc hgap ih => exact .layout hc (ih fun hopen => hclosed (hopen.append [c]))
  | @comment body gap hbody hline hgap ih =>
      cases gap with
      | nil => exact absurd ⟨[], body, by simp, hbody⟩ hclosed
      | cons c more => exact .comment hbody hline (ih fun hopen => hclosed (hopen.append _))

/-- No reserved word grows out of an identifier when a text is added that starts neither with a
letter nor with a digit. -/
theorem not_reserved_append {content after more : List Char} (hform : IsLetterFirst content)
    (h : ∀ word ∈ reservedWords, ¬ word.toList <+: content ++ after)
    (hmore : ∀ c ∈ more.head?, Text.isAlphabetic c = false ∧ isDecimalDigit c = false) :
    ∀ word ∈ reservedWords, ¬ word.toList <+: content ++ (after ++ more) := by
  intro word hmem hstarts
  rw [← List.append_assoc] at hstarts
  rcases isPrefix_append_cases hstarts with hshort | ⟨hlong, c, hc, hchar⟩
  · exact h word hmem hshort
  · -- The word starts with a letter, so that it cannot reach into what is added.
    have hfirst : ∀ first ∈ word.toList.head?, Text.isAlphabetic first = true := by
      intro first hfirst
      cases content with
      | nil => exact hform.elim
      | cons letter parts =>
          obtain ⟨rest, hrest⟩ := hlong
          rw [← hrest] at hfirst
          obtain rfl : letter = first := Option.some.inj hfirst
          exact hform.1
    obtain ⟨hletter, hdigit⟩ := hmore c hc
    have hchars := reservedWords_letters word hmem hfirst c hchar
    simp [hletter, hdigit] at hchars

/-- A token that can stand before a text can stand before a longer one, if what is added starts
neither with a letter nor with a digit, nor goes on with the token as an identifier. -/
theorem Token.Fits.append {token : Token} {after more : List Char} (h : token.Fits after)
    (hmore : ∀ c ∈ more.head?, Text.isAlphabetic c = false ∧ isDecimalDigit c = false)
    (hnumeral : after = [] → token.kind = .identifier →
      ∀ c ∈ more.head?, Text.isNumeral c = false) :
    token.Fits (after ++ more) := by
  obtain ⟨content, kind, line⟩ := token
  cases kind with
  | reserved => exact h
  | identifier =>
      obtain ⟨hreserved, hform, hafter⟩ := h
      refine ⟨not_reserved_append hform hreserved hmore, hform, fun c hc => ?_⟩
      cases after with
      | nil => simp [isIdentifierPart, (hmore c hc).1, hnumeral rfl rfl c hc]
      | cons next rest => exact hafter c hc
  | number =>
      refine ⟨h.1, h.2.1, fun c hc => ?_⟩
      cases after with
      | nil => exact (hmore c hc).2
      | cons next rest => exact h.2.2 c hc
  | endOfInput => exact h

/-- Nothing stands in pieces without characters. -/
theorem Segments.eq_nil_of_spelled {line : Int} {pieces : List Piece} {last after : List Char}
    (h : Segments line pieces last after) (hnil : spelled pieces = []) : pieces = [] := by
  cases pieces with
  | nil => rfl
  | cons piece rest =>
      have hne := (segments_cons.1 h).1.fits.wellSpelled.content_ne_nil
      simp [spelled, Piece.text, hne] at hnil

/-- What follows a piece is segmented from the line of its token on. -/
theorem Segments.of_cons_append {line : Int} {done rest : List Piece} {piece : Piece}
    {last after : List Char} (h : Segments line (done ++ piece :: rest) last after) :
    Segments piece.token.line rest last after := by
  induction done generalizing line with
  | nil => exact (segments_cons.1 h).2
  | cons first done ih => exact ih (segments_cons.1 h).2

/-- What is segmented on its own is segmented before a text that starts nothing, if it leaves no
comment open and the text does not go on with an identifier at its end. -/
theorem Segments.append {line : Int} {pieces : List Piece} {last after : List Char}
    (h : Segments line pieces last []) (hclosed : ¬ EndsInComment (spelled pieces ++ last))
    (hafter : ∀ c ∈ after.head?, Text.isAlphabetic c = false ∧ isDecimalDigit c = false)
    (hnumeral : ∀ done piece, pieces = done ++ [piece] → last = [] →
      piece.token.kind = .identifier → ∀ c ∈ after.head?, Text.isNumeral c = false) :
    Segments line pieces last after := by
  have hopen : ¬ EndsInComment last := fun hopen => hclosed (hopen.append _)
  refine ⟨fun done piece rest hpieces => ?_, h.last.of_closed hopen after⟩
  obtain ⟨hgap, hfits, hline⟩ := h.pieces done piece rest hpieces
  refine ⟨hgap.mono fun hends => ?_, ?_, hline⟩
  · exact absurd hends (hfits.wellSpelled.not_endsLine _)
  · rw [← List.append_assoc]
    rw [List.append_nil] at hfits
    refine hfits.append hafter fun hend hkind => ?_
    obtain ⟨hrest, hlast⟩ := List.append_eq_nil_iff.1 hend
    subst hpieces
    obtain rfl := h.of_cons_append.eq_nil_of_spelled hrest
    exact hnumeral done piece rfl hlast hkind

/-! ## Stops -/

/-- A text fails to be split into tokens exactly when its scan fails. -/
theorem tokenize_eq_error_iff {text : String} {error : ScanError} :
    (tokenize text).result = .error (.scan error) ↔ Token.scan text = .error error := by
  unfold tokenize
  cases Token.scan text with
  | error found => simp [Logged.ofExcept]
  | ok tokens => simp [Logged.report]

/-- A numeral never stands directly after an identifier that ends what is segmented before it. -/
theorem Segments.isNumeral_of_endsInIdentifier {text : String} {pieces : List Piece}
    {last rest : List Char} {c : Char} (h : Segments 1 pieces last (c :: rest))
    (htext : text.toList = spelled pieces ++ last) (hbreak : Text.isLineBreak c = false)
    (hends : EndsInIdentifier text) : Text.isNumeral c = false := by
  obtain ⟨words, name, line, hscan, hsuffix⟩ := hends
  rw [tokenize_eq_ok_iff, h.of_append.scan_eq htext, Except.ok.injEq,
    List.append_cons words] at hscan
  obtain ⟨done, others, rfl, -, hlast⟩ :=
    List.map_eq_append_iff.1 (List.append_cancel_right hscan)
  obtain ⟨piece, rfl, hpiece⟩ := List.map_eq_singleton_iff.1 hlast
  obtain ⟨-, hfits, -⟩ := h.pieces done piece [] rfl
  rw [hpiece] at hfits
  cases hgap : last.getLast? with
  | none =>
      -- Nothing stands between the identifier and the character, so it would be a part of it.
      obtain rfl := List.getLast?_eq_none_iff.1 hgap
      have hpart : isIdentifierPart c = false := hfits.2.2 c rfl
      simp only [isIdentifierPart, Bool.or_eq_false_iff] at hpart
      exact hpart.2
  | some final =>
      -- The text ends with layout, which no identifier holds.
      have hlayout := h.last.isLayout_of_getLast? (Text.not_endsLine_cons hbreak rest) hgap
      have hidentifier : IsIdentifier name := hfits.wellSpelled
      obtain ⟨start, hstart⟩ := hsuffix
      have hfinal : name.toList.getLast? = some final := by
        rw [← List.getLast?_append_of_ne_nil start hfits.wellSpelled.content_ne_nil, hstart, htext,
          List.getLast?_append_of_ne_nil, hgap]
        rintro rfl
        cases hgap
      have hpart := hidentifier.isIdentifierPart_of_mem (List.mem_of_getLast? hfinal)
      rw [isIdentifierPart_of_isLayout hlayout] at hpart
      cases hpart

/-- What is segmented before a place where nothing can be read stops there. -/
theorem Segments.stopsBetween {before after : String} {pieces : List Piece} {last rest : List Char}
    {c : Char} (h : Segments 1 pieces last (c :: rest))
    (hbefore : before.toList = spelled pieces ++ last) (hafter : after.toList = c :: rest)
    (hlayout : isLayout c = false) (hlexeme : lexemeAt? (c :: rest) = none) :
    StopsBetween before after := by
  obtain ⟨hbreak, hblank⟩ := isLayout_eq_false_iff.1 hlayout
  obtain ⟨hletter, hdigit, hsign, hcomment⟩ := lexemeAt?_cons_eq_none_iff.1 hlexeme
  refine ⟨⟨_, tokenize_eq_ok_iff.2 (h.of_append.scan_eq hbefore)⟩, ?_, ?_, c, ?_⟩
  · rw [hbefore]
    exact (h.closesComments (Text.not_endsLine_cons hbreak rest)).not_endsInComment
  · rwa [hafter]
  · refine ⟨by rw [hafter]; rfl, hblank, hbreak, hletter, hdigit, hsign, ?_⟩
    rintro ⟨hnumeral, hidentifier⟩
    rw [h.isNumeral_of_endsInIdentifier hbefore hbreak hidentifier] at hnumeral
    cases hnumeral

/-- A text in which a scan stops fails there. -/
theorem StopsBetween.scan_append {before after : String} (h : StopsBetween before after) :
    Token.scan (before ++ after) =
      .error ⟨String.ofList (Text.trimEnd (Text.firstLine after.toList)),
        1 + Text.breakCount before.toList⟩ := by
  obtain ⟨⟨tokens, htokens⟩, hclosed, hcomment, c, hc, hblank, hbreak, hletter, hdigit, hsign,
    hnumeral⟩ := h
  obtain ⟨rest, hafter⟩ := List.head?_eq_some_iff.1 hc
  obtain ⟨words, rfl, -⟩ := Token.lexical_of_scan (tokenize_eq_ok_iff.1 htokens)
  obtain ⟨pieces, last, rfl, hbefore, hsegments⟩ :=
    exists_segments_of_scan (tokenize_eq_ok_iff.1 htokens)
  rw [hafter] at hcomment hc
  have hstarts : ∀ other ∈ (c :: rest).head?,
      Text.isAlphabetic other = false ∧ isDecimalDigit other = false := by
    intro other hother
    obtain rfl : c = other := Option.some.inj hother
    exact ⟨hletter, hdigit⟩
  have hextended : Segments 1 pieces last (c :: rest) := by
    refine hsegments.append (hbefore ▸ hclosed) hstarts fun done piece hpieces hlast hkind => ?_
    intro other hother
    obtain rfl : c = other := Option.some.inj hother
    refine Bool.eq_false_iff.2 fun hnumeral' => hnumeral ⟨hnumeral', ?_⟩
    subst hpieces hlast
    refine ⟨done.map Piece.token, piece.token.content, piece.token.line, ?_, ?_⟩
    · rw [htokens, ← hkind]
      simp
    · rw [hbefore]
      exact ⟨spelled done ++ piece.gap, by simp [spelled, Piece.text]⟩
  have hlayout : ∀ other ∈ (c :: rest).head?, isLayout other = false := by
    intro other hother
    obtain rfl : c = other := Option.some.inj hother
    exact isLayout_eq_false_iff.2 ⟨hbreak, hblank⟩
  have hfeed : (c :: rest).head? ≠ some '\n' := by
    intro hhead
    have hnot := hlayout '\n' hhead
    cases hnot
  have hlexeme := lexemeAt?_cons_eq_none_iff.2 ⟨hletter, hdigit, hsign, hcomment⟩
  rw [Token.scan, String.toList_append, hbefore, hafter, List.append_assoc,
    hextended.scanFrom_append hfeed, Token.scanFrom_of_lexemeAt?_none _ hlayout hlexeme,
    if_neg (List.cons_ne_nil c rest)]
  rfl

/-- Where a scan stops, it stops whatever is cut off after the first character. -/
theorem StopsBetween.of_isPrefix {before after other : String} (h : StopsBetween before after)
    (hother : other.toList <+: after.toList) (hne : other.toList ≠ []) :
    StopsBetween before other := by
  obtain ⟨c, hc, hfirst⟩ := h.first
  refine ⟨h.scanned, h.closed, fun hmark => h.uncommented (hmark.trans hother), c, ?_, hfirst⟩
  obtain ⟨first, rest, hcons⟩ := List.exists_cons_of_ne_nil hne
  obtain ⟨more, hmore⟩ := hother
  rw [← hmore, hcons] at hc
  rw [hcons]
  exact hc

/-- No text that is scanned reaches over a place where a scan stops. -/
theorem StopsBetween.eq_of_append {before after before' after' : String} {middle : List Char}
    (h : StopsBetween before after) (h' : StopsBetween before' after')
    (hbefore : before'.toList = before.toList ++ middle)
    (hafter : after.toList = middle ++ after'.toList) : before = before' ∧ after = after' := by
  cases middle with
  | nil =>
      rw [List.append_nil] at hbefore
      exact ⟨String.ext hbefore.symm, String.ext hafter⟩
  | cons c rest =>
      have hstops : StopsBetween before (String.ofList (c :: rest)) := by
        refine h.of_isPrefix ?_ (by simp)
        rw [String.toList_ofList, hafter]
        exact List.prefix_append _ _
      have hlonger : before' = before ++ String.ofList (c :: rest) := by
        refine String.ext ?_
        rw [hbefore, String.toList_append, String.toList_ofList]
      obtain ⟨tokens, htokens⟩ := h'.scanned
      rw [tokenize_eq_ok_iff, hlonger, hstops.scan_append] at htokens
      cases htokens

/-- A scan stops in a text at one place only. -/
theorem StopsBetween.unique {before after before' after' : String} (h : StopsBetween before after)
    (h' : StopsBetween before' after') (htext : before ++ after = before' ++ after') :
    before = before' ∧ after = after' := by
  have hsame : before.toList ++ after.toList = before'.toList ++ after'.toList := by
    rw [← String.toList_append, htext, String.toList_append]
  rcases List.append_eq_append_iff.1 hsame with ⟨middle, hbefore, hafter⟩ |
    ⟨middle, hbefore, hafter⟩
  · exact h.eq_of_append h' hbefore hafter
  · obtain ⟨rfl, rfl⟩ := h'.eq_of_append h hbefore hafter
    exact ⟨rfl, rfl⟩

/-- A scan fails exactly where it stops. -/
theorem scan_eq_error_iff {text remainder : String} {line : Int} :
    Token.scan text = .error ⟨remainder, line⟩ ↔
      ∃ before after, text = before ++ after ∧ StopsBetween before after ∧
        remainder = String.ofList (Text.trimEnd (Text.firstLine after.toList)) ∧
        line = 1 + Text.breakCount before.toList := by
  constructor
  · intro herror
    obtain ⟨pieces, last, after, htext, hsegments, hlayout, hlexeme, hscan⟩ :=
      exists_segments_scan text
    rw [herror] at hscan
    cases after with
    | nil => cases hscan
    | cons c rest =>
        rw [if_neg (List.cons_ne_nil c rest)] at hscan
        cases hscan
        refine ⟨String.ofList (spelled pieces ++ last), String.ofList (c :: rest), ?_,
          hsegments.stopsBetween (by simp) (by simp) (hlayout c rfl) hlexeme, by simp, by simp⟩
        refine String.ext ?_
        rw [htext, String.toList_append, String.toList_ofList, String.toList_ofList,
          List.append_assoc]
  · rintro ⟨before, after, rfl, hstops, rfl, rfl⟩
    exact hstops.scan_append

/-! ## The main result -/

/-- A text without the blanks at its end does not end with a blank. -/
theorem Text.isBlank_of_getLast?_trimEnd {text : List Char} {c : Char}
    (h : (Text.trimEnd text).getLast? = some c) : Text.isBlank c = false := by
  rw [Text.trimEnd, List.getLast?_reverse] at h
  have hhead := List.head?_dropWhile_not Text.isBlank text.reverse
  rw [← Text.trimStart, h] at hhead
  simpa using hhead

/-- A text cannot be split into tokens exactly when it consists of two texts between which a scan
stops. The error then has the first line of the second text without the blanks at its end, and the
line that follows from the line breaks of the first one. The two texts are unique, and the remainder
is not empty, has no line break and does not end with a blank. -/
theorem scan_fails_at_first_stop (text : String) :
    (∀ (remainder : String) (line : Int),
      (tokenize text).result = .error (.scan ⟨remainder, line⟩) ↔
        ∃ before after, text = before ++ after ∧ StopsBetween before after ∧
          remainder = String.ofList (Text.trimEnd (Text.firstLine after.toList)) ∧
          line = 1 + Text.breakCount before.toList) ∧
    (∀ before after before' after', text = before ++ after → StopsBetween before after →
      text = before' ++ after' → StopsBetween before' after' →
      before = before' ∧ after = after') ∧
    (∀ (remainder : String) (line : Int),
      (tokenize text).result = .error (.scan ⟨remainder, line⟩) →
        remainder ≠ "" ∧ (∀ c ∈ remainder.toList, Text.isLineBreak c = false) ∧
        ∀ c ∈ remainder.toList.getLast?, Text.isBlank c = false) := by
  refine ⟨fun remainder line => tokenize_eq_error_iff.trans scan_eq_error_iff,
    fun before after before' after' htext hstops htext' hstops' =>
      hstops.unique hstops' (htext.symm.trans htext'),
    fun remainder line herror => ?_⟩
  obtain ⟨before, after, -, hstops, rfl, -⟩ :=
    scan_eq_error_iff.1 (tokenize_eq_error_iff.1 herror)
  obtain ⟨c, hc, hblank, hbreak, -⟩ := hstops.first
  obtain ⟨rest, hafter⟩ := List.head?_eq_some_iff.1 hc
  have hfirst : Text.firstLine after.toList = c :: Text.firstLine rest := by
    simp [hafter, Text.firstLine, hbreak]
  rw [String.toList_ofList]
  refine ⟨fun hempty => ?_, fun other hother => ?_, fun other hother => ?_⟩
  · have hne := Text.trimEnd_ne_nil hblank (Text.firstLine rest)
    rw [← hfirst] at hne
    exact hne (by simpa using congrArg String.toList hempty)
  · have hline := (Text.trimEnd_isPrefix (Text.firstLine after.toList)).subset hother
    exact Text.isLineBreak_eq_false_of_mem_firstLine hline
  · exact Text.isBlank_of_getLast?_trimEnd hother

/-- A superscript belongs to the identifier before it, and after a reserved word the scan stops at
it. -/
theorem superscriptAfterWord_fails :
    StopsBetween "a²\r\nbool" "² // c  " ∧
    (tokenize "a²\r\nbool² // c  ").result = .error (.scan ⟨"² // c", 2⟩) ∧
    "² // c" ≠ "" ∧
    ∀ before after, "a²\r\nbool² // c  " = before ++ after → StopsBetween before after →
      before = "a²\r\nbool" ∧ after = "² // c  " := by
  have hscan : (tokenize "a²\r\nbool").result =
      .ok [⟨"a²", .identifier, 1⟩, ⟨"bool", .reserved, 2⟩, .endOfInput] := by
    decide +kernel
  have hidentifier : ¬ EndsInIdentifier "a²\r\nbool" := by
    rintro ⟨words, name, line, hends, -⟩
    rw [hscan] at hends
    have hlast := congrArg (fun tokens => (tokens.reverse[1]?).map Token.kind)
      (Except.ok.inj hends)
    simp at hlast
  have hstops : StopsBetween "a²\r\nbool" "² // c  " :=
    ⟨⟨_, hscan⟩, (closesComments_of_notMem (by decide)).not_endsInComment, by decide,
      '²', by decide, by decide, by decide, by decide, by decide, by decide,
      fun hends => hidentifier hends.2⟩
  obtain ⟨hfails, hunique, hremainder⟩ := scan_fails_at_first_stop "a²\r\nbool² // c  "
  have herror := (hfails "² // c" 2).2
    ⟨"a²\r\nbool", "² // c  ", by decide, hstops, by decide, by decide⟩
  refine ⟨hstops, herror, (hremainder _ _ herror).1, fun before after htext hother => ?_⟩
  exact hunique before after _ _ htext hother (by decide) hstops

end SchemaCompiler
