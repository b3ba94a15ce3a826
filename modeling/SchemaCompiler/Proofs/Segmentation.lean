import SchemaCompiler.Proofs.TokenSpelling

/-!
# Texts as tokens and gaps

A text is scanned as tokens exactly when it consists of the tokens and of the gaps around them.
`tokenize_iff_segmentation` says so: a gap is made of layout and comments (`IsGap`), a token stands
where its kind lets it stand (`Token.Fits`), which no longer token and no reserved word could do,
and its line is found by counting the line breaks before it (`Text.breakCount`).

Both directions rest on `Segments`, which is stated with the text that follows. Whatever is
segmented is scanned, and the scan goes on with the text that follows (`Segments.scanFrom_append`).
Every text can be segmented up to a place where nothing can be read (`exists_segments`), which is
the end of the text if the scan succeeds (`exists_segments_scan`).
-/

namespace SchemaCompiler

namespace Text

/-- The number of line breaks of a text. A carriage return and the line feed after it are one. -/
def breakCount : List Char → Nat
  | [] => 0
  | '\r' :: '\n' :: rest => breakCount rest + 1
  | c :: rest => if isLineBreak c then breakCount rest + 1 else breakCount rest

/-- A text before which a line ends: it is empty or starts with a line break. -/
def EndsLine (rest : List Char) : Prop :=
  ∀ c ∈ rest.head?, isLineBreak c = true

end Text

/-- A gap before the text `after`: layout, and comments, each of which reaches up to a line break or
up to the end of the text. -/
inductive IsGap (after : List Char) : List Char → Prop where
  | nil : IsGap after []
  | layout {c : Char} {gap : List Char} :
      isLayout c = true → IsGap after gap → IsGap after (c :: gap)
  | comment {body gap : List Char} :
      (∀ c ∈ body, Text.isLineBreak c = false) → Text.EndsLine (gap ++ after) →
      IsGap after gap → IsGap after (commentMark.toList ++ body ++ gap)

/-- A token can stand before the text `after`. A reserved word is no comment mark. An identifier
stands where no reserved word does and is not followed by a letter or a numeral, and a number is not
followed by a digit. -/
def Token.Fits (token : Token) (after : List Char) : Prop :=
  match token.kind with
  | .reserved => token.content ∈ reservedWords ∧ token.content ≠ commentMark
  | .identifier =>
    (∀ word ∈ reservedWords, ¬ word.toList <+: token.content.toList ++ after) ∧
      IsLetterFirst token.content.toList ∧ ∀ c ∈ after.head?, isIdentifierPart c = false
  | .number =>
    token.content ≠ "" ∧ (∀ c ∈ token.content.toList, isDecimalDigit c = true) ∧
      ∀ c ∈ after.head?, isDecimalDigit c = false
  | .endOfInput => False

/-- A token with the gap between it and the token before it. -/
structure Piece where
  gap : List Char
  token : Token

/-- The characters of a piece. -/
def Piece.text (piece : Piece) : List Char :=
  piece.gap ++ piece.token.content.toList

/-- The characters of pieces that follow each other. -/
def spelled (pieces : List Piece) : List Char :=
  pieces.flatMap Piece.text

/-- A piece stands between the texts `before` and `after`, of which the first one starts on the
given line. Its gap is one, and its token can stand before what follows it and stands as many lines
down as there are line breaks before it. -/
structure Piece.Placed (line : Int) (before after : List Char) (piece : Piece) : Prop where
  gap : IsGap (piece.token.content.toList ++ after) piece.gap
  fits : piece.token.Fits after
  line : piece.token.line = line + Text.breakCount (before ++ piece.gap)

/-- A text that starts on the given line and is followed by the text `after` consists of pieces and
of a last gap. Every piece stands between the pieces before it and what follows it. -/
structure Segments (line : Int) (pieces : List Piece) (last after : List Char) : Prop where
  pieces : ∀ done piece rest, pieces = done ++ piece :: rest →
    piece.Placed line (spelled done) (spelled rest ++ (last ++ after))
  last : IsGap after last

/-! ## Line breaks -/

namespace Text

/-- The first character counts as the scan counts it. -/
theorem breakCount_cons (c : Char) (rest : List Char) :
    breakCount (c :: rest) = breaksAt c rest + breakCount rest := by
  by_cases hpair : c = '\r' ∧ rest.head? = some '\n'
  · obtain ⟨rfl, hhead⟩ := hpair
    obtain ⟨more, rfl⟩ := List.head?_eq_some_iff.1 hhead
    simp [breakCount, breaksAt, isLineBreak]
  · rw [breakCount]
    · cases hc : isLineBreak c with
      | true => simp [breaksAt, hc, hpair, Nat.add_comm]
      | false => simp [breaksAt, hc]
    · rintro more rfl rfl
      exact hpair ⟨rfl, rfl⟩

/-- Whether a character ends a line does not depend on what follows the next character. -/
theorem breaksAt_append {rest : List Char} (h : rest.head? ≠ some '\n') (c : Char)
    (text : List Char) : breaksAt c (text ++ rest) = breaksAt c text := by
  cases text with
  | nil => simp [breaksAt, h]
  | cons first more => rfl

/-- The line breaks of two texts add up, unless the second one starts with a line feed. -/
theorem breakCount_append {rest : List Char} (h : rest.head? ≠ some '\n') (text : List Char) :
    breakCount (text ++ rest) = breakCount text + breakCount rest := by
  induction text with
  | nil => simp [breakCount]
  | cons c more ih =>
      rw [List.cons_append, breakCount_cons, breakCount_cons, breaksAt_append h, ih, Nat.add_assoc]

/-- Characters that are no line breaks do not count. -/
theorem breakCount_append_of_not_break {content : List Char}
    (h : ∀ c ∈ content, isLineBreak c = false) (rest : List Char) :
    breakCount (content ++ rest) = breakCount rest := by
  induction content with
  | nil => rfl
  | cons c more ih =>
      have hcount : breaksAt c (more ++ rest) = 0 := by simp [breaksAt, h c (by simp)]
      rw [List.cons_append, breakCount_cons, hcount, Nat.zero_add,
        ih fun other hother => h other (by simp [hother])]

/-- The first line of a text ends before what follows it. -/
theorem endsLine_afterFirstLine (text : List Char) : EndsLine (afterFirstLine text) := by
  intro c hc
  have hhead := List.head?_dropWhile_not (!isLineBreak ·) text
  rw [← afterFirstLine, Option.mem_def.1 hc] at hhead
  simpa using hhead

/-- Where the line of a text without line breaks ends, the first line is the text. -/
theorem afterFirstLine_append {content rest : List Char}
    (h : ∀ c ∈ content, isLineBreak c = false) (hrest : EndsLine rest) :
    afterFirstLine (content ++ rest) = rest := by
  rw [afterFirstLine, List.dropWhile_append_of_pos (by simpa using h)]
  cases rest with
  | nil => rfl
  | cons c more => rw [List.dropWhile_cons_of_neg (by simp [hrest c rfl])]

end Text

/-! ## Tokens where they stand -/

namespace Token

/-- A token that stands somewhere is well spelled. -/
theorem Fits.wellSpelled {token : Token} {after : List Char} (h : token.Fits after) :
    token.WellSpelled := by
  obtain ⟨content, kind, line⟩ := token
  cases kind with
  | reserved => exact h
  | identifier =>
      refine ⟨h.2.1, fun word hmem hstarts => h.1 word hmem ?_⟩
      exact hstarts.trans (List.prefix_append _ _)
  | number => exact ⟨h.1, h.2.1⟩
  | endOfInput => exact h

/-- A well spelled token has a character. -/
theorem WellSpelled.content_ne_nil {token : Token} (h : token.WellSpelled) :
    token.content.toList ≠ [] :=
  content_ne_nil_of_lexemeAt? h.lexemeAt?_content

/-- No character of a well spelled token is a line break. -/
theorem WellSpelled.not_break {token : Token} (h : token.WellSpelled) :
    ∀ c ∈ token.content.toList, Text.isLineBreak c = false :=
  (lexemeAt?_eq_word h.lexemeAt?_content).2

/-- A text that starts with a well spelled token does not start with a line feed. -/
theorem WellSpelled.head?_append_ne {token : Token} (h : token.WellSpelled) (after : List Char) :
    (token.content.toList ++ after).head? ≠ some '\n' := by
  obtain ⟨c, rest, hcontent⟩ := List.exists_cons_of_ne_nil h.content_ne_nil
  rw [hcontent, List.cons_append, List.head?_cons, ne_eq, Option.some.injEq]
  rintro rfl
  have hbreak := h.not_break '\n' (by simp [hcontent])
  cases hbreak

/-- A run of characters that ends at once is what stands before its end. -/
theorem takeWhile_append_of_head {p : Char → Bool} {content after : List Char}
    (hcontent : ∀ c ∈ content, p c = true) (hafter : ∀ c ∈ after.head?, p c = false) :
    (content ++ after).takeWhile p = content := by
  rw [List.takeWhile_append_of_pos hcontent]
  cases after with
  | nil => simp
  | cons c more => simp [hafter c rfl]

/-- A token that can stand before a text is the lexeme there. -/
theorem Fits.lexemeAt?_append {token : Token} {after : List Char} (h : token.Fits after) :
    lexemeAt? (token.content.toList ++ after) =
      some (.word token.content.toList token.kind) := by
  obtain ⟨content, kind, line⟩ := token
  cases kind with
  | reserved =>
      obtain ⟨hmem, hcomment⟩ : content ∈ reservedWords ∧ content ≠ commentMark := h
      simp [lexemeAt?, reservedAt?_append hmem, hcomment]
  | identifier =>
      obtain ⟨hreserved, hform, hafter⟩ := h
      dsimp only at hreserved hform ⊢
      rw [lexemeAt?, reservedAt?_eq_none_iff.2 hreserved]
      cases hcontent : content.toList with
      | nil =>
          rw [hcontent] at hform
          exact hform.elim
      | cons c rest =>
          rw [hcontent] at hform
          have hrun := takeWhile_append_of_head hform.2 hafter
          simp [identifierAt, hform.1, hrun]
  | number =>
      obtain ⟨hne, hdigits, hafter⟩ := h
      dsimp only at hne hdigits ⊢
      cases hcontent : content.toList with
      | nil => exact absurd (String.toList_eq_nil_iff.1 hcontent) hne
      | cons c rest =>
          rw [hcontent] at hdigits
          have hfirst : isDecimalDigit c = true := hdigits c (by simp)
          have hrun : digitsAt (c :: (rest ++ after)) = c :: rest :=
            takeWhile_append_of_head hdigits hafter
          have hidentifier : identifierAt (c :: (rest ++ after)) = [] := by
            simp [identifierAt, isAlphabetic_of_isDecimalDigit hfirst]
          rw [List.cons_append, lexemeAt?, reservedAt?_of_isDecimalDigit hfirst, hidentifier, hrun]
  | endOfInput => exact h.elim

/-- Where a run ends, no character of it follows. -/
theorem eq_false_of_head?_drop {p : Char → Bool} {text after : List Char}
    (h : text.takeWhile p ++ after = text) : ∀ c ∈ after.head?, p c = false := by
  intro c hc
  have hafter : after = text.dropWhile p := by
    have hsplit := List.takeWhile_append_dropWhile (p := p) (l := text)
    exact List.append_cancel_left (h.trans hsplit.symm)
  have hhead := List.head?_dropWhile_not p text
  rw [← hafter, Option.mem_def.1 hc] at hhead
  simpa using hhead

/-- The lexeme at a place can stand before what follows it. -/
theorem fits_of_lexemeAt? {content after : List Char} {kind : TokenKind}
    (h : lexemeAt? (content ++ after) = some (.word content kind)) (line : Int) :
    Fits ⟨String.ofList content, kind, line⟩ after := by
  have hspelled := wellSpelled_of_lexemeAt? h line
  rcases lexemeAt?_word_cases h with ⟨word, -, -, -, rfl⟩ | ⟨hword, hcontent, rfl⟩ |
    ⟨-, -, hcontent, rfl⟩
  · exact hspelled
  · have hform : IsLetterFirst (String.ofList content).toList := hspelled.letterFirst
    refine ⟨?_, hform, ?_⟩
    · rw [String.toList_ofList]
      exact reservedAt?_eq_none_iff.1 hword
    · rw [String.toList_ofList] at hform
      cases content with
      | nil => exact hform.elim
      | cons c rest =>
          rw [List.cons_append, identifierAt, if_pos hform.1, List.cons.injEq] at hcontent
          exact eq_false_of_head?_drop (by rw [← hcontent.2])
  · exact ⟨hspelled.1, hspelled.2, eq_false_of_head?_drop (congrArg (· ++ after) hcontent.symm)⟩

end Token

/-! ## Gaps -/

/-- A comment mark at the start of a text opens a comment. -/
theorem lexemeAt?_commentMark (rest : List Char) :
    lexemeAt? (commentMark.toList ++ rest) = some .comment := by
  rw [lexemeAt?, reservedAt?_append (by decide)]
  rfl

/-- A comment starts with a comment mark. -/
theorem exists_of_lexemeAt?_comment {text : List Char} (h : lexemeAt? text = some .comment) :
    ∃ rest, text = commentMark.toList ++ rest := by
  unfold lexemeAt? at h
  split at h
  · next word hword =>
    split_ifs at h with hcomment
    · subst hcomment
      obtain ⟨rest, hrest⟩ := (reservedAt?_eq_some hword).2
      exact ⟨rest, hrest.symm⟩
    · cases h
  · split at h
    · cases h
    · split at h <;> cases h

/-- The scan drops a comment. -/
theorem Token.scanFrom_comment {body rest : List Char}
    (hbody : ∀ c ∈ body, Text.isLineBreak c = false) (hrest : Text.EndsLine rest) (line : Int) :
    scanFrom line (commentMark.toList ++ body ++ rest) = scanFrom line rest := by
  have hlexeme : lexemeAt? ('/' :: '/' :: (body ++ rest)) = some .comment :=
    lexemeAt?_commentMark (body ++ rest)
  have htext : commentMark.toList ++ body ++ rest = '/' :: '/' :: (body ++ rest) := by
    rw [List.append_assoc]
    rfl
  have hslash : ∀ c ∈ '/' :: body, Text.isLineBreak c = false :=
    List.forall_mem_cons.2 ⟨rfl, hbody⟩
  have hskip := Text.afterFirstLine_append hslash hrest
  rw [List.cons_append] at hskip
  have hlayout : ¬ isLayout '/' = true := by decide
  rw [htext, scanFrom, if_neg hlayout]
  split
  · next hnone => simp [hnone] at hlexeme
  · rw [hskip]
  · next hword => simp [hword] at hlexeme

/-- The scan drops a gap and counts its line breaks. -/
theorem IsGap.scanFrom_append {gap after : List Char} (h : IsGap after gap)
    (hafter : after.head? ≠ some '\n') (line : Int) :
    Token.scanFrom line (gap ++ after) = Token.scanFrom (line + Text.breakCount gap) after := by
  induction h generalizing line with
  | nil => simp [Text.breakCount]
  | @layout c gap hc hgap ih =>
      rw [List.cons_append, Token.scanFrom_cons_layout hc, ih, Text.breakCount_cons,
        Text.breaksAt_append hafter]
      push_cast
      rw [Int.add_assoc]
  | @comment body gap hbody hends hgap ih =>
      have hmark : ∀ c ∈ commentMark.toList ++ body, Text.isLineBreak c = false := by
        intro c hc
        rcases List.mem_append.1 hc with hslash | hother
        · exact reservedWords_not_break commentMark (by decide) c hslash
        · exact hbody c hother
      rw [Text.breakCount_append_of_not_break hmark, ← ih, List.append_assoc _ gap]
      exact Token.scanFrom_comment hbody hends line

/-- Every text starts with a gap, after which there is neither layout nor a comment. -/
theorem exists_gap (text : List Char) :
    ∃ gap after, text = gap ++ after ∧ IsGap after gap ∧
      (∀ c ∈ after.head?, isLayout c = false) ∧ lexemeAt? after ≠ some .comment := by
  match text with
  | [] => exact ⟨[], [], rfl, .nil, by simp, by decide⟩
  | c :: rest =>
      by_cases hc : isLayout c = true
      · obtain ⟨gap, after, rfl, hgap, hafter⟩ := exists_gap rest
        exact ⟨c :: gap, after, rfl, .layout hc hgap, hafter⟩
      · by_cases hcomment : lexemeAt? (c :: rest) = some .comment
        · obtain ⟨more, hmore⟩ := exists_of_lexemeAt?_comment hcomment
          have hlength : (Text.afterFirstLine more).length < (c :: rest).length := by
            have hskip := (List.dropWhile_suffix (l := more) (!Text.isLineBreak ·)).length_le
            have hmark : commentMark.toList.length = 2 := rfl
            rw [hmore, List.length_append, hmark, Text.afterFirstLine]
            omega
          obtain ⟨gap, after, heq, hgap, hafter⟩ := exists_gap (Text.afterFirstLine more)
          refine ⟨commentMark.toList ++ Text.firstLine more ++ gap, after, ?_, ?_, hafter⟩
          · rw [hmore, List.append_assoc, List.append_assoc, ← heq,
              Text.firstLine_append_afterFirstLine]
          · refine .comment (fun _ => Text.isLineBreak_eq_false_of_mem_firstLine) ?_ hgap
            rw [← heq]
            exact Text.endsLine_afterFirstLine more
        · refine ⟨[], c :: rest, rfl, .nil, fun first hfirst => ?_, hcomment⟩
          obtain rfl : c = first := Option.some.inj hfirst
          exact Bool.eq_false_iff.2 hc
termination_by text.length
decreasing_by
  · simp
  · exact hlength

/-! ## Pieces -/

/-- The lines after a piece are counted from its token on. -/
theorem Piece.Placed.line_add {line : Int} {after : List Char} {piece : Piece}
    (h : piece.Placed line [] after) (more : List Char) :
    line + Text.breakCount (piece.text ++ more) = piece.token.line + Text.breakCount more := by
  have hspelled := h.fits.wellSpelled
  rw [h.line, Piece.text, List.append_assoc,
    Text.breakCount_append (hspelled.head?_append_ne more),
    Text.breakCount_append_of_not_break hspelled.not_break, List.nil_append]
  push_cast
  rw [Int.add_assoc]

/-- Pieces are segments when the first one stands in its place and the others are segments from its
line on. -/
theorem segments_cons {line : Int} {piece : Piece} {rest : List Piece} {last after : List Char} :
    Segments line (piece :: rest) last after ↔
      piece.Placed line [] (spelled rest ++ (last ++ after)) ∧
        Segments piece.token.line rest last after := by
  constructor
  · intro h
    have hfirst := h.pieces [] piece rest rfl
    refine ⟨hfirst, fun done other more hrest => ?_, h.last⟩
    obtain ⟨hgap, hfits, hline⟩ := h.pieces (piece :: done) other more (by rw [hrest]; rfl)
    refine ⟨hgap, hfits, ?_⟩
    rw [hline, spelled, List.flatMap_cons, List.append_assoc, hfirst.line_add, spelled]
  · rintro ⟨hfirst, hrest⟩
    refine ⟨fun done other more hpieces => ?_, hrest.last⟩
    cases done with
    | nil =>
        obtain ⟨rfl, rfl⟩ := List.cons.inj hpieces
        exact hfirst
    | cons first done =>
        obtain ⟨rfl, hmore⟩ := List.cons.inj hpieces
        obtain ⟨hgap, hfits, hline⟩ := hrest.pieces done other more hmore
        refine ⟨hgap, hfits, ?_⟩
        rw [hline, spelled, spelled, List.flatMap_cons, List.append_assoc, hfirst.line_add]

/-- A scan maps over the outcome twice as it maps over it once. -/
theorem map_append_map {ε : Type} (outcome : Except ε (List Token)) (token : Token)
    (tokens : List Token) :
    (outcome.map (tokens ++ ·)).map (token :: ·) = outcome.map (token :: tokens ++ ·) := by
  cases outcome <;> rfl

/-- What is segmented is scanned as its tokens, and the scan goes on with what follows. -/
theorem Segments.scanFrom_append {line : Int} {pieces : List Piece} {last after : List Char}
    (h : Segments line pieces last after) (hafter : after.head? ≠ some '\n') :
    Token.scanFrom line (spelled pieces ++ (last ++ after)) =
      (Token.scanFrom (line + Text.breakCount (spelled pieces ++ last)) after).map
        (pieces.map Piece.token ++ ·) := by
  induction pieces generalizing line with
  | nil =>
      rw [spelled, List.flatMap_nil, List.nil_append, List.nil_append,
        h.last.scanFrom_append hafter]
      cases Token.scanFrom (line + Text.breakCount last) after <;> rfl
  | cons piece rest ih =>
      obtain ⟨hpiece, hrest⟩ := segments_cons.1 h
      have hspelled := hpiece.fits.wellSpelled
      have htext : spelled (piece :: rest) ++ (last ++ after) =
          piece.gap ++ (piece.token.content.toList ++ (spelled rest ++ (last ++ after))) := by
        simp [spelled, Piece.text]
      have hline : line + Text.breakCount (spelled (piece :: rest) ++ last) =
          piece.token.line + Text.breakCount (spelled rest ++ last) := by
        rw [spelled, List.flatMap_cons, List.append_assoc, hpiece.line_add, spelled]
      have hgap : line + Text.breakCount piece.gap = piece.token.line := by
        rw [hpiece.line, List.nil_append]
      rw [htext, hpiece.gap.scanFrom_append (hspelled.head?_append_ne _), hgap,
        hspelled.scanFrom_of_lexemeAt? hpiece.fits.lexemeAt?_append, ih hrest, hline,
        map_append_map, List.map_cons]

/-- Every text is segmented up to a place where neither layout nor a lexeme stands. -/
theorem exists_segments (line : Int) (text : List Char) :
    ∃ pieces last after, text = spelled pieces ++ (last ++ after) ∧
      Segments line pieces last after ∧
      (∀ c ∈ after.head?, isLayout c = false) ∧ lexemeAt? after = none := by
  obtain ⟨gap, after, heq, hgap, hlayout, hcomment⟩ := exists_gap text
  match hlexeme : lexemeAt? after with
  | none =>
      refine ⟨[], gap, after, heq, ⟨fun done piece rest hnil => ?_, hgap⟩, hlayout, hlexeme⟩
      simp at hnil
  | some .comment => exact absurd hlexeme hcomment
  | some (.word content kind) =>
      obtain ⟨⟨more, hmore⟩, -⟩ := lexemeAt?_eq_word hlexeme
      have hlength : more.length < text.length := by
        have hpos := List.length_pos_iff.2 (content_ne_nil_of_lexemeAt? hlexeme)
        rw [heq, ← hmore, List.length_append, List.length_append]
        omega
      -- The rest is segmented from the line of this token on.
      let token : Token := ⟨String.ofList content, kind, line + Text.breakCount gap⟩
      have hcontent : token.content.toList = content := String.toList_ofList
      obtain ⟨pieces, last, stop, hrest, hsegments, hstop⟩ := exists_segments token.line more
      refine ⟨⟨gap, token⟩ :: pieces, last, stop, ?_, segments_cons.2 ⟨?_, hsegments⟩, hstop⟩
      · rw [heq, ← hmore, hrest, spelled, spelled, List.flatMap_cons, Piece.text, hcontent]
        simp only [List.append_assoc]
      · rw [← hrest]
        refine ⟨?_, ?_, rfl⟩
        · rw [hcontent, hmore]
          exact hgap
        · rw [← hmore] at hlexeme
          exact Token.fits_of_lexemeAt? hlexeme _
termination_by text.length

/-! ## The main result -/

/-- The scan of a text that starts with no lexeme is its end or an error. -/
theorem Token.scanFrom_of_lexemeAt?_none {text : List Char} (line : Int)
    (hlayout : ∀ c ∈ text.head?, isLayout c = false) (hlexeme : lexemeAt? text = none) :
    scanFrom line text =
      if text = [] then .ok [endOfInput]
      else .error ⟨String.ofList (Text.trimEnd (Text.firstLine text)), line⟩ := by
  cases text with
  | nil => rw [scanFrom, if_pos rfl]
  | cons c rest =>
      rw [scanFrom, if_neg (by simp [hlayout c rfl]), if_neg (List.cons_ne_nil c rest)]
      split
      · rfl
      · next hcomment => simp [hlexeme] at hcomment
      · next hword => simp [hlexeme] at hword

/-- A text is segmented up to a place where nothing can be read. The scan gives the tokens before
this place if it is the end of the text, and fails there otherwise. -/
theorem exists_segments_scan (text : String) :
    ∃ pieces last after, text.toList = spelled pieces ++ (last ++ after) ∧
      Segments 1 pieces last after ∧
      (∀ c ∈ after.head?, isLayout c = false) ∧ lexemeAt? after = none ∧
      Token.scan text =
        if after = [] then .ok (pieces.map Piece.token ++ [.endOfInput])
        else .error ⟨String.ofList (Text.trimEnd (Text.firstLine after)),
          1 + Text.breakCount (spelled pieces ++ last)⟩ := by
  obtain ⟨pieces, last, after, htext, hsegments, hlayout, hlexeme⟩ :=
    exists_segments 1 text.toList
  have hafter : after.head? ≠ some '\n' := by
    intro hhead
    have hfeed := hlayout '\n' hhead
    cases hfeed
  refine ⟨pieces, last, after, htext, hsegments, hlayout, hlexeme, ?_⟩
  rw [Token.scan, htext, hsegments.scanFrom_append hafter,
    Token.scanFrom_of_lexemeAt?_none _ hlayout hlexeme]
  split_ifs <;> rfl

/-- A text that is segmented up to its end is scanned as the tokens of its pieces. -/
theorem Segments.scan_eq {text : String} {pieces : List Piece} {last : List Char}
    (h : Segments 1 pieces last []) (htext : text.toList = spelled pieces ++ last) :
    Token.scan text = .ok (pieces.map Piece.token ++ [.endOfInput]) := by
  have hscan := h.scanFrom_append (by simp)
  rw [List.append_nil] at hscan
  rw [Token.scan, htext, hscan, Token.scanFrom]
  rfl

/-- A text that is scanned is segmented up to its end, with the scanned tokens. -/
theorem exists_segments_of_scan {text : String} {words : List Token}
    (h : Token.scan text = .ok (words ++ [.endOfInput])) :
    ∃ pieces last, words = pieces.map Piece.token ∧ text.toList = spelled pieces ++ last ∧
      Segments 1 pieces last [] := by
  obtain ⟨pieces, last, after, htext, hsegments, -, -, hscan⟩ := exists_segments_scan text
  rw [h] at hscan
  split_ifs at hscan with hend
  subst hend
  refine ⟨pieces, last, ?_, by rw [htext, List.append_nil], hsegments⟩
  exact List.append_cancel_right (Except.ok.inj hscan)

/-- A text is scanned as the given tokens exactly when it consists of them and of gaps around them:
every gap is made of layout and comments, every token is a reserved word that is no comment mark, an
identifier where no reserved word stands and which no letter or numeral follows, or a number which
no digit follows, and it is on the line that follows from the line breaks before it. -/
theorem tokenize_iff_segmentation (text : String) (words : List Token) :
    (tokenize text).result = .ok (words ++ [.endOfInput]) ↔
      ∃ (pieces : List Piece) (last : List Char),
        words = pieces.map Piece.token ∧ text.toList = spelled pieces ++ last ∧
        Segments 1 pieces last [] := by
  rw [tokenize_eq_ok_iff]
  constructor
  · exact exists_segments_of_scan
  · rintro ⟨pieces, last, rfl, htext, hsegments⟩
    exact hsegments.scan_eq htext

end SchemaCompiler
