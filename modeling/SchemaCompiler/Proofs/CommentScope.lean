import Mathlib.Data.List.Chain
import SchemaCompiler.Proofs.ScanFailure

/-!
# How far a comment reaches

A comment reaches to the end of its line and no further. `Text.withoutComments` takes from every
line what stands before its first comment mark and keeps the line breaks.
`comments_end_with_their_lines` says that a text and the text without its comments are scanned as
the same tokens, or fail both.

The lines of the tokens are the same as well, with one exception. A line that starts with a comment
between a carriage return and a line feed is lost without the comment, since the two breaks are one
then (`Text.JoinsBreaks`). `Text.bareNumber` counts these lines.

The two texts are compared line by line. The lines of the second text are those of the first one
without comments and without the lost ones (`Text.lines_withoutComments`). The scan of a line does
not depend on what stands after a comment mark (`Token.scanLine_beforeComment`), and a lost line
only counts (`Token.scanLines_bareLines`).
-/

namespace SchemaCompiler

namespace Text

/-- The part of a line before its first comment mark. -/
def beforeComment : List Char → List Char
  | [] => []
  | c :: rest => if commentMark.toList <+: c :: rest then [] else c :: beforeComment rest

/-- A line of a text with the line break that ends it, which is empty at the end of the text. -/
structure EndedLine where
  content : List Char
  ending : List Char

/-- The lines of a text with their line breaks. A carriage return and the line feed after it are one
break. -/
def endedLines : List Char → List EndedLine
  | [] => [⟨[], []⟩]
  | '\r' :: '\n' :: rest => ⟨[], ['\r', '\n']⟩ :: endedLines rest
  | c :: rest =>
    if isLineBreak c then ⟨[], [c]⟩ :: endedLines rest
    else (endedLines rest).modifyHead fun line => { line with content := c :: line.content }

/-- The text of lines without their comments. -/
def bareText (lines : List EndedLine) : List Char :=
  lines.flatMap fun line => beforeComment line.content ++ line.ending

/-- A text without its comments: in every line the first comment mark and what follows it are
removed, and the line break is kept. -/
def withoutComments (text : String) : String :=
  String.ofList (bareText (endedLines text.toList))

/-- Two lines whose breaks become one without the comments: a carriage return ends the first line,
and the second one starts with a comment and ends in a line feed. -/
def JoinsBreaks (line next : EndedLine) : Prop :=
  line.ending = ['\r'] ∧ commentMark.toList <+: next.content ∧ next.ending = ['\n']

/-- Whether two breaks become one can be computed. -/
instance decidableJoinsBreaks (line next : EndedLine) : Decidable (JoinsBreaks line next) :=
  inferInstanceAs (Decidable (_ ∧ _ ∧ _))

/-- The number of lines that are lost without the comments, among as many first lines as given. -/
def lostLines : List EndedLine → Nat → Nat
  | line :: next :: rest, count + 2 =>
    (if JoinsBreaks line next then 1 else 0) + lostLines (next :: rest) (count + 1)
  | _, _ => 0

/-- The number that a line of a text has without the comments of the text. -/
def bareNumber (text : String) (number : Int) : Int :=
  number - lostLines (endedLines text.toList) (number - 1).toNat

/-- No line of a text is lost without its comments. -/
def KeepsBreaks (text : String) : Prop :=
  (endedLines text.toList).IsChain fun line next => ¬ JoinsBreaks line next

/-- Whether a line of a text is lost can be computed. -/
instance decidableKeepsBreaks (text : String) : Decidable (KeepsBreaks text) :=
  inferInstanceAs (Decidable (List.IsChain _ _))

/-- The lines of a text without its comments, where the lost ones are left out. -/
def bareLines : List EndedLine → List (List Char)
  | [] => []
  | [line] => [beforeComment line.content]
  | line :: next :: rest =>
    if JoinsBreaks line next then beforeComment line.content :: bareLines rest
    else beforeComment line.content :: bareLines (next :: rest)

/-! ## Lines with their breaks -/

/-- A line starts with what stands before its comment. -/
theorem beforeComment_isPrefix (line : List Char) : beforeComment line <+: line := by
  induction line with
  | nil => exact List.prefix_refl _
  | cons c rest ih =>
      rw [beforeComment]
      split
      · exact List.nil_prefix
      · exact List.cons_prefix_cons.2 ⟨rfl, ih⟩

/-- Nothing stands before the comment of a line that is empty or starts with it. -/
theorem beforeComment_eq_nil_iff {line : List Char} :
    beforeComment line = [] ↔ line = [] ∨ commentMark.toList <+: line := by
  cases line with
  | nil => simp [beforeComment]
  | cons c rest => simp [beforeComment]

/-- A text without slashes stands before the comment of what follows it. -/
theorem beforeComment_append {content : List Char} (h : '/' ∉ content) (after : List Char) :
    beforeComment (content ++ after) = content ++ beforeComment after := by
  induction content with
  | nil => rfl
  | cons c more ih =>
      have hkept : ¬ commentMark.toList <+: c :: (more ++ after) := by
        intro hstarts
        obtain rfl : '/' = c := (List.cons_prefix_cons.1 hstarts).1
        exact h List.mem_cons_self
      rw [List.cons_append, beforeComment, if_neg hkept,
        ih fun hmem => h (List.mem_cons_of_mem _ hmem), List.cons_append]

/-- The lines of a text with their breaks are its lines. -/
theorem map_content_endedLines (text : List Char) :
    (endedLines text).map EndedLine.content = lines text := by
  fun_induction endedLines text with
  | case1 => rfl
  | case2 rest ih => rw [List.map_cons, ih, lines]
  | case3 c rest hpair hbreak ih =>
      rw [List.map_cons, ih, lines, if_pos hbreak]
      exact hpair
  | case4 c rest hpair hbreak ih =>
      rw [lines, if_neg hbreak, ← ih]
      · cases endedLines rest <;> rfl
      · exact hpair

/-- Every text has a line. -/
theorem endedLines_ne_nil (text : List Char) : endedLines text ≠ [] := by
  intro hempty
  have hlines := map_content_endedLines text
  rw [hempty, lines_eq_cons] at hlines
  cases hlines

/-- The lines of a text with their breaks make up the text. -/
theorem flatMap_endedLines (text : List Char) :
    (endedLines text).flatMap (fun line => line.content ++ line.ending) = text := by
  fun_induction endedLines text with
  | case1 => rfl
  | case2 rest ih => simp [ih]
  | case3 c rest hpair hbreak ih => simp [ih]
  | case4 c rest hpair hbreak ih =>
      obtain ⟨line, more, hlines⟩ := List.exists_cons_of_ne_nil (endedLines_ne_nil rest)
      simpa [hlines] using ih

/-- Lines that follow each other in a text: each of them ends in a line break, except for the last
one, and no carriage return is parted from its line feed. -/
inductive LineSequence : List EndedLine → Prop where
  | last {content : List Char} :
      (∀ c ∈ content, isLineBreak c = false) → LineSequence [⟨content, []⟩]
  | pair {content : List Char} {rest : List EndedLine} :
      (∀ c ∈ content, isLineBreak c = false) → LineSequence rest →
      LineSequence (⟨content, ['\r', '\n']⟩ :: rest)
  | single {content : List Char} {c : Char} {rest : List EndedLine} :
      (∀ c ∈ content, isLineBreak c = false) → isLineBreak c = true →
      (c = '\r' → rest.head? ≠ some ⟨[], ['\n']⟩) → LineSequence rest →
      LineSequence (⟨content, [c]⟩ :: rest)

/-- A character that is no line break can be put before lines. -/
theorem LineSequence.modifyHead {lines : List EndedLine} (h : LineSequence lines) {c : Char}
    (hc : isLineBreak c = false) :
    LineSequence (lines.modifyHead fun line => { line with content := c :: line.content }) := by
  cases h with
  | last hcontent => exact .last (List.forall_mem_cons.2 ⟨hc, hcontent⟩)
  | pair hcontent hrest => exact .pair (List.forall_mem_cons.2 ⟨hc, hcontent⟩) hrest
  | single hcontent hbreak hparted hrest =>
      exact .single (List.forall_mem_cons.2 ⟨hc, hcontent⟩) hbreak hparted hrest

/-- The lines of a text follow each other. -/
theorem lineSequence_endedLines (text : List Char) : LineSequence (endedLines text) := by
  fun_induction endedLines text with
  | case1 => exact .last (by simp)
  | case2 rest ih => exact .pair (by simp) ih
  | case3 c rest hpair hbreak ih =>
      refine .single (by simp) hbreak (fun hreturn hfeed => ?_) ih
      -- A line feed as the first line would form a pair with the carriage return.
      have htext := flatMap_endedLines rest
      obtain ⟨more, hmore⟩ := List.head?_eq_some_iff.1 hfeed
      rw [hmore] at htext
      exact hpair _ hreturn htext.symm
  | case4 c rest hpair hbreak ih => exact ih.modifyHead (Bool.eq_false_iff.2 hbreak)

/-- The text of lines without their comments starts with the first one. -/
theorem bareText_cons (line : EndedLine) (rest : List EndedLine) :
    bareText (line :: rest) = beforeComment line.content ++ (line.ending ++ bareText rest) := by
  rw [bareText, List.flatMap_cons, List.append_assoc]
  rfl

/-- What stands before the comment of a line has no line break. -/
theorem not_break_of_mem_beforeComment {content : List Char}
    (h : ∀ c ∈ content, isLineBreak c = false) :
    ∀ c ∈ beforeComment content, isLineBreak c = false :=
  fun c hc => h c ((beforeComment_isPrefix content).subset hc)

/-- A line feed comes first after a line without its comment exactly when the line is empty then. -/
theorem head?_beforeComment_append {content : List Char}
    (h : ∀ c ∈ content, isLineBreak c = false) (rest : List Char) :
    (beforeComment content ++ rest).head? = some '\n' ↔
      beforeComment content = [] ∧ rest.head? = some '\n' := by
  cases hbefore : beforeComment content with
  | nil => simp
  | cons first more =>
      have hfirst : isLineBreak first = false :=
        not_break_of_mem_beforeComment h first (by simp [hbefore])
      have hne : first ≠ '\n' := by
        rintro rfl
        cases hfirst
      simp [hne]

/-- A line feed starts a text without comments exactly when nothing stands before it in the first
line. -/
theorem LineSequence.head?_bareText {lines : List EndedLine} (h : LineSequence lines) :
    (bareText lines).head? = some '\n' ↔
      ∃ content rest, lines = ⟨content, ['\n']⟩ :: rest ∧ beforeComment content = [] := by
  cases h with
  | last hcontent =>
      rw [bareText_cons, head?_beforeComment_append hcontent]
      simp [bareText]
  | pair hcontent hrest =>
      rw [bareText_cons, head?_beforeComment_append hcontent]
      simp
  | single hcontent hbreak hparted hrest =>
      rw [bareText_cons, head?_beforeComment_append hcontent]
      simp [and_comm]

/-- A line and what follows its break are the first line and the later ones. -/
theorem lines_append_break {content : List Char} (hcontent : ∀ c ∈ content, isLineBreak c = false)
    {c : Char} (hc : isLineBreak c = true) (rest : List Char) :
    lines (content ++ c :: rest) =
      content :: if c = '\r' ∧ rest.head? = some '\n' then laterLines rest else lines rest := by
  have hfirst : firstLine (c :: rest) = [] := by simp [firstLine, hc]
  rw [lines_eq_cons, firstLine_append hcontent, laterLines_append hcontent, hfirst,
    List.append_nil, laterLines, lines_cons_of_break hc]
  by_cases hpair : c = '\r' ∧ rest.head? = some '\n'
  · simp [hpair, laterLines]
  · simp [hpair]

/-- A line that no lone carriage return ends does not lose the line after it. -/
theorem bareLines_cons {line : EndedLine} (h : line.ending ≠ ['\r']) (rest : List EndedLine) :
    bareLines (line :: rest) = beforeComment line.content :: bareLines rest := by
  cases rest with
  | nil => rfl
  | cons next rest =>
      have hkept : ¬ JoinsBreaks line next := fun hjoins => h hjoins.1
      rw [bareLines, if_neg hkept]

/-- The lines of the text without comments are those of the text without their comments, where the
lost ones are left out. -/
theorem LineSequence.lines_bareText {sequence : List EndedLine} (h : LineSequence sequence) :
    lines (bareText sequence) = bareLines sequence := by
  induction h with
  | @last content hcontent =>
      have hfirst := firstLine_append (not_break_of_mem_beforeComment hcontent) []
      have hlater := laterLines_append (not_break_of_mem_beforeComment hcontent) []
      show lines (beforeComment content ++ [] ++ []) = [beforeComment content]
      rw [List.append_nil, lines_eq_cons, hfirst, hlater]
      simp [firstLine, laterLines, lines]
  | @pair content rest hcontent hrest ih =>
      have hempty : ∀ c ∈ ([] : List Char), isLineBreak c = false := by simp
      have hfeed : lines ('\n' :: bareText rest) = [] :: lines (bareText rest) :=
        lines_append_break hempty rfl _
      have htext : bareText (⟨content, ['\r', '\n']⟩ :: rest) =
          beforeComment content ++ '\r' :: '\n' :: bareText rest := bareText_cons _ rest
      rw [htext, lines_append_break (not_break_of_mem_beforeComment hcontent) rfl,
        if_pos ⟨rfl, rfl⟩, laterLines, hfeed, List.tail_cons, ih, bareLines_cons (by simp)]
  | @single content c rest hcontent hbreak hparted hrest ih =>
      have htext : bareText (⟨content, [c]⟩ :: rest) =
          beforeComment content ++ c :: bareText rest := bareText_cons _ rest
      rw [htext, lines_append_break (not_break_of_mem_beforeComment hcontent) hbreak]
      split
      · next hjoined =>
        -- The line after a carriage return is not empty, so it starts with a comment.
        obtain ⟨rfl, hfeed⟩ := hjoined
        obtain ⟨lost, more, rfl, hempty⟩ := hrest.head?_bareText.1 hfeed
        have hcomment : commentMark.toList <+: lost := by
          refine (beforeComment_eq_nil_iff.1 hempty).resolve_left fun hnil => hparted rfl ?_
          rw [List.head?_cons, hnil]
        have hlost : bareLines (⟨lost, ['\n']⟩ :: more) = [] :: bareLines more := by
          rw [bareLines_cons (by simp), hempty]
        rw [laterLines, ih, hlost, List.tail_cons, bareLines, if_pos ⟨rfl, hcomment, rfl⟩]
      · next hkept =>
        cases rest with
        | nil => cases hrest
        | cons next more =>
            have hseparate : ¬ JoinsBreaks ⟨content, [c]⟩ next := by
              rintro ⟨hreturn, hcomment, hending⟩
              refine hkept ⟨List.singleton_inj.1 hreturn, hrest.head?_bareText.2 ?_⟩
              refine ⟨next.content, more, ?_, beforeComment_eq_nil_iff.2 (.inr hcomment)⟩
              rw [← hending]
            rw [ih, bareLines, if_neg hseparate]

/-- The lines of a text without its comments are the lines of the text without theirs. -/
theorem lines_withoutComments (text : String) :
    lines (withoutComments text).toList = bareLines (endedLines text.toList) := by
  rw [withoutComments, String.toList_ofList]
  exact (lineSequence_endedLines text.toList).lines_bareText

/-! ## Lost lines -/

/-- Where no line is lost at the start, the lost lines are those after the first one. -/
theorem lostLines_cons {line : EndedLine} {rest : List EndedLine}
    (h : ∀ next ∈ rest.head?, ¬ JoinsBreaks line next) (count : Nat) :
    lostLines (line :: rest) count = lostLines rest (count - 1) := by
  cases rest with
  | nil => simp [lostLines]
  | cons next rest =>
      match count with
      | 0 => simp [lostLines]
      | 1 => simp [lostLines]
      | count + 2 => simp [lostLines, h next rfl]

/-- Where the second line is lost, it counts with those after it. -/
theorem lostLines_joined {line next : EndedLine} (h : JoinsBreaks line next)
    (rest : List EndedLine) (count : Nat) :
    lostLines (line :: next :: rest) (count + 2) = lostLines rest count + 1 := by
  have hnext : ∀ other ∈ rest.head?, ¬ JoinsBreaks next other := by
    rintro other - ⟨hreturn, -, -⟩
    rw [h.2.2] at hreturn
    cases hreturn
  rw [lostLines, if_pos h, lostLines_cons hnext, Nat.add_sub_cancel, Nat.add_comm]

/-- A text of which no line is lost keeps the numbers of its lines. -/
theorem KeepsBreaks.bareNumber_eq {text : String} (h : KeepsBreaks text) (number : Int) :
    bareNumber text number = number := by
  have hlost (sequence : List EndedLine) (count : Nat)
      (hsequence : sequence.IsChain fun line next => ¬ JoinsBreaks line next) :
      lostLines sequence count = 0 := by
    induction sequence generalizing count with
    | nil => simp [lostLines]
    | cons line rest ih =>
        obtain ⟨hfirst, hrest⟩ := List.isChain_cons.1 hsequence
        rw [lostLines_cons hfirst, ih _ hrest]
  rw [bareNumber, hlost _ _ h]
  simp

end Text

namespace Token

/-! ## The scan of a line -/

/-- The token on another line, unless it ends the input, which is on no line. -/
def moved (number : Int → Int) (token : Token) : Token :=
  if token.kind = .endOfInput then token else { token with line := number token.line }

/-- The outcomes of two scans are the same but for the lines, which the second one numbers as given,
and for the remainder of an error. -/
def Renumbers (number : Int → Int) :
    Except ScanError (List Token) → Except ScanError (List Token) → Prop
  | .ok tokens, .ok others => others = tokens.map (moved number)
  | .error error, .error other => other.line = number error.line
  | _, _ => False

/-- A token before both outcomes keeps them the same but for the lines. -/
theorem Renumbers.map_cons {number : Int → Int} {first second : Except ScanError (List Token)}
    (h : Renumbers number first second) (token : Token) :
    Renumbers number (first.map (token :: ·)) (second.map (moved number token :: ·)) := by
  cases first <;> cases second
  · exact h
  · exact h
  · exact h
  · exact congrArg (moved number token :: ·) h

/-- Where a word stands at the start of a line, it stands there without the comment as well, and
what follows it is the same but for the comment. -/
theorem lexemeAt?_beforeComment {content after : List Char} {kind : TokenKind}
    (h : lexemeAt? (content ++ after) = some (.word content kind)) :
    Text.beforeComment (content ++ after) = content ++ Text.beforeComment after ∧
      lexemeAt? (content ++ Text.beforeComment after) = some (.word content kind) := by
  have hfits := fits_of_lexemeAt? h 1
  have hslash : '/' ∉ content := by
    have hnone := hfits.wellSpelled.slash_notMem
    rwa [String.toList_ofList] at hnone
  constructor
  · exact Text.beforeComment_append hslash after
  · obtain ⟨more, hmore⟩ := Text.beforeComment_isPrefix after
    rw [← hmore] at hfits
    have hlexeme := hfits.of_append.lexemeAt?_append
    rwa [String.toList_ofList] at hlexeme

/-- A word is not the end of the input. -/
theorem kind_ne_of_lexemeAt? {text content : List Char} {kind : TokenKind}
    (h : lexemeAt? text = some (.word content kind)) : kind ≠ .endOfInput := by
  rcases lexemeAt?_word_cases h with ⟨-, -, -, -, rfl⟩ | ⟨-, -, rfl⟩ | ⟨-, -, -, rfl⟩ <;> decide

/-- A line that starts with a word goes on after it. -/
theorem scanLine_append {content after : List Char} {kind : TokenKind}
    (h : lexemeAt? (content ++ after) = some (.word content kind)) (number : Int) :
    scanLine number (content ++ after) =
      (scanLine number after).map (⟨String.ofList content, kind, number⟩ :: ·) := by
  obtain ⟨c, more, rfl⟩ := List.exists_cons_of_ne_nil (content_ne_nil_of_lexemeAt? h)
  have hlayout := (wellSpelled_of_lexemeAt? h number).isLayout_of_head (String.toList_ofList)
  rw [List.cons_append] at h ⊢
  rw [scanLine_cons (isLayout_eq_false_iff.1 hlayout).2, h]
  simp

/-- A line that starts with a comment holds no tokens. -/
theorem scanLine_of_comment {line : List Char} (h : commentMark.toList <+: line) (number : Int) :
    scanLine number line = .ok [] := by
  obtain ⟨after, rfl⟩ := h
  have hlexeme : lexemeAt? ('/' :: '/' :: after) = some .comment := lexemeAt?_commentMark after
  show scanLine number ('/' :: '/' :: after) = .ok []
  rw [scanLine_cons (by decide), hlexeme]

/-- The scan of a line does not depend on what stands after a comment mark, except for the remainder
of an error. -/
theorem scanLine_beforeComment (number other : Int) (line : List Char) :
    Renumbers (fun _ => other) (scanLine number line)
      (scanLine other (Text.beforeComment line)) := by
  -- The recursion is that of the scan: on the rest of the line after a blank or after a word.
  match line with
  | [] =>
      rw [Text.beforeComment, scanLine_nil, scanLine_nil]
      rfl
  | c :: rest =>
      by_cases hblank : Text.isBlank c = true
      · have hkept : ¬ commentMark.toList <+: c :: rest := by
          intro hstarts
          obtain rfl : '/' = c := (List.cons_prefix_cons.1 hstarts).1
          cases hblank
        rw [Text.beforeComment, if_neg hkept, scanLine_cons_blank hblank,
          scanLine_cons_blank hblank]
        exact scanLine_beforeComment number other rest
      · have hblank : Text.isBlank c = false := Bool.eq_false_iff.2 hblank
        cases hlexeme : lexemeAt? (c :: rest) with
        | none =>
            obtain ⟨hletter, hdigit, hsign, hkept⟩ := lexemeAt?_cons_eq_none_iff.1 hlexeme
            have hstop : lexemeAt? (c :: Text.beforeComment rest) = none := by
              refine lexemeAt?_cons_eq_none_iff.2 ⟨hletter, hdigit, hsign, fun hstarts => hkept ?_⟩
              exact hstarts.trans
                (List.cons_prefix_cons.2 ⟨rfl, Text.beforeComment_isPrefix rest⟩)
            rw [Text.beforeComment, if_neg hkept, scanLine_cons hblank, scanLine_cons hblank,
              hlexeme, hstop]
            rfl
        | some lexeme =>
            cases lexeme with
            | comment =>
                obtain ⟨more, hmore⟩ := exists_of_lexemeAt?_comment hlexeme
                have hstarts : commentMark.toList <+: c :: rest := ⟨more, hmore.symm⟩
                rw [Text.beforeComment, if_pos hstarts, scanLine_of_comment hstarts, scanLine_nil]
                rfl
            | word content kind =>
                obtain ⟨⟨after, hafter⟩, -⟩ := lexemeAt?_eq_word hlexeme
                have hlength : after.length < (c :: rest).length := by
                  have hpos := List.length_pos_iff.2 (content_ne_nil_of_lexemeAt? hlexeme)
                  rw [← hafter, List.length_append]
                  omega
                rw [← hafter] at hlexeme ⊢
                obtain ⟨hcut, hbare⟩ := lexemeAt?_beforeComment hlexeme
                rw [hcut, scanLine_append hlexeme, scanLine_append hbare]
                have hrest := (scanLine_beforeComment number other after).map_cons
                  ⟨String.ofList content, kind, number⟩
                rwa [moved, if_neg (kind_ne_of_lexemeAt? hlexeme)] at hrest
termination_by line.length
decreasing_by
  · exact Nat.lt_succ_self _
  · exact hlength

/-! ## The scan of the lines -/

/-- A property of the lines of an outcome: of those of the tokens, or of that of the error. -/
def HasLines (p : Int → Prop) : Except ScanError (List Token) → Prop
  | .ok tokens => ∀ token ∈ tokens, token.kind ≠ .endOfInput → p token.line
  | .error error => p error.line

/-- Only the numbers of the lines of an outcome matter. -/
theorem Renumbers.congr {number number' : Int → Int}
    {first second : Except ScanError (List Token)} (h : Renumbers number first second)
    (hlines : HasLines (fun line => number line = number' line) first) :
    Renumbers number' first second := by
  cases first with
  | error error =>
      cases second with
      | error other => exact (h : other.line = number error.line).trans hlines
      | ok others => exact h
  | ok tokens =>
      cases second with
      | error other => exact h
      | ok others =>
          refine (h : others = tokens.map (moved number)).trans (List.map_congr_left ?_)
          intro token hmem
          unfold moved
          split_ifs with hkind
          · rfl
          · rw [show number token.line = number' token.line from hlines token hmem hkind]

/-- What is read of a line is on it. -/
theorem scanLine_hasLines (number : Int) (line : List Char) :
    HasLines (· = number) (scanLine number line) := by
  have hwithin := scanLine_within number line
  cases hscan : scanLine number line with
  | error error =>
      rw [hscan] at hwithin
      exact hwithin.1
  | ok tokens =>
      rw [hscan] at hwithin
      exact fun token hmem _ => (hwithin token hmem).1

/-- What is read of lines is on none before them. -/
theorem scanLines_hasLines (first : Int) (lines : List (List Char)) :
    HasLines (first ≤ ·) (scanLines first lines) := by
  have hwithin := scanLines_within first lines
  have hpart {number : Int} {part : String} (h : HasPart first lines number part) :
      first ≤ number := by
    obtain ⟨place, line, rfl, -⟩ := h
    omega
  cases hscan : scanLines first lines with
  | error error =>
      rw [hscan] at hwithin
      exact hpart hwithin
  | ok tokens =>
      rw [hscan] at hwithin
      intro token hmem hkind
      rcases hwithin token hmem with rfl | hstands
      · exact absurd rfl hkind
      · exact hpart hstands

/-- A property of the lines of an outcome can be weakened. -/
theorem HasLines.mono {p q : Int → Prop} {outcome : Except ScanError (List Token)}
    (h : HasLines p outcome) (himp : ∀ line, p line → q line) : HasLines q outcome := by
  cases outcome with
  | error error => exact himp _ h
  | ok tokens => exact fun token hmem hkind => himp _ (h token hmem hkind)

/-- Scans of lines are the same but for the lines where the first lines and the later ones are. -/
theorem Renumbers.scanLines_cons {number : Int → Int} {first other : Int}
    {line bare : List Char} {rest bareRest : List (List Char)}
    (hline : Renumbers (fun _ => other) (scanLine first line) (scanLine other bare))
    (hnumber : number first = other)
    (hrest : Renumbers number (scanLines (first + 1) rest) (scanLines (other + 1) bareRest)) :
    Renumbers number (scanLines first (line :: rest)) (scanLines other (bare :: bareRest)) := by
  replace hline : Renumbers number (scanLine first line) (scanLine other bare) := by
    refine hline.congr ((scanLine_hasLines first line).mono ?_)
    rintro here rfl
    exact hnumber.symm
  rw [scanLines, scanLines]
  cases hfirst : scanLine first line <;> cases hsecond : scanLine other bare <;>
    rw [hfirst, hsecond] at hline
  · exact hline
  · exact hline.elim
  · exact hline.elim
  · next tokens others =>
    cases hlater : scanLines (first + 1) rest <;> cases hbare : scanLines (other + 1) bareRest <;>
      rw [hlater, hbare] at hrest
    · exact hrest
    · exact hrest.elim
    · exact hrest.elim
    · next more moreOthers =>
      show others ++ moreOthers = (tokens ++ more).map (moved number)
      rw [List.map_append, ← hline, ← hrest]

/-- The scan of lines without their comments, where the lost ones are left out, gives the same
tokens as that of the lines. A line after lost ones has a number that is smaller by their count. -/
theorem scanLines_bareLines (sequence : List Text.EndedLine) (first other : Int) :
    Renumbers
      (fun line => other + (line - first) - Text.lostLines sequence (line - first).toNat)
      (scanLines first (sequence.map Text.EndedLine.content))
      (scanLines other (Text.bareLines sequence)) := by
  have hhead (sequence : List Text.EndedLine) (first other : Int) :
      other + (first - first) - (Text.lostLines sequence (first - first).toNat : Int) = other := by
    simp [Text.lostLines]
  fun_induction Text.bareLines sequence generalizing first other with
  | case1 => rfl
  | case2 line =>
      refine Renumbers.scanLines_cons (scanLine_beforeComment first other line.content)
        (hhead [line] first other) ?_
      rfl
  | case3 line next rest hjoins ih =>
      refine Renumbers.scanLines_cons (scanLine_beforeComment first other line.content)
        (hhead _ first other) ?_
      -- The lost line holds nothing but a comment, so it only counts.
      rw [List.map_cons, scanLines_cons_of_ok_nil (scanLine_of_comment hjoins.2.1 (first + 1))]
      refine (ih (first + 1 + 1) (other + 1)).congr ((scanLines_hasLines _ _).mono ?_)
      intro number hle
      have hcount : (number - first).toNat = (number - (first + 1 + 1)).toNat + 2 := by omega
      rw [hcount, Text.lostLines_joined hjoins]
      push_cast
      omega
  | case4 line next rest hkept ih =>
      refine Renumbers.scanLines_cons (scanLine_beforeComment first other line.content)
        (hhead _ first other) ?_
      refine (ih (first + 1) (other + 1)).congr ((scanLines_hasLines _ _).mono ?_)
      intro number hle
      have hfirst : ∀ other ∈ (next :: rest).head?, ¬ Text.JoinsBreaks line other := by
        simpa using hkept
      have hcount : (number - first).toNat - 1 = (number - (first + 1)).toNat := by omega
      rw [Text.lostLines_cons hfirst, hcount]
      omega

/-- A text and the text without its comments are scanned the same but for the lines. -/
theorem scan_withoutComments (text : String) :
    Renumbers (Text.bareNumber text) (scan text) (scan (Text.withoutComments text)) := by
  have hlines := scanLines_bareLines (Text.endedLines text.toList) 1 1
  have hnumber : (fun line => 1 + (line - 1) -
      (Text.lostLines (Text.endedLines text.toList) (line - 1).toNat : Int)) =
        Text.bareNumber text := by
    funext line
    rw [Text.bareNumber]
    omega
  rwa [hnumber, Text.map_content_endedLines, ← Text.lines_withoutComments,
    ← scanFrom_eq_scanLines, ← scanFrom_eq_scanLines] at hlines

end Token

/-! ## The main result -/

/-- The tokens of a text without its comments are those of the text on their new lines. -/
theorem tokenize_withoutComments_of_ok {text : String} {tokens : List Token}
    (h : (tokenize text).result = .ok tokens) :
    (tokenize (Text.withoutComments text)).result =
      .ok (tokens.map (Token.moved (Text.bareNumber text))) := by
  have hscan := Token.scan_withoutComments text
  rw [tokenize_eq_ok_iff.1 h] at hscan
  cases hbare : Token.scan (Text.withoutComments text) with
  | error other =>
      rw [hbare] at hscan
      exact hscan.elim
  | ok others =>
      rw [hbare] at hscan
      rw [tokenize_eq_ok_iff, hbare]
      exact congrArg Except.ok hscan

/-- A text that is not split into tokens is not without its comments, and the error is on its new
line. -/
theorem tokenize_withoutComments_of_error {text : String} {error : CompileError}
    (h : (tokenize text).result = .error error) :
    ∃ other, (tokenize (Text.withoutComments text)).result = .error other ∧
      other.line = Text.bareNumber text error.line := by
  have hscan := Token.scan_withoutComments text
  cases htext : Token.scan text with
  | ok tokens =>
      rw [tokenize_eq_ok_iff.2 htext] at h
      cases h
  | error found =>
      rw [tokenize_eq_error_iff.2 htext] at h
      cases h
      cases hbare : Token.scan (Text.withoutComments text) with
      | ok others =>
          rw [htext, hbare] at hscan
          exact hscan.elim
      | error other =>
          rw [htext, hbare] at hscan
          exact ⟨.scan other, tokenize_eq_error_iff.2 hbare, hscan⟩

/-- Tokens stay as they are where no line has another number. -/
theorem Token.map_moved {number : Int → Int} (h : ∀ line, number line = line)
    (tokens : List Token) : tokens.map (moved number) = tokens := by
  refine (List.map_congr_left fun token _ => ?_).trans (List.map_id tokens)
  rw [moved, h, ite_self, id]

/-- A text is split into tokens exactly when it is without its comments, and the tokens are the same
but for their lines: a line keeps its number less the lost lines before it. An error is on the
line with that number as well. Where no line is lost, tokens and lines are the same. -/
theorem comments_end_with_their_lines (text : String) :
    ((∃ tokens, (tokenize text).result = .ok tokens) ↔
      ∃ tokens, (tokenize (Text.withoutComments text)).result = .ok tokens) ∧
    (∀ tokens, (tokenize text).result = .ok tokens →
      (tokenize (Text.withoutComments text)).result =
        .ok (tokens.map (Token.moved (Text.bareNumber text)))) ∧
    (∀ error other, (tokenize text).result = .error error →
      (tokenize (Text.withoutComments text)).result = .error other →
        other.line = Text.bareNumber text error.line) ∧
    (Text.KeepsBreaks text →
      (∀ tokens, (tokenize text).result = .ok tokens ↔
        (tokenize (Text.withoutComments text)).result = .ok tokens) ∧
      ∀ error other, (tokenize text).result = .error error →
        (tokenize (Text.withoutComments text)).result = .error other →
          other.line = error.line) := by
  have hfails {error other : CompileError} (herror : (tokenize text).result = .error error)
      (hother : (tokenize (Text.withoutComments text)).result = .error other) :
      other.line = Text.bareNumber text error.line := by
    obtain ⟨found, hfound, hline⟩ := tokenize_withoutComments_of_error herror
    rw [hfound] at hother
    cases hother
    exact hline
  have hsucceeds : (∃ tokens, (tokenize (Text.withoutComments text)).result = .ok tokens) →
      ∃ tokens, (tokenize text).result = .ok tokens := by
    rintro ⟨others, hothers⟩
    cases htext : (tokenize text).result with
    | ok tokens => exact ⟨tokens, rfl⟩
    | error error =>
        obtain ⟨other, hother, -⟩ := tokenize_withoutComments_of_error htext
        rw [hother] at hothers
        cases hothers
  refine ⟨⟨fun ⟨tokens, htokens⟩ => ⟨_, tokenize_withoutComments_of_ok htokens⟩, hsucceeds⟩,
    fun tokens => tokenize_withoutComments_of_ok, fun error other => hfails, fun hkeeps => ?_⟩
  have hsame {tokens : List Token} (htokens : (tokenize text).result = .ok tokens) :
      (tokenize (Text.withoutComments text)).result = .ok tokens := by
    rw [tokenize_withoutComments_of_ok htokens, Token.map_moved hkeeps.bareNumber_eq]
  refine ⟨fun tokens => ⟨hsame, fun hothers => ?_⟩, fun error other herror hother => ?_⟩
  · obtain ⟨found, hfound⟩ := hsucceeds ⟨tokens, hothers⟩
    rw [hsame hfound] at hothers
    cases hothers
    exact hfound
  · rw [hfails herror hother, hkeeps.bareNumber_eq]

/-- A text with comments after tokens and on lines of their own, before several kinds of line
breaks. -/
def commentedText : String :=
  "package// a\r\np;// b // c\u2028//\r// d\r\nmessage//\x0bM"

/-- The comments of a text hide nothing of its other lines and leave their numbers as they are. -/
theorem commentedText_keeps_tokens :
    Text.withoutComments commentedText = "package\r\np;\u2028\r\r\nmessage\x0bM" ∧
    (tokenize "package\r\np;\u2028\r\r\nmessage\x0bM").result =
      .ok [⟨"package", .reserved, 1⟩, ⟨"p", .identifier, 2⟩, ⟨";", .reserved, 2⟩,
        ⟨"message", .reserved, 5⟩, ⟨"M", .identifier, 6⟩, .endOfInput] := by
  have hbare : Text.withoutComments commentedText = "package\r\np;\u2028\r\r\nmessage\x0bM" := by
    decide
  obtain ⟨-, -, -, hsame⟩ := comments_end_with_their_lines commentedText
  refine ⟨hbare, ?_⟩
  rw [← hbare]
  exact ((hsame (by decide +kernel)).1 _).1 (by decide +kernel)

/-- A comment between a carriage return and a line feed keeps them apart: without it they are one
break, and the next line has a smaller number. -/
theorem comment_parts_breaks :
    Text.withoutComments "\r//\nbool" = "\r\nbool" ∧
    (tokenize "\r//\nbool").result = .ok [⟨"bool", .reserved, 3⟩, .endOfInput] ∧
    (tokenize "\r\nbool").result = .ok [⟨"bool", .reserved, 2⟩, .endOfInput] ∧
    (tokenize "\r//\nbool").result ≠
      (tokenize (Text.withoutComments "\r//\nbool")).result := by
  decide +kernel

end SchemaCompiler
