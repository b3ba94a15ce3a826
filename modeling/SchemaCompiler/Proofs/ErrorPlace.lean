import SchemaCompiler.Proofs.ClosedSchema
import SchemaCompiler.Proofs.FirstError

/-!
# Where errors point

An error of a compilation points into the text. `compile_errors_point_into_text` says that the
remainder of a scan error and the token of a parse error stand on the line that the error names, and
that an error at the end of the input has a line that no text has.

The scan is followed line by line (`Token.scanFrom_eq_scanLines`). What is read of a line is a part
of it (`Token.scanLine_within`), so the tokens of a text and the remainder of its error stand on
their lines (`Token.scanLines_within`). A parse error names a token of the input
(`State.Refuses.token_eq`).
-/

namespace SchemaCompiler

/-- A text is a non-empty part of a line. -/
structure IsPartOf (part : String) (line : List Char) : Prop where
  nonempty : part ≠ ""
  isInfix : part.toList <:+: line

/-- Of lines that are numbered from `first` on, the one with the given number has the part. -/
def HasPart (first : Int) (lines : List (List Char)) (number : Int) (part : String) : Prop :=
  ∃ (place : Nat) (line : List Char), number = first + place ∧ lines[place]? = some line ∧
    IsPartOf part line

/-- A part stands on the line of a text with the given number, which is the number of a line of the
text. -/
structure StandsOn (text : String) (number : Int) (part : String) : Prop where
  first_le : 1 ≤ number
  le_last : number ≤ (Text.lines text.toList).length
  line : ∃ line, (Text.lines text.toList)[(number - 1).toNat]? = some line ∧ IsPartOf part line

/-! ## Parts of lines -/

/-- A part of the end of a line is a part of the line. -/
theorem IsPartOf.of_suffix {part : String} {line after : List Char} (h : IsPartOf part after)
    (hafter : after <:+ line) : IsPartOf part line :=
  ⟨h.nonempty, h.isInfix.trans hafter.isInfix⟩

/-- Characters at the start of the end of a line are a part of the line. -/
theorem isPartOf_ofList {content line after : List Char} (hne : content ≠ [])
    (hcontent : content <+: after) (hafter : after <:+ line) :
    IsPartOf (String.ofList content) line := by
  refine ⟨fun hempty => hne ?_, ?_⟩
  · simpa using congrArg String.toList hempty
  · rw [String.toList_ofList]
    exact hcontent.isInfix.trans hafter.isInfix

/-- A text without the blanks at its end is the start of the text. -/
theorem Text.trimEnd_isPrefix (text : List Char) : Text.trimEnd text <+: text := by
  rw [← List.reverse_suffix, Text.trimEnd, List.reverse_reverse]
  exact List.dropWhile_suffix _

/-- A text that starts with a character that is no blank is not empty without the blanks at its
end. -/
theorem Text.trimEnd_ne_nil {c : Char} (h : Text.isBlank c = false) (rest : List Char) :
    Text.trimEnd (c :: rest) ≠ [] := by
  intro hempty
  have hall : ∀ other ∈ (c :: rest).reverse, Text.isBlank other = true :=
    List.dropWhile_eq_nil_iff.1 (List.reverse_eq_nil_iff.1 hempty)
  rw [hall c (by simp)] at h
  cases h

/-- Where blanks are stripped from a line, no blank follows. -/
theorem Text.isBlank_of_trimStart {line rest : List Char} {c : Char}
    (h : Text.trimStart line = c :: rest) : Text.isBlank c = false := by
  have hhead := List.head?_dropWhile_not Text.isBlank line
  rw [← Text.trimStart, h] at hhead
  simpa using hhead

/-- What a later line has, the lines have. -/
theorem HasPart.cons {first number : Int} {lines : List (List Char)} {part : String}
    (h : HasPart (first + 1) lines number part) (line : List Char) :
    HasPart first (line :: lines) number part := by
  obtain ⟨place, source, rfl, hplace, hpart⟩ := h
  refine ⟨place + 1, source, ?_, hplace, hpart⟩
  push_cast
  omega

/-- What the first line has, the lines have. -/
theorem IsPartOf.hasPart {first : Int} {line : List Char} {part : String} (h : IsPartOf part line)
    (lines : List (List Char)) : HasPart first (line :: lines) first part :=
  ⟨0, line, by simp, rfl, h⟩

/-- What a line of a text has stands on the line. -/
theorem HasPart.standsOn {text : String} {number : Int} {part : String}
    (h : HasPart 1 (Text.lines text.toList) number part) : StandsOn text number part := by
  obtain ⟨place, line, rfl, hplace, hpart⟩ := h
  have hlt := (List.getElem?_eq_some_iff.1 hplace).1
  have hindex : (1 + (place : Int) - 1).toNat = place := by omega
  exact ⟨by omega, by omega, line, by rw [hindex]; exact hplace, hpart⟩

/-! ## Tokens and remainders stand on their lines -/

namespace Token

/-- The outcome of a scan of a line: its tokens, or the remainder that is no token, have the number
of the line and are parts of it. -/
def WithinLine (number : Int) (line : List Char) : Except ScanError (List Token) → Prop
  | .ok tokens => ∀ token ∈ tokens, token.line = number ∧ IsPartOf token.content line
  | .error error => error.line = number ∧ IsPartOf error.remainder line

/-- The outcome of a scan of lines that are numbered from `first` on: all tokens but the end of the
input, or the remainder that is no token, are parts of the lines whose numbers they have. -/
def WithinLines (first : Int) (lines : List (List Char)) : Except ScanError (List Token) → Prop
  | .ok tokens =>
    ∀ token ∈ tokens, token = endOfInput ∨ HasPart first lines token.line token.content
  | .error error => HasPart first lines error.line error.remainder

/-- A token and the outcome after it are within a line that ends with both. -/
theorem WithinLine.cons {number : Int} {line content after : List Char}
    {outcome : Except ScanError (List Token)} (h : WithinLine number after outcome)
    (hne : content ≠ []) (hline : content ++ after <:+ line) (kind : TokenKind) :
    WithinLine number line (outcome.map (⟨String.ofList content, kind, number⟩ :: ·)) := by
  have hafter : after <:+ line := (List.suffix_append content after).trans hline
  cases outcome with
  | error error => exact ⟨h.1, h.2.of_suffix hafter⟩
  | ok tokens =>
      refine List.forall_mem_cons.2 ⟨⟨rfl, ?_⟩, fun other hmem => ?_⟩
      · exact isPartOf_ofList hne (List.prefix_append content after) hline
      · exact ⟨(h other hmem).1, (h other hmem).2.of_suffix hafter⟩

/-- What is read of a line is a part of it. -/
theorem scanLine_within (number : Int) (line : List Char) :
    WithinLine number line (scanLine number line) := by
  -- Blanks are stripped before each token, so what is read stands at the end of the line.
  have hsuffix {line rest : List Char} {c : Char} (h : Text.trimStart line = c :: rest) :
      c :: rest <:+ line := h ▸ List.dropWhile_suffix _
  fun_induction scanLine number line with
  | case1 line htrim => exact fun token hmem => by cases hmem
  | case2 line c rest htrim hword => exact fun token hmem => by cases hmem
  | case3 line c rest htrim word hword hcomment ih =>
      obtain ⟨hmem, hstarts⟩ := reservedAt?_eq_some hword
      have hline : word.toList ++ (c :: rest).drop word.toList.length <:+ line := by
        rw [List.prefix_iff_eq_append.1 hstarts]
        exact hsuffix htrim
      have hcons := ih.cons (reservedWords_ne_nil word hmem) hline .reserved
      rwa [String.ofList_toList] at hcons
  | case4 line c rest htrim hword halphabetic ih =>
      refine ih.cons (List.cons_ne_nil _ _) ?_ .identifier
      rw [List.cons_append, List.takeWhile_append_dropWhile]
      exact hsuffix htrim
  | case5 line c rest htrim hword halphabetic hdigit ih =>
      refine ih.cons (List.cons_ne_nil _ _) ?_ .number
      rw [List.cons_append, List.takeWhile_append_dropWhile]
      exact hsuffix htrim
  | case6 line c rest htrim hword halphabetic hdigit =>
      have hblank := Text.isBlank_of_trimStart htrim
      exact ⟨rfl, isPartOf_ofList (Text.trimEnd_ne_nil hblank rest) (Text.trimEnd_isPrefix _)
        (hsuffix htrim)⟩

/-- What is read of lines stands on the lines whose numbers it has. -/
theorem scanLines_within (first : Int) (lines : List (List Char)) :
    WithinLines first lines (scanLines first lines) := by
  induction lines generalizing first with
  | nil => exact fun token hmem => .inl (List.mem_singleton.1 hmem)
  | cons line rest ih =>
      have hline := scanLine_within first line
      have hrest := ih (first + 1)
      rw [scanLines]
      cases hfirst : scanLine first line with
      | error error =>
          rw [hfirst] at hline
          obtain ⟨hnumber, hpart⟩ := hline
          show HasPart first (line :: rest) error.line error.remainder
          rw [hnumber]
          exact hpart.hasPart rest
      | ok tokens =>
          rw [hfirst] at hline
          cases hlater : scanLines (first + 1) rest with
          | error error =>
              rw [hlater] at hrest
              exact HasPart.cons hrest line
          | ok more =>
              rw [hlater] at hrest
              intro token hmem
              rcases List.mem_append.1 hmem with hhere | hthere
              · obtain ⟨hnumber, hpart⟩ := hline token hhere
                rw [hnumber]
                exact .inr (hpart.hasPart rest)
              · exact (hrest token hthere).imp id fun hpart => hpart.cons line

/-- What is read of a text stands on the lines whose numbers it has. -/
theorem scan_within (text : String) : WithinLines 1 (Text.lines text.toList) (scan text) := by
  rw [scan, scanFrom_eq_scanLines]
  exact scanLines_within 1 _

/-- The end of the input is the only token of a text that is of that kind. -/
theorem eq_endOfInput_of_scan {text : String} {tokens : List Token} (h : scan text = .ok tokens)
    {token : Token} (hmem : token ∈ tokens) (hkind : token.kind = .endOfInput) :
    token = endOfInput := by
  obtain ⟨words, rfl, hwords⟩ := lexical_of_scan h
  rcases List.mem_append.1 hmem with hword | hend
  · have hspelled := hwords.wellSpelled token hword
    simp [WellSpelled, hkind] at hspelled
  · exact List.mem_singleton.1 hend

end Token

/-! ## Errors -/

/-- A refusal is an unexpected end exactly when the refused token ends the input. -/
theorem State.Refuses.reason_eq_unexpectedEnd_iff {allowRedefinition : Bool} {state : State}
    {token : Token} {error : ParseError} (h : Refuses allowRedefinition state token error) :
    error.reason = .unexpectedEnd ↔ token.kind = .endOfInput := by
  rcases h.error_eq with rfl | ⟨hkind, rfl⟩ | ⟨hkind, -, rfl⟩
  · simp [unexpected]
  · simp [hkind]
  · simp [hkind]

/-- A parse error is at a token of the input or at its end, and is an unexpected end exactly when it
is at the end. -/
theorem Schema.token_of_ofTokens_error {allowRedefinition : Bool} {tokens : List Token}
    {error : ParseError} (h : (Schema.ofTokens allowRedefinition tokens).result = .error error) :
    error.token ∈ endedInput tokens ∧
      (error.reason = .unexpectedEnd ↔ error.token.kind = .endOfInput) := by
  obtain ⟨read, token, rest, state, events, htokens, -, hrefuses⟩ := State.exists_refuses_of_run h
  obtain rfl := hrefuses.token_eq
  refine ⟨?_, hrefuses.reason_eq_unexpectedEnd_iff⟩
  rw [htokens]
  simp

/-- An error of a compilation points into the text: the remainder of a scan error, and the token of
a parse error that is not at the end of the input, are non-empty parts of the line that the error
names. A parse error at the end of the input is empty and on no line, and these errors are the
unexpected ends. -/
theorem compile_errors_point_into_text (options : Options) (text : String) (error : CompileError)
    (herror : (compileSchema options text).result = .error error) :
    match error with
    | .scan error => StandsOn text error.line error.remainder
    | .parse error =>
      (error.token.kind ≠ .endOfInput → StandsOn text error.token.line error.token.content) ∧
      (error.token.kind = .endOfInput →
        error.token.line = -1 ∧ error.token.content = "" ∧ error.reason = .unexpectedEnd) ∧
      (error.reason = .unexpectedEnd → error.token.kind = .endOfInput) := by
  have hwithin := Token.scan_within text
  cases hscan : Token.scan text with
  | error scanError =>
      rw [compileSchema_of_scan_error hscan] at herror
      rw [hscan] at hwithin
      cases herror
      exact HasPart.standsOn hwithin
  | ok tokens =>
      rw [compileSchema_of_scan hscan] at herror
      rw [hscan] at hwithin
      cases hparse : (Schema.ofTokens options.allowRedefinition tokens).result with
      | ok schema => simp [hparse, Except.mapError] at herror
      | error parseError =>
          rw [hparse] at herror
          cases herror
          obtain ⟨hmem, hreason⟩ := Schema.token_of_ofTokens_error hparse
          have htoken : parseError.token ∈ tokens ∨ parseError.token = .endOfInput := by
            simpa [endedInput] using hmem
          refine ⟨fun hkind => ?_, fun hkind => ?_, hreason.1⟩
          · have hhere : parseError.token ≠ .endOfInput := fun heq => hkind (by rw [heq]; rfl)
            have hword := hwithin parseError.token (htoken.resolve_right hhere)
            exact (hword.resolve_left hhere).standsOn
          · have hend : parseError.token = .endOfInput :=
              htoken.elim (fun hword => Token.eq_endOfInput_of_scan hscan hword hkind) id
            rw [hend]
            exact ⟨rfl, rfl, hreason.2 hkind⟩

/-- A text with a comment and with different line breaks, in which a field has an unknown type. -/
def unknownFieldType : String :=
  "package p;\r\n// M\r\nmessage M \x7b\u2028  Sub s;\n\x7d"

/-- The unknown type is reported on the fourth line, and stands there. -/
theorem unknownFieldType_stands_on_reported_line :
    (compileSchema .default unknownFieldType).result =
      .error (.parse ⟨.unknownType, ⟨"Sub", .identifier, 4⟩, .type⟩) ∧
    StandsOn unknownFieldType 4 "Sub" := by
  have hscan : Token.scan unknownFieldType =
      .ok [.reserved "package" 1, ⟨"p", .identifier, 1⟩, .reserved ";" 1,
        .reserved "message" 3, ⟨"M", .identifier, 3⟩, .reserved "\x7b" 3,
        ⟨"Sub", .identifier, 4⟩, ⟨"s", .identifier, 4⟩, .reserved ";" 4,
        .reserved "\x7d" 5, .endOfInput] := by
    decide +kernel
  have herror : (compileSchema .default unknownFieldType).result =
      .error (.parse ⟨.unknownType, ⟨"Sub", .identifier, 4⟩, .type⟩) := by
    rw [compileSchema_of_scan hscan]
    rfl
  obtain ⟨hstands, -, -⟩ :=
    compile_errors_point_into_text .default unknownFieldType _ herror
  exact ⟨herror, hstands (by decide)⟩

end SchemaCompiler
