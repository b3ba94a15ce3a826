import Std.Data.String.ToInt
import SchemaCompiler.Proofs.HeaderReading
import SchemaCompiler.Proofs.OptionsReading

/-!
# Quotes and messages lose nothing

A text in quotes can be read back, whatever it holds, and so can the message of a compile error.

For quotes the reader is the one of the options: an options object with quoted banner lines gives
these lines. A message holds contents that may look like any part of a message. It is still read in
one way only, from both ends: after the content stand parts without the marks that separate them
(`CompileError.message_parse`), so the content is what is left between the reason and those parts.
-/

namespace SchemaCompiler

open Json

/-! ## Quoted texts -/

/-- A text in quotes starts with a quote, after which its characters stand. -/
theorem exists_charsAt_quoted (text : String) (rest : List Char) :
    ∃ afterQuote, (Text.quoted text).toList ++ rest = '"' :: afterQuote ∧
      CharsAt afterQuote text.toList rest := by
  refine ⟨_, ?_, readString_eq_ok_iff.1 (readString_quotedChars text rest)⟩
  rw [Text.quoted, String.toList_ofList, Text.quotedChars, List.cons_append, List.append_assoc]
  rfl

/-- A text in quotes stands for itself, whatever follows it. -/
theorem valueAt_quoted (text : String) (rest : List Char) :
    ValueAt ((Text.quoted text).toList ++ rest) (.text text) rest := by
  obtain ⟨afterQuote, hquote, hchars⟩ := exists_charsAt_quoted text rest
  rw [hquote]
  exact .text hchars

/-- A text in quotes is determined, and so is what follows it. -/
theorem quoted_append_inj {text other rest after : String}
    (h : Text.quoted text ++ rest = Text.quoted other ++ after) : text = other ∧ rest = after := by
  have htext := readText_eq_ok_iff.2 ⟨_, spaced_refl _, valueAt_quoted text rest.toList⟩
  have hother := readText_eq_ok_iff.2 ⟨_, spaced_refl _, valueAt_quoted other after.toList⟩
  rw [← String.toList_append, h, String.toList_append, hother] at htext
  simp only [Except.ok.injEq, Prod.mk.injEq, String.toList_inj] at htext
  exact ⟨htext.1.symm, htext.2.symm⟩

/-- Different texts are different in quotes. -/
theorem quoted_injective : Function.Injective Text.quoted := by
  intro text other h
  have hempty : Text.quoted text ++ "" = Text.quoted other ++ "" := by rw [h]
  exact (quoted_append_inj hempty).1

namespace Text

/-- The digits of a number are hexadecimal digits. -/
theorem exists_of_mem_hexDigits {width number : Nat} {c : Char} (h : c ∈ hexDigits width number) :
    ∃ value, value < 16 ∧ c = hexDigit value := by
  induction width generalizing number with
  | zero => cases h
  | succ width ih =>
      rw [hexDigits, List.mem_append, List.mem_singleton] at h
      rcases h with hmore | rfl
      · exact ih hmore
      · exact ⟨number % 16, Nat.mod_lt _ (by decide), rfl⟩

/-- No control character is written between quotes. -/
theorem le_toNat_of_mem_quotedChar {c written : Char} (h : written ∈ quotedChar c) :
    0x20 ≤ written.toNat := by
  unfold quotedChar at h
  split at h
  · next letter hletter =>
    rw [List.mem_cons, List.mem_singleton] at h
    rcases h with rfl | rfl
    · decide
    · unfold shortEscape? at hletter
      split at hletter <;> cases hletter <;> decide
  · split at h
    · rw [List.mem_cons, List.mem_cons] at h
      rcases h with rfl | rfl | hdigit
      · decide
      · decide
      · obtain ⟨value, hvalue, rfl⟩ := exists_of_mem_hexDigits hdigit
        have hdigits : ∀ digit : Fin 16, 0x20 ≤ (hexDigit digit).toNat := by decide
        exact hdigits ⟨value, hvalue⟩
    · next hcontrol =>
      rw [List.mem_singleton.1 h]
      exact Nat.le_of_not_lt hcontrol

/-- No control character stands in a text in quotes. -/
theorem le_toNat_of_mem_quoted {text : String} {c : Char} (h : c ∈ (quoted text).toList) :
    0x20 ≤ c.toNat := by
  rw [quoted, String.toList_ofList, quotedChars, List.mem_cons, List.mem_append,
    List.mem_singleton, List.mem_flatMap] at h
  rcases h with rfl | ⟨plain, -, hwritten⟩ | rfl
  · decide
  · exact le_toNat_of_mem_quotedChar hwritten
  · decide

end Text

/-! ## Quoted lines in options -/

/-- The options object that gives the banner as texts in quotes, with a gap between all parts. -/
def bannerObject (gap : String) (lines : List String) : String :=
  gap ++ ("\x7b" ++ (gap ++ (Text.quoted Setting.banner.key ++ (gap ++ (":" ++ (gap ++ ("[" ++
    (gap ++ (String.intercalate (gap ++ ("," ++ gap)) (lines.map Text.quoted) ++
      (gap ++ ("]" ++ (gap ++ ("\x7d" ++ gap)))))))))))))

/-- A gap of spaces stands before a text. -/
theorem spaced_append {gap : String} (hgap : ∀ c ∈ gap.toList, isSpace c = true)
    (rest : List Char) : Spaced (gap.toList ++ rest) rest :=
  ⟨gap.toList, hgap, rfl⟩

/-- Quoted lines with commas between them are items where the first one is due. -/
theorem Json.Due.itemsAt {gap : String} (hgap : ∀ c ∈ gap.toList, isSpace c = true) {first : Bool}
    {text rest : List Char} {line : String} {lines : List String}
    (h : Due first text
      ((String.intercalate (gap ++ ("," ++ gap)) ((line :: lines).map Text.quoted)).toList ++
        (gap.toList ++ ']' :: rest))) :
    ItemsAt first text ((line :: lines).map .text) rest := by
  induction lines generalizing first text line with
  | nil =>
      rw [List.map_singleton, String.intercalate_singleton] at h
      exact .item h (valueAt_quoted line _) (.close (spaced_append hgap _))
  | cons next lines ih =>
      rw [List.map_cons, List.map_cons, String.intercalate_cons_cons, String.append_assoc,
        String.toList_append, List.append_assoc] at h
      refine .item h (valueAt_quoted line _) (ih ?_)
      rw [String.toList_append, String.toList_append, String.toList_append, List.append_assoc,
        List.append_assoc, List.append_assoc]
      exact ⟨_, spaced_append hgap _, spaced_append hgap _⟩

/-- Quoted lines with commas between them and gaps around them are the items of a list. -/
theorem itemsAt_quoted {gap : String} (hgap : ∀ c ∈ gap.toList, isSpace c = true)
    (lines : List String) (rest : List Char) :
    ItemsAt true (gap.toList ++
        ((String.intercalate (gap ++ ("," ++ gap)) (lines.map Text.quoted)).toList ++
          (gap.toList ++ ']' :: rest)))
      (lines.map .text) rest := by
  cases lines with
  | nil => exact .close ((spaced_append hgap _).trans (spaced_append hgap _))
  | cons line lines => exact Due.itemsAt hgap (spaced_append hgap _)

/-- An options object with quoted banner lines gives these lines as the banner. -/
theorem ofText_bannerObject {gap : String} (hgap : ∀ c ∈ gap.toList, isSpace c = true)
    (lines : List String) :
    Options.ofText (bannerObject gap lines) = .ok { Options.default with banner := lines } := by
  refine Options.ofText_eq_ok_iff.2 ⟨.object [(Setting.banner.key, .list (lines.map .text))], ?_,
    .object (List.nodup_singleton Setting.banner) ?_⟩
  · have hvalue := ValueAt.list (itemsAt_quoted hgap lines (gap.toList ++ '\x7d' :: gap.toList))
    have hend : Spaced gap.toList [] := by simpa using spaced_append hgap []
    simp only [bannerObject, String.toList_append]
    obtain ⟨afterQuote, hquote, hkey⟩ := exists_charsAt_quoted Setting.banner.key _
    rw [hquote]
    exact ⟨_, gap.toList, spaced_append hgap _,
      .object (.member (spaced_append hgap _) hkey (spaced_append hgap _) (spaced_append hgap _)
        hvalue (.close (spaced_append hgap _))), hend⟩
  · rintro (_ | _ | _) hother
    · rfl
    · rfl
    · exact absurd (List.mem_singleton_self _) hother

/-! ## Messages of errors -/

/-- A natural number is written with digits. -/
theorem notMem_repr_nat {c : Char} (hdigit : c.isDigit = false) (number : Nat) :
    c ∉ number.repr.toList := by
  intro hmem
  rw [Nat.toList_repr] at hmem
  rw [Nat.isDigit_of_mem_toDigits (by decide) (by decide) hmem] at hdigit
  cases hdigit

/-- A number is written with digits and a sign. -/
theorem notMem_repr {c : Char} (hdigit : c.isDigit = false) (hsign : c ≠ '-') (number : Int) :
    c ∉ number.repr.toList := by
  rw [Int.repr_eq_if]
  split_ifs
  · exact notMem_repr_nat hdigit _
  · rw [String.toList_append, List.mem_append, not_or]
    exact ⟨by simpa using hsign, notMem_repr_nat hdigit _⟩

/-- Reasons have different descriptions. -/
theorem ParseReason.description_inj {first second : ParseReason}
    (h : first.description = second.description) : first = second := by
  revert h
  cases first <;> cases second <;> decide

/-- The mark before the content stands in no reason. -/
theorem ParseReason.mark_notMem (reason : ParseReason) :
    '<' ∉ (reason.description ++ " ").toList := by
  cases reason <;> decide

/-- Kinds of tokens have different descriptions. -/
theorem TokenKind.description_inj {first second : TokenKind}
    (h : first.description = second.description) : first = second := by
  revert h
  cases first <;> cases second <;> decide

/-- The bracket before the kind of the token stands in no kind. -/
theorem TokenKind.bracket_notMem (kind : TokenKind) : '(' ∉ kind.description.toList := by
  cases kind <;> decide

/-- Rules have different descriptions. -/
theorem Production.description_inj {first second : Production}
    (h : first.description = second.description) : first = second := by
  revert h
  cases first <;> cases second <;> decide

/-- The description of a rule is one word. -/
theorem Production.space_notMem (production : Production) :
    ' ' ∉ production.description.toList := by
  cases production <;> decide

namespace CompileError

/-- The message of a parse error, cut at the marks by which its parts are told apart. -/
theorem message_parse (error : ParseError) :
    message (.parse error) =
      ((((error.reason.description ++ " ") ++ ("<" ++ error.token.content)) ++ ">" ++
        ("(" ++ error.token.kind.description)) ++ ") in line" ++
        (" " ++ error.token.line.repr)) ++ " while parsing" ++
        (" " ++ error.production.description) := by
  have hcontent : " <" = " " ++ "<" := rfl
  have hkind : ">(" = ">" ++ "(" := rfl
  have hline : ") in line " = ") in line" ++ " " := rfl
  have hproduction : " while parsing " = " while parsing" ++ " " := rfl
  unfold message
  rw [hcontent, hkind, hline, hproduction]
  simp only [String.append_assoc]

/-- The message of a parse error tells the error. -/
theorem eq_of_message_parse {first second : ParseError}
    (h : message (.parse first) = message (.parse second)) : first = second := by
  have hspace (number : Int) : ' ' ∉ number.repr.toList := notMem_repr rfl (by decide) number
  rw [message_parse, message_parse] at h
  obtain ⟨h, hproduction⟩ := append_mark_inj_right rfl (Production.space_notMem _)
    (Production.space_notMem _) h
  obtain ⟨h, hline⟩ := append_mark_inj_right rfl (hspace _) (hspace _)
    (String.append_left_inj _ |>.1 h)
  obtain ⟨h, hkind⟩ := append_mark_inj_right rfl (TokenKind.bracket_notMem _)
    (TokenKind.bracket_notMem _) (String.append_left_inj _ |>.1 h)
  -- What is left is the reason and the content, read from the start.
  obtain ⟨h, hcontent⟩ := append_mark_inj rfl (ParseReason.mark_notMem _)
    (ParseReason.mark_notMem _) (String.append_left_inj _ |>.1 h)
  have hreason := ParseReason.description_inj (String.append_left_inj _ |>.1 h)
  obtain ⟨reason, ⟨content, kind, line⟩, production⟩ := first
  obtain ⟨otherReason, ⟨otherContent, otherKind, otherLine⟩, otherProduction⟩ := second
  simp only at hreason hcontent hkind hline hproduction
  rw [hreason, hcontent, TokenKind.description_inj hkind, Int.repr_inj.1 hline,
    Production.description_inj hproduction]

/-- The message of a scan error tells the error. -/
theorem eq_of_message_scan {first second : ScanError}
    (h : message (.scan first) = message (.scan second)) : first = second := by
  unfold message at h
  simp only [String.append_assoc, String.append_right_inj] at h
  obtain ⟨hremainder, hline⟩ := quoted_append_inj h
  rw [String.append_right_inj, Int.repr_inj] at hline
  obtain ⟨remainder, line⟩ := first
  obtain ⟨otherRemainder, otherLine⟩ := second
  simp only at hremainder hline
  rw [hremainder, hline]

/-- No message is one of a scan error and of a parse error: they start with different letters. -/
theorem message_scan_ne_parse (first : ScanError) (second : ParseError) :
    message (.scan first) ≠ message (.parse second) := by
  have hscan : (message (.scan first)).toList.head? = some 'I' := by
    unfold message
    simp only [String.append_assoc, String.toList_append]
    rfl
  have hparse : (message (.parse second)).toList.head? ≠ some 'I' := by
    obtain ⟨reason, token, production⟩ := second
    unfold message
    simp only [String.append_assoc, String.toList_append]
    cases reason <;> simp [ParseReason.description]
  intro h
  rw [h] at hscan
  exact hparse hscan

/-- Errors with the same message are the same. -/
theorem message_injective : Function.Injective message := by
  intro first second h
  cases first with
  | scan first =>
      cases second with
      | scan second => rw [eq_of_message_scan h]
      | parse second => exact absurd h (message_scan_ne_parse first second)
  | parse first =>
      cases second with
      | scan second => exact absurd h.symm (message_scan_ne_parse second first)
      | parse second => rw [eq_of_message_parse h]

end CompileError

/-! ## The main result -/

/-- Texts in quotes are read back by the reader of options, whatever spaces stand between the parts
of the options object, so different texts are different in quotes. No control character stands in a
text in quotes. Errors with the same message are the same. -/
theorem quotes_and_messages_lose_nothing :
    (∀ (gap : String) (lines : List String), (∀ c ∈ gap.toList, isSpace c = true) →
      Options.ofText (bannerObject gap lines) = .ok { Options.default with banner := lines }) ∧
    Function.Injective Text.quoted ∧
    (∀ text : String, ∀ c ∈ (Text.quoted text).toList, 0x20 ≤ c.toNat) ∧
    (∀ first second : CompileError, first.message = second.message → first = second) :=
  ⟨fun _ lines hgap => ofText_bannerObject hgap lines, quoted_injective,
    fun _ _ hmem => Text.le_toNat_of_mem_quoted hmem,
    fun _ _ h => CompileError.message_injective h⟩

/-- A number refused in a field declaration. -/
def refusedNumber : CompileError :=
  .parse ⟨.unexpectedToken, ⟨"7", .number, 2⟩, .field⟩

/-- A token whose content is written like the rest of the message before it. -/
def messageLikeContent : CompileError :=
  .parse ⟨.unexpectedToken, ⟨"7>(number) in line 2 while parsing element <7", .number, 2⟩, .field⟩

/-- Lines with quotes, control characters and characters beyond U+FFFF are read back, and a content
that imitates a message does not hide what was refused. -/
theorem hostileLines_read_back :
    Options.ofText (bannerObject "\n " ["say \"hi\\", "\x07\t", "\x7d]", "𝔸"]) =
      .ok { Options.default with banner := ["say \"hi\\", "\x07\t", "\x7d]", "𝔸"] } ∧
    messageLikeContent.message ≠ refusedNumber.message ∧
    refusedNumber = CompileError.parse ⟨.unexpectedToken, ⟨"7", .number, 2⟩, .field⟩ := by
  obtain ⟨hread, -, -, hmessage⟩ := quotes_and_messages_lose_nothing
  refine ⟨hread "\n " _ (by simp [isSpace]), fun h => ?_, hmessage _ _ rfl⟩
  exact absurd (hmessage _ _ h) (by decide)

end SchemaCompiler
