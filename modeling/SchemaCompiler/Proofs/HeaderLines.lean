import Mathlib.Data.List.DropRight
import SchemaCompiler.Options.Read
import SchemaCompiler.Proofs.Renaming

/-!
# The lines of a header text

The lines of a text are split at its line feeds. The names of a compiled schema have none, so each
line of its structures stays one line (`Header.oneLine_struct`). The entries of the banner can have
line feeds, and only the first line of an entry becomes a comment.

`Header.bannerPart` finds the lines of the banner between the guard and the last line with the first
include, which no later line repeats (`Header.cassert_notMem_lines`).
`banner_is_comment_iff_later_lines_are` says when these lines are comments, and
`codeInBanner_is_no_comment` that options from a text can break this.
-/

namespace SchemaCompiler

/-! ## Lines of texts -/

namespace Text

/-- The lines of a text, which end with line feeds, and what follows the last line feed. -/
def feedLines (text : String) : List String :=
  (text.toList.splitOn '\n').map String.ofList

/-- A line feed ends the lines before it. -/
theorem feedLines_append (first rest : String) :
    feedLines (first ++ ("\n" ++ rest)) = feedLines first ++ feedLines rest := by
  have hlist : (first ++ ("\n" ++ rest)).toList = first.toList ++ '\n' :: rest.toList := by
    rw [String.toList_append, String.toList_append]
    rfl
  rw [feedLines, hlist, List.splitOn_append_cons_self, List.map_append]
  rfl

/-- A text without line feeds is one line. -/
theorem feedLines_of_oneLine {text : String} (h : OneLine text) : feedLines text = [text] := by
  rw [feedLines, List.splitOn_eq_singleton h, List.map_singleton, String.ofList_toList]

/-- Texts without line feeds are lines. -/
theorem flatMap_feedLines {texts : List String} (h : ∀ text ∈ texts, OneLine text) :
    texts.flatMap feedLines = texts := by
  induction texts with
  | nil => rfl
  | cons text rest ih =>
      rw [List.flatMap_cons, feedLines_of_oneLine (h text List.mem_cons_self),
        ih fun other hmem => h other (List.mem_cons_of_mem text hmem)]
      rfl

/-- The lines of texts that end with line feeds. -/
theorem feedLines_join (texts : List String) :
    feedLines (String.join (texts.map (· ++ "\n"))) = texts.flatMap feedLines ++ [""] := by
  induction texts with
  | nil => rfl
  | cons text rest ih =>
      rw [List.map_cons, String.join_cons, String.append_assoc, feedLines_append, ih,
        List.flatMap_cons, List.append_assoc]

/-- A text without line feeds before another text goes into its first line. -/
theorem feedLines_append_of_oneLine {start : String} (h : OneLine start) (text : String) :
    ∃ first rest, feedLines text = first :: rest ∧
      feedLines (start ++ text) = (start ++ first) :: rest := by
  obtain ⟨first, rest, hlines⟩ :=
    List.exists_cons_of_ne_nil (List.splitOn_ne_nil '\n' text.toList)
  have hsplit (before : List Char) (hbefore : '\n' ∉ before) :
      (before ++ text.toList).splitOn '\n' = (before ++ first) :: rest := by
    induction before with
    | nil => exact hlines
    | cons c before ih =>
        obtain ⟨hc, hrest⟩ := not_or.1 fun hmem => hbefore (List.mem_cons.2 hmem)
        rw [List.cons_append, List.splitOn_cons_eq_if_modifyHead, ih hrest,
          if_neg (by simpa using Ne.symm hc)]
        rfl
  refine ⟨String.ofList first, rest.map String.ofList, by rw [feedLines, hlines]; rfl, ?_⟩
  rw [feedLines, String.toList_append, hsplit start.toList h, List.map_cons, String.ofList_append,
    String.ofList_toList]

end Text

/-- Two texts have no line feed exactly if they have none together. -/
theorem oneLine_append {first second : String} :
    OneLine (first ++ second) ↔ OneLine first ∧ OneLine second := by
  rw [OneLine, String.toList_append, List.mem_append, not_or]
  rfl

/-- A literal has no line feed if none of its characters is one. -/
theorem oneLine_literal {text : List Char} (h : text.contains '\n' = false) :
    OneLine (String.ofList text) := by
  rwa [OneLine, String.toList_ofList, ← List.contains_iff_mem, Bool.not_eq_true]

namespace Header

open Layout

/-- The lines of a structure have no line feeds if its names can be spelled. -/
theorem oneLine_struct {message : Message} (h : message.Spellable) (serializers : Bool) :
    AllTexts OneLine (struct serializers message) :=
  fun item hitem => (tidy_struct h serializers item hitem).oneLine

/-! ## Lines of headers -/

/-- The lines of a layout have no line feeds if its texts have none. -/
theorem oneLine_of_mem_lines {items : List LayoutItem} (h : AllTexts OneLine items) {depth : Nat} :
    ∀ line ∈ lines depth items, OneLine line := by
  intro line hline
  obtain ⟨item, hitem, level, rfl⟩ := exists_of_mem_lines hline
  unfold indented
  split
  · exact oneLine_literal rfl
  · exact OneLine.append (oneLine_literal (by simp)) (h item hitem)

/-- The lines of the text of a layout. -/
theorem feedLines_render (items : List LayoutItem) :
    Text.feedLines (render items) = (lines 0 items).flatMap Text.feedLines ++ [""] :=
  Text.feedLines_join _

/-- The includes after the first one. -/
def includes (options : Options) : List LayoutItem :=
  when options.serializers [.line "#include <memory>", .line "#include <string>"] ++
    [.line "#include <vector>", .line "", .line "#include \"rapidjson/document.h\""] ++
    when options.serializers
      [.line "#include \"rapidjson/prettywriter.h\"",
       .line "#include \"rapidjson/stringbuffer.h\"",
       .line "#include \"rapidjson/writer.h\""] ++
    [.line ""]

/-- The structures of the messages and what stands after them. -/
def structsAndClosing (serializers : Bool) (schema : Schema) : List LayoutItem :=
  schema.messages.messages.flatMap (fun message => .line "" :: struct serializers message) ++
    closing schema

/-- A header is its guard, the banner, the includes, and the namespace. -/
theorem layout_eq_banner (options : Options) (schema : Schema) :
    layout options schema =
      [.line ("#ifndef " ++ includeGuard schema.package),
          .line ("#define " ++ includeGuard schema.package), .line ""] ++
        (banner options.banner ++ (.line "#include <cassert>" ::
          (includes options ++ .line ("namespace " ++ schema.package ++ " \x7b") ::
            structsAndClosing options.serializers schema))) := by
  simp only [layout_eq, opening, preamble, includes, structsAndClosing, List.append_assoc,
    List.cons_append, List.nil_append]

/-- The structures of a closed schema and what stands after them have no line feeds. -/
theorem oneLine_structsAndClosing {schema : Schema} (h : schema.Closed) (serializers : Bool) :
    AllTexts OneLine (structsAndClosing serializers schema) := by
  have hpackage := h.package.oneLine
  have hstructs : AllTexts OneLine (schema.messages.messages.flatMap
      fun message => .line "" :: struct serializers message) :=
    allTexts_flatMap fun message hmessage =>
      allTexts_cons.2
        ⟨oneLine_literal rfl, oneLine_struct (h.spellable message hmessage) serializers⟩
  simp [structsAndClosing, closing]
  exact ⟨hstructs, oneLine_literal rfl, OneLine.append (oneLine_literal rfl) hpackage,
    oneLine_literal rfl, OneLine.append (oneLine_literal rfl) (oneLine_includeGuard hpackage)⟩

/-- The includes have no line feeds. -/
theorem oneLine_includes (options : Options) : AllTexts OneLine (includes options) := by
  cases hserializers : options.serializers <;>
    simp [includes, hserializers, when] <;> and_intros <;> exact oneLine_literal rfl

/-- A structure is its first line, its body one level deeper, and its last line. -/
theorem structLines_eq_cons (serializers : Bool) (message : Message) :
    structLines serializers message =
      ("struct " ++ message.identifier ++ " \x7b") ::
        (lines 1 (memberLines message ++ afterMembers serializers message) ++ ["\x7d;"]) := by
  rw [structLines, struct_eq_block, lines_block (nested_structBody serializers message).level,
    indented_zero, indented_zero]

/-- The lines of the body of a structure are empty or indented. -/
theorem mem_structBody {serializers : Bool} {message : Message} {line : String}
    (h : line ∈ lines 1 (memberLines message ++ afterMembers serializers message)) :
    line = "" ∨ List.replicate 4 ' ' <+: line.toList :=
  (nested_structBody serializers message).indents 1 h

/-- The lines of the structures and of what stands after them. -/
theorem lines_structsAndClosing (serializers : Bool) (schema : Schema) :
    lines 0 (structsAndClosing serializers schema) =
      schema.messages.messages.flatMap (fun message => "" :: structLines serializers message) ++
        ["", "\x7d  // namespace " ++ schema.package, "",
          "#endif  // " ++ includeGuard schema.package] := by
  have hstructs (messages : List Message) :
      lines 0 (messages.flatMap fun message => .line "" :: struct serializers message) =
        messages.flatMap fun message => "" :: structLines serializers message := by
    induction messages with
    | nil => rfl
    | cons message messages ih =>
        rw [List.flatMap_cons, List.flatMap_cons,
          lines_append_of_level (nested_structAfterLine serializers message).level, ih]
        rfl
  rw [structsAndClosing, lines_append_of_level (nested_structs serializers _).level, hstructs]
  simp only [closing, lines, indented_zero]

/-- No line of a structure is the line of the first include. -/
theorem cassert_notMem_structLines (serializers : Bool) (message : Message) :
    "#include <cassert>" ∉ structLines serializers message := by
  rw [structLines_eq_cons]
  intro hmem
  simp only [List.mem_cons, List.mem_append, List.not_mem_nil, or_false] at hmem
  rcases hmem with hhead | hbody | hlast
  · simpa using congrArg String.toList hhead
  · rcases mem_structBody hbody with hblank | hspaces
    · exact absurd hblank (by decide)
    · exact absurd hspaces (by decide)
  · exact absurd hlast (by decide)

/-- The line of the first include is no later line. -/
theorem cassert_notMem_lines (options : Options) (schema : Schema) :
    "#include <cassert>" ∉ lines 0 (includes options ++
      .line ("namespace " ++ schema.package ++ " \x7b") ::
        structsAndClosing options.serializers schema) := by
  have hincludes : Nested (includes options) :=
    ((((Nested.line _ (nested_line _)).when _).append (.line _ (.line _ (nested_line _)))).append
      ((Nested.line _ (.line _ (nested_line _))).when _)).append (nested_line "")
  rw [lines_append_of_level hincludes.level, lines, lines_structsAndClosing, indented_zero]
  intro hmem
  simp only [List.mem_append, List.mem_cons, List.mem_flatMap, List.not_mem_nil, or_false] at hmem
  rcases hmem with hinclude | hnamespace | ⟨message, -, hblank | hstruct⟩ | hblank | hclose |
    hblank | hguard
  · revert hinclude
    cases hserializers : options.serializers <;> rw [includes, hserializers] <;> decide
  · simpa using congrArg String.toList hnamespace
  · exact absurd hblank (by decide)
  · exact cassert_notMem_structLines _ message hstruct
  · exact absurd hblank (by decide)
  · simpa using congrArg String.toList hclose
  · exact absurd hblank (by decide)
  · simpa using congrArg String.toList hguard

/-! ## The banner -/

/-- The lines of a header after its guard and before the last line with the first include. -/
def bannerPart (lines : List String) : List String :=
  ((lines.drop 2).rdropWhile (· != "#include <cassert>")).dropLast

/-- The lines of the banner: an empty line, the lines of the entries, and another empty line if
there are any. -/
def bannerLines (entries : List String) : List String :=
  "" :: (entries.flatMap (fun entry => Text.feedLines ("// " ++ entry)) ++
    if entries.isEmpty then [] else [""])

/-- The lines of the banner after the first empty line. -/
theorem flatMap_feedLines_banner (entries : List String) :
    (lines 0 (banner entries)).flatMap Text.feedLines =
      entries.flatMap (fun entry => Text.feedLines ("// " ++ entry)) ++
        if entries.isEmpty then [] else [""] := by
  rw [banner, lines_append_of_level (nested_map_line _ _).level, lines_map_line,
    List.flatMap_append, List.flatMap_map]
  simp only [indented_zero]
  cases entries <;> rfl

/-- The lines of the header of a closed schema. -/
theorem feedLines_text {schema : Schema} (h : schema.Closed) (options : Options) :
    ∃ rest, "#include <cassert>" ∉ rest ∧
      Text.feedLines (text options schema) =
        ["#ifndef " ++ includeGuard schema.package, "#define " ++ includeGuard schema.package] ++
          (bannerLines options.banner ++ "#include <cassert>" :: rest) := by
  have hpackage := h.package.oneLine
  have hguard {start : String} (hstart : OneLine start) :
      Text.feedLines (start ++ includeGuard schema.package) =
        [start ++ includeGuard schema.package] :=
    Text.feedLines_of_oneLine (hstart.append (oneLine_includeGuard hpackage))
  have hrest : AllTexts OneLine (includes options ++
      .line ("namespace " ++ schema.package ++ " \x7b") ::
        structsAndClosing options.serializers schema) :=
    allTexts_append.2 ⟨oneLine_includes options, allTexts_cons.2
      ⟨(OneLine.append (oneLine_literal rfl) hpackage).append (oneLine_literal rfl),
        oneLine_structsAndClosing h _⟩⟩
  refine ⟨lines 0 (includes options ++ .line ("namespace " ++ schema.package ++ " \x7b") ::
    structsAndClosing options.serializers schema) ++ [""], ?_, ?_⟩
  · rw [List.mem_append, not_or]
    exact ⟨cassert_notMem_lines options schema, by decide⟩
  · rw [text, feedLines_render, layout_eq_banner,
      lines_append_of_level (Nested.line _ (.line _ (.line _ .nil))).level,
      lines_append_of_level (nested_banner options.banner).level, List.flatMap_append,
      List.flatMap_append, flatMap_feedLines_banner]
    simp only [lines, indented_zero, List.flatMap_cons, List.flatMap_nil, List.append_nil]
    rw [hguard (oneLine_literal rfl), hguard (oneLine_literal rfl),
      Text.feedLines_of_oneLine (oneLine_literal rfl),
      Text.feedLines_of_oneLine (oneLine_literal rfl),
      Text.flatMap_feedLines (oneLine_of_mem_lines hrest)]
    simp [bannerLines]

/-- The part of the banner is found before the last line with the first include. -/
theorem bannerPart_append {first second : String} {entries rest : List String}
    (h : "#include <cassert>" ∉ rest) :
    bannerPart ([first, second] ++ (entries ++ "#include <cassert>" :: rest)) = entries := by
  have hlast : (entries ++ "#include <cassert>" :: rest).rdropWhile (· != "#include <cassert>") =
      entries ++ ["#include <cassert>"] := by
    have hrest : ∀ line ∈ rest.reverse, (line != "#include <cassert>") = true :=
      fun line hmem => bne_iff_ne.2 fun heq => h (heq ▸ List.mem_reverse.1 hmem)
    rw [List.rdropWhile, List.reverse_append, List.reverse_cons, List.append_assoc,
      List.dropWhile_append_of_pos hrest]
    simp
  rw [bannerPart, List.cons_append, List.cons_append, List.nil_append, List.drop_succ_cons,
    List.drop_succ_cons, List.drop_zero, hlast, List.dropLast_concat]

/-- A line that is empty or a comment. -/
def IsCommentLine (line : String) : Prop :=
  line = "" ∨ ['/', '/'] <+: line.toList

/-- Whether a line is empty or a comment can be computed. -/
instance decidableIsCommentLine (line : String) : Decidable (IsCommentLine line) :=
  inferInstanceAs (Decidable (line = "" ∨ ['/', '/'] <+: line.toList))

/-- The lines of an entry of the banner are comments exactly if those after its first line are. -/
theorem isCommentLine_entry_iff (entry : String) :
    (∀ line ∈ Text.feedLines ("// " ++ entry), IsCommentLine line) ↔
      ∀ line ∈ (Text.feedLines entry).tail, IsCommentLine line := by
  have hmark : OneLine "// " := oneLine_literal rfl
  obtain ⟨first, rest, hlines, hentry⟩ := Text.feedLines_append_of_oneLine hmark entry
  have hfirst : IsCommentLine ("// " ++ first) := .inr ⟨' ' :: first.toList, by simp⟩
  rw [hlines, hentry, List.forall_mem_cons, List.tail_cons]
  exact and_iff_right hfirst

/-- The lines of the banner are comments exactly if those of its entries are. -/
theorem isCommentLine_bannerLines_iff (entries : List String) :
    (∀ line ∈ bannerLines entries, IsCommentLine line) ↔
      ∀ entry ∈ entries, ∀ line ∈ (Text.feedLines entry).tail, IsCommentLine line := by
  have hempty : ∀ line ∈ if entries.isEmpty then [] else [""], IsCommentLine line := by
    split
    · simp
    · simp [IsCommentLine]
  rw [bannerLines, List.forall_mem_cons, List.forall_mem_append, and_iff_right (.inl rfl),
    and_iff_left hempty, List.forall_mem_flatMap]
  exact forall₂_congr fun entry _ => isCommentLine_entry_iff entry

end Header

/-! ## The main result -/

/-- Between the guard and the first include a compiled header has the lines of the banner, and these
are empty or comments exactly if all lines of an entry after its first one are. So a banner without
line feeds stays a comment. -/
theorem banner_is_comment_iff_later_lines_are (options : Options) (source header : String)
    (h : (compileHeader options source).result = .ok header) :
    (∃ guard rest, "#include <cassert>" ∉ rest ∧
      Text.feedLines header = ["#ifndef " ++ guard, "#define " ++ guard] ++
        (Header.bannerPart (Text.feedLines header) ++ "#include <cassert>" :: rest)) ∧
    Header.bannerPart (Text.feedLines header) = Header.bannerLines options.banner ∧
    ((∀ line ∈ Header.bannerPart (Text.feedLines header), Header.IsCommentLine line) ↔
      ∀ entry ∈ options.banner, ∀ line ∈ (Text.feedLines entry).tail,
        Header.IsCommentLine line) ∧
    ((∀ entry ∈ options.banner, OneLine entry) →
      ∀ line ∈ Header.bannerPart (Text.feedLines header), Header.IsCommentLine line) := by
  obtain ⟨schema, hschema, rfl⟩ := exists_schema_of_compileHeader h
  obtain ⟨rest, hrest, hlines⟩ :=
    Header.feedLines_text (closed_of_compileSchema hschema) options
  have hpart : Header.bannerPart (Text.feedLines (Header.text options schema)) =
      Header.bannerLines options.banner := by
    rw [hlines, Header.bannerPart_append hrest]
  rw [hpart]
  refine ⟨⟨_, rest, hrest, hlines⟩, rfl, Header.isCommentLine_bannerLines_iff _, fun hone => ?_⟩
  refine (Header.isCommentLine_bannerLines_iff _).2 fun entry hentry line hline => ?_
  rw [Text.feedLines_of_oneLine (hone entry hentry)] at hline
  cases hline

/-- A message with a text, and one with a list of such messages and a number. -/
def shelfMessages : List Message :=
  [⟨"Item", [⟨"name", .primitive .string, false, "const char *"⟩]⟩,
    ⟨"Shelf", [⟨"items", .message "Item", true, "Item"⟩,
      ⟨"width", .primitive .double, false, "double"⟩]⟩]

/-- A text that declares the messages. -/
def shelfText : String :=
  "package store; message Item \x7b string name; \x7d " ++
    "message Shelf \x7b repeated Item items; double width; \x7d"

/-- The text is compiled under all options. -/
theorem compileSchema_shelfText (options : Options) :
    (compileSchema options shelfText).result =
      .ok (SchemaTree.onOneLine "store" shelfMessages).meaning := by
  have hscan : Token.scan shelfText =
      .ok ((SchemaTree.onOneLine "store" shelfMessages).tokens ++ [.endOfInput]) := by
    decide +kernel
  refine compileSchema_eq_ok_iff.2 ⟨_, hscan, Schema.ofTokens_eq_ok.2
    ⟨_, [.endOfInput], rfl, rfl, by simp [SchemaTree.onOneLine, shelfMessages],
      ⟨?_, fun _ => by decide⟩, rfl⟩⟩
  simp [SchemaTree.onOneLine, Message.tree, Field.tree, FieldType.tree, shelfMessages,
    MessageTree.ScopedAfter, MessageTree.Scoped, TypeTree.Scoped]

/-- The banner of the default options stays a comment. -/
theorem shelfText_banner_is_comment :
    ∃ header, (compileHeader .default shelfText).result = .ok header ∧
      (∀ entry ∈ Options.default.banner, OneLine entry) ∧
      Header.bannerPart (Text.feedLines header) = Header.bannerLines Options.default.banner ∧
      ∀ line ∈ Header.bannerPart (Text.feedLines header), Header.IsCommentLine line := by
  have hheader := compileHeader_of_compileSchema (compileSchema_shelfText .default)
  have hentries : ∀ entry ∈ Options.default.banner, OneLine entry := by decide
  obtain ⟨-, hpart, -, hcomment⟩ := banner_is_comment_iff_later_lines_are _ _ _ hheader
  exact ⟨_, hheader, hentries, hpart, hcomment hentries⟩

/-- Options with a banner of one entry that has a line feed. -/
def codeInBanner : String :=
  "\x7b\"serializers\":false,\"banner\":[\"a\\nint x;\"]\x7d"

/-- The entry puts a line into the header that is no comment. -/
theorem codeInBanner_is_no_comment :
    ∃ options header, Options.ofText codeInBanner = .ok options ∧
      (compileHeader options shelfText).result = .ok header ∧
      ∃ line ∈ Header.bannerPart (Text.feedLines header), ¬ Header.IsCommentLine line := by
  have hoptions : Options.ofText codeInBanner = .ok ⟨false, false, ["a\nint x;"]⟩ := by
    decide +kernel
  have hschema := compileSchema_shelfText ⟨false, false, ["a\nint x;"]⟩
  obtain ⟨rest, hrest, hlines⟩ := Header.feedLines_text (closed_of_compileSchema hschema) _
  refine ⟨_, _, hoptions, compileHeader_of_compileSchema hschema, "int x;", ?_, by decide⟩
  rw [hlines, Header.bannerPart_append hrest]
  decide

end SchemaCompiler
