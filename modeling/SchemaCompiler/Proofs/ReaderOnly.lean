import Mathlib.Data.List.Infix
import SchemaCompiler.Proofs.HeaderLines

/-!
# Headers without serializers

A header without serializers is the header with serializers with lines left out. `Layout.Thins` says
this of two layouts that keep the depth, and holds of a whole header because it holds of each of its
parts (`Header.thins_struct`, `Header.thins_opening`).

The lines that are left are the ones that do not name the source document
(`Header.not_mentions_text`). The name has two underscores, and in a compiled schema no line without
serializers has more than one (`Header.underscores_struct`). Only the guard has more, and it has
capitals where the name has small letters.
-/

namespace SchemaCompiler

/-! ## Layouts with lines left out -/

namespace Layout

/-- At every depth the lines of the first layout are those of the second less some of them. Both
layouts keep the depth. -/
structure Thins (first second : List LayoutItem) : Prop where
  level : Level first
  level_more : Level second
  sublist : ∀ depth, (lines depth first).Sublist (lines depth second)

variable {first second other more : List LayoutItem}

/-- A layout is itself with no line left out. -/
theorem Nested.thins (h : Nested first) : Thins first first :=
  ⟨h.level, h.level, fun _ => List.Sublist.refl _⟩

/-- Lines are left out of two layouts one after the other. -/
theorem Thins.append (hfirst : Thins first second) (hother : Thins other more) :
    Thins (first ++ other) (second ++ more) := by
  refine ⟨fun depth => ?_, fun depth => ?_, fun depth => ?_⟩
  · rw [depthAfter_append, hfirst.level, hother.level]
  · rw [depthAfter_append, hfirst.level_more, hother.level_more]
  · rw [lines_append_of_level hfirst.level, lines_append_of_level hfirst.level_more]
    exact (hfirst.sublist depth).append (hother.sublist depth)

/-- Lines are left out of a block where they are left out of its body. -/
theorem Thins.block (h : Thins first second) (head tail : String) :
    Thins (block head first tail) (block head second tail) := by
  refine ⟨fun _ => depthAfter_block (h.level _), fun _ => depthAfter_block (h.level_more _),
    fun depth => ?_⟩
  rw [lines_block h.level, lines_block h.level_more]
  exact ((h.sublist (depth + 1)).append (List.Sublist.refl _)).cons_cons _

/-- Lines under a condition are left out where a weaker condition keeps them. -/
theorem Nested.thins_when (h : Nested first) {condition weaker : Bool}
    (hweaker : condition = true → weaker = true) :
    Thins (Layout.when condition first) (Layout.when weaker first) := by
  refine ⟨(h.when condition).level, (h.when weaker).level, fun depth => ?_⟩
  cases condition with
  | true => rw [hweaker rfl]
  | false => exact List.nil_sublist _

/-- Lines are left out of the layouts of some values one after the other. -/
theorem thins_flatMap {α : Type} (values : List α) {items others : α → List LayoutItem}
    (h : ∀ value, Thins (items value) (others value)) :
    Thins (values.flatMap items) (values.flatMap others) := by
  induction values with
  | nil => exact Nested.nil.thins
  | cons value rest ih =>
      rw [List.flatMap_cons, List.flatMap_cons]
      exact (h value).append ih

end Layout

namespace Header

open Layout

/-- The structure of a message without serializers is the one with them less some lines. -/
theorem thins_struct (message : Message) : Thins (struct false message) (struct true message) := by
  have hfalse {condition : Bool} (h : false = true) : condition = true := by cases h
  have hmembers : Thins (members false message) (members true message) := by
    refine Thins.append (Thins.append (nested_memberLines message).thins ?_) ?_
    · exact (nested_line _).thins_when hfalse
    · exact (nested_line "").thins_when fun _ => Bool.or_true _
  refine Thins.block ?_ _ _
  refine Thins.append ?_ ((nested_writeMethods message).thins_when hfalse)
  refine Thins.append ?_ (nested_getMethod message).thins
  refine Thins.append ?_ ((nested_fromStringPart message).thins_when hfalse)
  exact (hmembers.append (nested_parseMethod message).thins).append (nested_line "").thins

/-- What stands before the structures without serializers is the same with them less some lines. -/
theorem thins_opening (options : Options) (schema : Schema) :
    Thins (opening { options with serializers := false } schema)
      (opening { options with serializers := true } schema) := by
  have hfalse {condition : Bool} (h : false = true) : condition = true := by cases h
  have hlines (first second third : String) :
      Nested [.line first, .line second, .line third] := .line _ (.line _ (nested_line _))
  unfold opening preamble
  refine Thins.append (Thins.append ?_ (nested_line "").thins) (nested_line _).thins
  refine Thins.append (Thins.append ?_ (hlines _ _ _).thins) ((hlines _ _ _).thins_when hfalse)
  refine Thins.append ?_ ((Nested.line _ (nested_line _)).thins_when hfalse)
  exact ((hlines _ _ _).thins.append (nested_banner options.banner).thins).append
    (nested_line _).thins

/-- The lines of a header without serializers are those with serializers less some of them. -/
theorem sublist_lines_layout (options : Options) (schema : Schema) :
    (lines 0 (layout { options with serializers := false } schema)).Sublist
      (lines 0 (layout { options with serializers := true } schema)) := by
  have hclosing : Nested (closing schema) := .line _ (.line _ (.line _ (nested_line _)))
  rw [layout_eq, layout_eq]
  refine ((thins_opening options schema).append (Thins.append ?_ hclosing.thins)).sublist 0
  exact thins_flatMap _ fun message => (nested_line "").thins.append (thins_struct message)

end Header

/-! ## The source document -/

/-- A text holds a word. -/
def Mentions (word text : String) : Prop :=
  word.toList <:+: text.toList

/-- Whether a text holds a word can be computed. -/
instance decidableMentions (word text : String) : Decidable (Mentions word text) :=
  inferInstanceAs (Decidable (word.toList <:+: text.toList))

/-- A word that does not hold the first character of a text starts it only if it is empty. -/
theorem eq_nil_of_isPrefix_cons {word after : List Char} {mark : Char} (hmark : mark ∉ word)
    (h : word <+: mark :: after) : word = [] := by
  cases word with
  | nil => rfl
  | cons c rest =>
      obtain ⟨rfl, -⟩ := List.cons_prefix_cons.1 h
      exact absurd List.mem_cons_self hmark

/-- A word that does not hold a character stands before or after it. -/
theorem infix_append_cons {word before after : List Char} {mark : Char} (hmark : mark ∉ word)
    (h : word <:+: before ++ mark :: after) : word <:+: before ∨ word <:+: after := by
  rcases List.infix_append_iff.1 h with hbefore | hafter | ⟨start, stop, rfl, hstart, hstop⟩
  · exact .inl hbefore
  · rcases List.infix_cons_iff.1 hafter with hstarts | hafter
    · rw [eq_nil_of_isPrefix_cons hmark hstarts]
      exact .inl List.nil_infix
    · exact .inr hafter
  · -- The part after the character would start with it.
    have hnil : stop = [] :=
      eq_nil_of_isPrefix_cons (fun hmem => hmark (List.mem_append_right start hmem)) hstop
    rw [hnil, List.append_nil]
    exact .inl hstart.isInfix

/-- A word stands after characters that it does not hold. -/
theorem infix_of_append {word before after : List Char} (hword : word ≠ [])
    (hbefore : ∀ c ∈ before, c ∉ word) (h : word <:+: before ++ after) : word <:+: after := by
  induction before with
  | nil => exact h
  | cons c before ih =>
      have hfirst : word <:+: [] ++ c :: (before ++ after) := h
      rcases infix_append_cons (hbefore c List.mem_cons_self) hfirst with hnil | hrest
      · exact absurd (List.infix_nil.1 hnil) hword
      · exact ih (fun other hmem => hbefore other (List.mem_cons_of_mem c hmem)) hrest

namespace Layout

/-- A word without line feeds that the lines of a text hold is held by one of them. -/
theorem exists_mentions_of_join {word : String} (hword : word ≠ "") (hfeed : OneLine word)
    {texts : List String} (h : Mentions word (String.join (texts.map (· ++ "\n")))) :
    ∃ text ∈ texts, Mentions word text := by
  induction texts with
  | nil => exact absurd (String.toList_inj.1 (List.infix_nil.1 h)) hword
  | cons text rest ih =>
      unfold Mentions at h
      rw [List.map_cons, String.join_cons, String.toList_append, String.toList_append,
        List.append_assoc] at h
      rcases infix_append_cons hfeed h with hfirst | hrest
      · exact ⟨text, List.mem_cons_self, hfirst⟩
      · obtain ⟨other, hother, hmentions⟩ := ih hrest
        exact ⟨other, List.mem_cons_of_mem text hother, hmentions⟩

/-- A word without spaces that a line holds is held by its text. -/
theorem mentions_of_indented {word text : String} (hword : word ≠ "") (hspace : ' ' ∉ word.toList)
    {depth : Nat} (h : Mentions word (indented depth text)) : Mentions word text := by
  unfold indented at h
  split at h
  · next hempty => rwa [hempty]
  · unfold Mentions at h
    rw [String.toList_append, String.toList_ofList] at h
    refine infix_of_append (fun hnil => hword (String.toList_inj.1 hnil)) (fun c hmem => ?_) h
    rwa [List.eq_of_mem_replicate hmem]

/-- A word without spaces and line feeds that the text of a layout holds is held by the text of one
of its items. -/
theorem exists_mentions_of_render {word : String} (hword : word ≠ "") (hfeed : OneLine word)
    (hspace : ' ' ∉ word.toList) {items : List LayoutItem} (h : Mentions word (render items)) :
    ∃ item ∈ items, Mentions word item.text := by
  obtain ⟨line, hline, hmentions⟩ := exists_mentions_of_join hword hfeed h
  obtain ⟨item, hitem, level, rfl⟩ := exists_of_mem_lines hline
  exact ⟨item, hitem, mentions_of_indented hword hspace hmentions⟩

end Layout

namespace Header

open Layout

/-- The number of underscores in a text. -/
def underscores (text : String) : Nat :=
  text.toList.count '_'

/-- The underscores of two texts. -/
theorem underscores_append (first second : String) :
    underscores (first ++ second) = underscores first + underscores second := by
  rw [underscores, String.toList_append, List.count_append]
  rfl

/-- An identifier has no underscore. -/
theorem underscores_identifier {name : String} (h : IsIdentifier name) : underscores name = 0 :=
  List.count_eq_zero.2 (h.notMem (by decide))

/-- A text with one underscore does not hold the name of the source document, which has two. -/
theorem not_mentions_of_underscores {text : String} (h : underscores text ≤ 1) :
    ¬ Mentions sourceDocument text := by
  intro hmentions
  have hcount : sourceDocument.toList.count '_' ≤ underscores text :=
    hmentions.sublist.count_le '_'
  have htwo : sourceDocument.toList.count '_' = 2 := by decide
  omega

/-- The lines of a structure without serializers have at most one underscore. -/
theorem underscores_struct {message : Message} (h : message.Spellable) :
    AllTexts (underscores · ≤ 1) (struct false message) := by
  have hunderscore : isIdentifierPart '_' = false := by decide
  have hsample : AllTexts (Text.IsAsciiWith (·.count '_' ≤ 1)) (struct false Message.sample) := by
    decide +kernel
  exact forall_struct_of_sample (underscores ·.text ≤ 1) h id
    (fun hrenames hother => (hrenames.text.count_eq hunderscore).trans_le hother)
    fun item hitem => (hsample item hitem).toList

/-- No upper-case form holds the letter that the name of the source document starts with. -/
theorem s_notMem_uppercase (text : String) : 's' ∉ (Text.uppercase text).toList := by
  intro hmem
  rw [Text.uppercase, String.toList_ofList, List.mem_flatMap] at hmem
  obtain ⟨c, -, hc⟩ := hmem
  have hcaseless : Text.IsCaseless 's' := ⟨by decide, by decide, by decide⟩
  rw [hcaseless.eq_of_mem_uppercaseChar hc] at hc
  exact absurd hc (by decide)

/-- A line with the guard of a package does not hold the name of the source document. -/
theorem not_mentions_includeGuard {start : String} (hstart : 's' ∉ start.toList)
    (package : String) : ¬ Mentions sourceDocument (start ++ includeGuard package) := by
  have hmark : 's' ∉ "_PROTO2RAPIDJSON_".toList ∧ 's' ∉ "_HEADER_".toList := by decide
  have hguard : 's' ∉ (includeGuard package).toList := by
    show 's' ∉ ("_PROTO2RAPIDJSON_" ++ Text.uppercase package ++ "_HEADER_").toList
    rw [String.toList_append, String.toList_append, List.mem_append, List.mem_append]
    rintro ((hmarked | hpackage) | hlast)
    · exact hmark.1 hmarked
    · exact s_notMem_uppercase package hpackage
    · exact hmark.2 hlast
  intro hmentions
  have hletters : sourceDocument.toList ⊆ (start ++ includeGuard package).toList :=
    List.IsInfix.subset hmentions
  have hletter := hletters (show 's' ∈ sourceDocument.toList by decide)
  rw [String.toList_append, List.mem_append] at hletter
  exact hletter.elim hstart hguard

/-- The lines of the banner hold the name of the source document only if an entry does. -/
theorem not_mentions_banner {entries : List String}
    (h : ∀ entry ∈ entries, ¬ Mentions sourceDocument entry) :
    AllTexts (¬ Mentions sourceDocument ·) (banner entries) := by
  have hmark : "// ".toList.all (fun c => decide (c ∉ sourceDocument.toList)) = true := by decide
  refine allTexts_append.2 ⟨allTexts_map_line fun entry hentry hmentions => ?_, .when fun _ => ?_⟩
  · unfold Mentions at hmentions
    rw [String.toList_append] at hmentions
    refine h entry hentry (infix_of_append (by decide) (fun c hmem => ?_) hmentions)
    exact of_decide_eq_true (List.all_eq_true.1 hmark c hmem)
  · exact allTexts_cons.2 ⟨by decide, allTexts_nil⟩

/-- The header of a closed schema without serializers does not hold the name of the source document,
unless the banner does. -/
theorem not_mentions_text {options : Options} {schema : Schema} (h : schema.Closed)
    (hserializers : options.serializers = false)
    (hbanner : ∀ entry ∈ options.banner, ¬ Mentions sourceDocument entry) :
    ¬ Mentions sourceDocument (text options schema) := by
  have hguard (start : String) (hstart : 's' ∉ start.toList) :=
    not_mentions_includeGuard hstart schema.package
  have hpackage (start stop : String) (hle : underscores start + underscores stop ≤ 1) :
      ¬ Mentions sourceDocument (start ++ schema.package ++ stop) := by
    refine not_mentions_of_underscores ?_
    rw [underscores_append, underscores_append, underscores_identifier h.package]
    exact hle
  have hpreamble : AllTexts (¬ Mentions sourceDocument ·) (preamble schema.package options) := by
    simp [preamble]
    exact ⟨hguard _ (by decide), hguard _ (by decide), by decide, not_mentions_banner hbanner,
      by decide, .when fun _ => by decide, by decide, by decide, by decide,
      .when fun _ => by decide, by decide⟩
  have hstructs : AllTexts (¬ Mentions sourceDocument ·)
      (schema.messages.messages.flatMap fun message =>
        .line "" :: struct options.serializers message) := by
    refine allTexts_flatMap fun message hmessage => allTexts_cons.2 ⟨by decide, ?_⟩
    rw [hserializers]
    intro item hitem
    exact not_mentions_of_underscores (underscores_struct (h.spellable message hmessage) item hitem)
  have htexts : AllTexts (¬ Mentions sourceDocument ·) (layout options schema) := by
    simp [layout_eq, opening, closing]
    have hclosing := hpackage "\x7d  // namespace " "" (by decide)
    rw [String.append_empty] at hclosing
    exact ⟨hpreamble, hpackage _ _ (by decide), hstructs, by decide, hclosing, by decide,
      hguard _ (by decide)⟩
  intro hmentions
  obtain ⟨item, hitem, hheld⟩ :=
    exists_mentions_of_render (by decide) (by decide) (by decide) hmentions
  exact htexts item hitem hheld

end Header

/-- Without serializers the lines of a header are those with serializers less some of them. The
structure of every message stands among them, and its methods `Parse` and `Get` have the same lines
in both. If the schema is compiled, the text without serializers holds the name of the source
document only if the banner does. -/
theorem reader_only_header_drops_lines (options : Options) (schema : Schema) :
    (Layout.lines 0 (Header.layout { options with serializers := false } schema)).Sublist
      (Layout.lines 0 (Header.layout { options with serializers := true } schema)) ∧
    (∀ message ∈ schema.messages.messages,
      (∀ serializers, ∃ before after,
        Layout.lines 0 (Header.layout { options with serializers } schema) =
          before ++ Header.structLines serializers message ++ after) ∧
      ∀ serializers,
        Header.methodLines (Header.parseHead message.identifier)
            (Header.structLines serializers message) =
          Layout.lines 1 (Header.parseMethod message) ∧
        Header.methodLines (Header.getHead message.identifier)
            (Header.structLines serializers message) =
          Layout.lines 1 (Header.getMethod message)) ∧
    ∀ (compiled : Options) (source : String),
      (compileSchema compiled source).result = .ok schema →
      (∀ entry ∈ options.banner, ¬ Mentions Header.sourceDocument entry) →
      ¬ Mentions Header.sourceDocument
        (Header.text { options with serializers := false } schema) := by
  refine ⟨Header.sublist_lines_layout options schema, fun message hmessage => ⟨?_, ?_⟩, ?_⟩
  · intro serializers
    exact Header.exists_structLines hmessage { options with serializers }
  · intro serializers
    exact ⟨Header.methodLines_parseHead serializers message,
      Header.methodLines_getHead serializers message⟩
  · intro compiled source hcompiled hbanner
    exact Header.not_mentions_text (closed_of_compileSchema hcompiled) rfl hbanner

/-- The messages of the text are read by the same lines with and without serializers, and the header
without them does not name the source document. -/
theorem shelfText_reader_only :
    (compileSchema .default shelfText).result =
      .ok (SchemaTree.onOneLine "store" shelfMessages).meaning ∧
    (∀ message ∈ shelfMessages, ∀ serializers,
      Header.methodLines (Header.getHead message.identifier)
          (Header.structLines serializers message) =
        Layout.lines 1 (Header.getMethod message)) ∧
    (∀ entry ∈ Options.default.banner, ¬ Mentions Header.sourceDocument entry) ∧
    ¬ Mentions Header.sourceDocument
      (Header.text { Options.default with serializers := false }
        (SchemaTree.onOneLine "store" shelfMessages).meaning) := by
  have hcompiled := compileSchema_shelfText .default
  have hbanner : ∀ entry ∈ Options.default.banner, ¬ Mentions Header.sourceDocument entry := by
    decide
  obtain ⟨-, hmethods, hdocument⟩ :=
    reader_only_header_drops_lines .default (SchemaTree.onOneLine "store" shelfMessages).meaning
  have hmessages : (SchemaTree.onOneLine "store" shelfMessages).meaning.messages.messages =
      shelfMessages := by
    decide
  rw [hmessages] at hmethods
  refine ⟨hcompiled, fun message hmessage serializers => ?_, hbanner,
    hdocument .default shelfText hcompiled hbanner⟩
  exact ((hmethods message hmessage).2 serializers).2

end SchemaCompiler
