import Mathlib.Data.List.Dedup
import SchemaCompiler.Proofs.StructReading

/-!
# Which names fields have

The methods of a structure use its members by the names of the fields, beside names that the header
binds itself. `Message.FreeOfCapture` says that none of them is taken for another one. The names
that are bound beside a field (`Field.boundNames`) are those which are read off the lines of the
methods (`Header.mem_boundNames_iff`).

Only a part of this holds of every message that is compiled: no field is called like the source
document, since no identifier has an underscore. Apart from that,
`field_names_are_any_identifiers` says that fields can have any names. So two fields can have the
same name, and a field can be called like a parameter or a local of a method or like the type of a
member (`capturedText_captures_fields`).

A given message is compiled from a text that declares the messages which it uses first, without
fields (`Message.withUsed`).
-/

namespace SchemaCompiler

/-- The names that the header binds where it uses the member of a field: the value that `Get` reads
and `ToValue` builds, the allocator of `ToValue`, and around a list its items and the array that
they are written to. -/
def Field.boundNames (field : Field) : List String :=
  ["v", "allocator"] ++ if field.repeated then ["i", "array"] else []

/-! ## Names that the lines of a method bind -/

/-- The name of the parameter in the head of a method: what stands before the first closing bracket
and after the last space before it. -/
def Text.parameter? (head : String) : Option String :=
  if ')' ∈ head.toList then
    some (String.ofList ((head.toList.takeWhile (· != ')')).rtakeWhile (· != ' ')))
  else none

/-- The parameter stands between the last space and the first closing bracket. -/
theorem Text.parameter?_eq_some {start word rest : String} (hstart : ')' ∉ start.toList)
    (hword : ')' ∉ word.toList) (hspace : ' ' ∉ word.toList)
    (hrest : rest.toList.head? = some ')') :
    Text.parameter? (start ++ " " ++ word ++ rest) = some word := by
  obtain ⟨more, hmore⟩ := List.head?_eq_some_iff.1 hrest
  have hlist : (start ++ " " ++ word ++ rest).toList =
      (start.toList ++ ' ' :: word.toList) ++ ')' :: more := by
    simp [hmore]
  have hbefore : ∀ c ∈ start.toList ++ ' ' :: word.toList, (c != ')') = true := by
    intro c hmem
    refine bne_iff_ne.2 fun hbracket => ?_
    subst hbracket
    rcases List.mem_append.1 hmem with hfirst | hlast
    · exact hstart hfirst
    · exact hword (List.mem_of_ne_of_mem (by decide) hlast)
  have hname : ∀ c ∈ word.toList, (c != ' ') = true :=
    fun c hmem => bne_iff_ne.2 fun heq => hspace (heq ▸ hmem)
  rw [parameter?, hlist, if_pos (List.mem_append_right _ List.mem_cons_self),
    List.takeWhile_append_of_pos hbefore, List.takeWhile_cons_of_neg (by simp), List.append_nil,
    rtakeWhile_append_cons hname (by simp), String.ofList_toList]

namespace LayoutItem

/-- The name that a line of a method binds: a local value, the items of a loop, or the parameter. -/
def boundName? : LayoutItem → Option String
  | line text => Text.wordAfter? "rapidjson::Value " '(' text
  | enter text => (Text.wordAfter? "for (auto&& " ' ' text).or (Text.parameter? text)
  | leave _ => none

/-- A line that starts in another way than with the type of a JSON value binds no name. -/
theorem boundName?_line {text : String} (h : ¬ "rapidjson::Value ".toList <+: text.toList) :
    (line text).boundName? = none :=
  Text.wordAfter?_eq_none h

/-- A line that starts with a name after which no colon stands binds no name. -/
theorem boundName?_name {name rest : String} (h : IsIdentifier name) {c : Char}
    (hrest : rest.toList.head? = some c) (hpart : isIdentifierPart c = false) (hc : ':' ≠ c) :
    (line (name ++ rest)).boundName? = none :=
  boundName?_line (h.not_isPrefix_append hrest hpart (by decide) hc)

/-- The first line of a loop binds its items. -/
theorem boundName?_loop (rest : String) :
    (enter ("for (auto&& i : " ++ rest)).boundName? = some "i" := by
  have hsplit : "for (auto&& i : " ++ rest = "for (auto&& " ++ "i" ++ (" : " ++ rest) :=
    String.toList_inj.1 (by simp)
  rw [boundName?, hsplit, Text.wordAfter?_eq_some (by decide) (by simp), Option.some_or]

/-- A line that declares a JSON value binds its name. -/
theorem boundName?_value {word rest : String} (hword : '(' ∉ word.toList)
    (hrest : rest.toList.head? = some '(') :
    (line ("rapidjson::Value " ++ word ++ rest)).boundName? = some word :=
  Text.wordAfter?_eq_some hword hrest

/-- The head of a method binds its parameter. -/
theorem boundName?_head {start word rest : String}
    (hloop : ¬ "for (auto&& ".toList <+: (start ++ " " ++ word ++ rest).toList)
    (hstart : ')' ∉ start.toList) (hword : ')' ∉ word.toList) (hspace : ' ' ∉ word.toList)
    (hrest : rest.toList.head? = some ')') :
    (enter (start ++ " " ++ word ++ rest)).boundName? = some word := by
  rw [boundName?, Text.wordAfter?_eq_none hloop, Option.none_or,
    Text.parameter?_eq_some hstart hword hspace hrest]

/-- The last line of a block binds no name. -/
theorem boundName?_leave (text : String) : (leave text).boundName? = none := rfl

end LayoutItem

/-- The names that the lines of a layout bind. -/
def Layout.boundNames (items : List LayoutItem) : List String :=
  items.filterMap LayoutItem.boundName?

namespace Header

open Layout LayoutItem

/-- The names that two layouts bind. -/
theorem boundNames_append (first second : List LayoutItem) :
    boundNames (first ++ second) = boundNames first ++ boundNames second :=
  List.filterMap_append

/-- A block binds a name in its first line, and the names of its body. -/
theorem boundNames_block {head name : String} (h : (enter head).boundName? = some name)
    (body : List LayoutItem) (tail : String) :
    boundNames (block head body tail) = name :: boundNames body := by
  have htail : boundNames [leave tail] = [] := rfl
  rw [block, boundNames, List.filterMap_cons_some h]
  exact congrArg (name :: ·) (by rw [← boundNames, boundNames_append, htail, List.append_nil])

/-- The lines that read a field bind the items of a list. -/
theorem boundNames_readField {field : Field} (h : field.Spellable) :
    boundNames (readField field) = if field.repeated then ["i"] else [] := by
  have hpoint : isIdentifierPart '.' = false := by decide
  have hspace : isIdentifierPart ' ' = false := isIdentifierPart_of_isLayout rfl
  unfold readField
  cases field.repeated with
  | true =>
      have hitem : (line (field.identifier ++ ".emplace_back(" ++ field.type.extraction "i" ++
          ");")).boundName? = none := by
        rw [String.append_assoc, String.append_assoc]
        exact boundName?_name h.name (by simp) hpoint (by simp)
      have hloop : (enter ("for (auto&& i : " ++ ("v[\"" ++ field.identifier ++ "\"]") ++
          ".GetArray()) \x7b")).boundName? = some "i" := by
        rw [String.append_assoc]
        exact boundName?_loop _
      simp [boundNames, block, boundName?_line, boundName?_leave, hitem, hloop]
  | false =>
      have hmember (value : String) : (line (field.identifier ++ " = " ++
          field.type.extraction value ++ ";")).boundName? = none := by
        rw [String.append_assoc, String.append_assoc]
        exact boundName?_name h.name (by simp) hspace (by simp)
      simp [boundNames, boundName?_line, hmember]

/-- The lines that write a field bind the array for a list and its items. -/
theorem boundNames_writeField (field : Field) :
    boundNames (writeField field) = if field.repeated then ["array", "i"] else [] := by
  unfold writeField
  cases field.repeated with
  | true =>
      have hopen : (enter "\x7b").boundName? = none := by decide
      have harray : (line "rapidjson::Value array(rapidjson::kArrayType);").boundName? =
          some "array" :=
        show (line ("rapidjson::Value " ++ "array" ++ "(rapidjson::kArrayType);")).boundName? = _
          from boundName?_value (by decide) (by decide)
      have hloop : (enter ("for (auto&& i : " ++ field.identifier ++ ") \x7b")).boundName? =
          some "i" := by
        rw [String.append_assoc]
        exact boundName?_loop _
      simp [boundNames, block, boundName?_line, boundName?_leave, hopen, harray, hloop]
  | false => simp [boundNames, boundName?_line]

/-- The head of the method that reads a message binds the value. -/
theorem boundName?_getHead {name : String} (h : IsIdentifier name) :
    (enter (getHead name)).boundName? = some "v" := by
  have hand : isIdentifierPart '&' = false := by decide
  have hhead : getHead name =
      name ++ "& Get(const rapidjson::Value&" ++ " " ++ "v" ++ ") \x7b" := by
    simp only [getHead, String.append_assoc]
    rfl
  have hloop : ¬ "for (auto&& ".toList <+: (getHead name).toList :=
    h.not_isPrefix_append (by simp) hand (by decide) (show ' ' ≠ '&' by decide)
  have hbracket : ')' ∉ (name ++ "& Get(const rapidjson::Value&").toList := by
    have hname : ')' ∉ name.toList := h.notMem (by decide)
    simp [hname]
  rw [hhead] at hloop ⊢
  exact boundName?_head hloop hbracket (by decide) (by decide) (by simp)

/-- The head of the method that builds a JSON value binds the allocator. -/
theorem boundName?_toValueHead : (enter toValueHead).boundName? = some "allocator" := by
  have hhead : toValueHead = "rapidjson::Value ToValue(rapidjson::Document::AllocatorType&" ++
      " " ++ "allocator" ++ ") const \x7b" := rfl
  rw [hhead]
  exact boundName?_head (by simp) (by simp) (by decide) (by decide) (by simp)

/-- The method that reads a message binds the value, and the items of each list. -/
theorem boundNames_getMethod {message : Message} (h : message.Spellable) :
    boundNames (getMethod message) =
      "v" :: message.fields.flatMap fun field => if field.repeated then ["i"] else [] := by
  have hfields : boundNames (message.fields.flatMap readField) =
      message.fields.flatMap fun field => if field.repeated then ["i"] else [] := by
    rw [boundNames, List.filterMap_flatMap]
    exact List.flatMap_congr fun field hfield => boundNames_readField (h.fields field hfield)
  have hlast : boundNames [line "return *this;"] = [] := by decide
  refine (boundNames_block (boundName?_getHead h.name) _ _).trans ?_
  rw [boundNames_append, hfields, hlast, List.append_nil]

/-- The method that builds a JSON value binds the allocator and the value, and for each list the
array and its items. -/
theorem boundNames_toValueMethod (message : Message) :
    boundNames (toValueMethod message) = "allocator" :: "v" ::
      message.fields.flatMap fun field => if field.repeated then ["array", "i"] else [] := by
  have hvalue : (line ("rapidjson::Value " ++ "v" ++ "(rapidjson::kObjectType);")).boundName? =
      some "v" := boundName?_value (by decide) (by decide)
  have hfields : boundNames (message.fields.flatMap writeField) =
      message.fields.flatMap fun field => if field.repeated then ["array", "i"] else [] := by
    rw [boundNames, List.filterMap_flatMap]
    exact List.flatMap_congr fun field _ => boundNames_writeField field
  have hlast : boundNames [line "return v;"] = [] := by decide
  have hbody : boundNames (line "rapidjson::Value v(rapidjson::kObjectType);" ::
      (message.fields.flatMap writeField ++ [line "return v;"])) = "v" ::
        boundNames (message.fields.flatMap writeField ++ [line "return v;"]) :=
    List.filterMap_cons_some hvalue
  refine (boundNames_block boundName?_toValueHead _ _).trans ?_
  rw [hbody, boundNames_append, hfields, hlast, List.append_nil]

/-- The bound names of a field are those which the methods bind that read and build a message with
this field only. -/
theorem mem_boundNames_iff {field : Field} (h : field.Spellable) {identifier : String}
    (hidentifier : IsIdentifier identifier) {name : String} :
    name ∈ field.boundNames ↔ name ∈ boundNames (getMethod ⟨identifier, [field]⟩) ∨
      name ∈ boundNames (toValueMethod ⟨identifier, [field]⟩) := by
  have hspellable : Message.Spellable ⟨identifier, [field]⟩ :=
    ⟨hidentifier, List.forall_mem_singleton.2 h⟩
  rw [boundNames_getMethod hspellable, boundNames_toValueMethod, Field.boundNames]
  cases hrepeated : field.repeated <;> simp [hrepeated] <;> tauto

end Header

/-! ## Names of fields -/

namespace Message

/-- In the structure of a message no name is taken for another one: no two fields have the same
name, and no field is called like the member that owns the document, like a name that is bound where
its member is used, or like the type of a member. -/
structure FreeOfCapture (message : Message) : Prop where
  distinct : (message.fields.map Field.identifier).Nodup
  document : ∀ field ∈ message.fields, field.identifier ≠ Header.sourceDocument
  bound : ∀ field ∈ message.fields, field.identifier ∉ field.boundNames
  types : ∀ field ∈ message.fields, ∀ other ∈ message.fields,
    other.type ≠ .message field.identifier

/-- A header of some text has the structure of the message. -/
def IsCompiled (options : Options) (message : Message) : Prop :=
  ∃ text header schema, (compileHeader options text).result = .ok header ∧
    (compileSchema options text).result = .ok schema ∧ message ∈ schema.messages.messages

/-- The names of the messages that the fields of a message use. -/
def usedNames (message : Message) : List String :=
  message.fields.filterMap fun field =>
    match field.type with
    | .primitive _ => none
    | .message name => some name

/-- A message after declarations of the messages that it uses, without fields. -/
def withUsed (message : Message) : List Message :=
  message.usedNames.dedup.map (⟨·, []⟩) ++ [message]

/-- The used names are those of the message types. -/
theorem mem_usedNames {message : Message} {name : String} :
    name ∈ message.usedNames ↔ ∃ field ∈ message.fields, field.type = .message name := by
  rw [usedNames, List.mem_filterMap]
  refine exists_congr fun field => and_congr_right fun _ => ?_
  cases field.type <;> simp

/-- The message and those that it uses can be spelled if the message can be. -/
theorem Spellable.withUsed {message : Message} (h : message.Spellable) :
    ∀ declared ∈ message.withUsed, declared.Spellable := by
  intro declared hmem
  rcases List.mem_append.1 hmem with hused | hself
  · obtain ⟨name, hname, rfl⟩ := List.mem_map.1 hused
    obtain ⟨field, hfield, htype⟩ := mem_usedNames.1 (List.mem_dedup.1 hname)
    exact ⟨(h.fields field hfield).type name htype, by simp⟩
  · rwa [List.mem_singleton.1 hself]

/-- A message after those that it uses is admissible, unless it uses itself and redefinitions are
not allowed. -/
theorem admissible_withUsed {allowRedefinition : Bool} {message : Message}
    (h : allowRedefinition = false → message.identifier ∉ message.usedNames) (package : String) :
    (SchemaTree.onOneLine package message.withUsed).Admissible allowRedefinition := by
  constructor
  · show MessageTree.ScopedAfter [] (message.withUsed.map Message.tree)
    rw [withUsed, List.map_append, List.map_singleton, MessageTree.scopedAfter_snoc]
    constructor
    · -- The used messages are declared without fields.
      refine MessageTree.scopedAfter_of_forall fun tree hmem => ?_
      simp only [List.map_map, List.mem_map] at hmem
      obtain ⟨name, -, rfl⟩ := hmem
      exact scoped_tree fun field hfield => by cases hfield
    · refine scoped_tree fun field hfield name htype => ?_
      have hused : name ∈ message.usedNames := mem_usedNames.2 ⟨field, hfield, htype⟩
      simpa [tree] using hused
  · intro hallow
    have hnames : message.withUsed.map Message.identifier =
        message.usedNames.dedup ++ [message.identifier] := by
      simp [withUsed, Function.comp_def]
    rw [SchemaTree.names_onOneLine, hnames]
    refine (List.nodup_dedup _).append (List.nodup_singleton _) ?_
    exact List.disjoint_singleton.2 fun hmem => h hallow (List.mem_dedup.1 hmem)

/-- A message that can be spelled is compiled from some text, unless it uses itself and
redefinitions are not allowed. -/
theorem Spellable.isCompiled {options : Options} {message : Message} (h : message.Spellable)
    (hself : options.allowRedefinition = false → message.identifier ∉ message.usedNames) :
    message.IsCompiled options := by
  have hpackage : IsIdentifier "p" := by decide
  have hmessages : (SchemaTree.onOneLine "p" message.withUsed).messages ≠ [] := by
    simp [SchemaTree.onOneLine, Message.withUsed]
  have hinOrder := Token.inOrder_of_onFirstLine
    (SchemaTree.onFirstLine_onOneLine hpackage h.withUsed)
  have hcompiled := SchemaTree.compileSchema_layOut (admissible_withUsed hself "p") hmessages
    hinOrder
  refine ⟨_, _, _, compileHeader_of_compileSchema hcompiled, hcompiled, ?_⟩
  -- The message is the last declaration of its name.
  rw [SchemaTree.meaning, SchemaTree.declarations_onOneLine _ h.withUsed]
  exact mem_lastDeclarations.2 (lastDeclaration?_snoc_self _ message)

/-- A message that is compiled can be spelled. -/
theorem IsCompiled.spellable {options : Options} {message : Message}
    (h : message.IsCompiled options) : message.Spellable := by
  obtain ⟨text, header, schema, -, hschema, hmem⟩ := h
  exact (closed_of_compileSchema hschema).spellable message hmem

/-- Without redefinitions a message that is compiled does not use itself. -/
theorem IsCompiled.notMem_usedNames {options : Options} {message : Message}
    (h : message.IsCompiled options) (hallow : options.allowRedefinition = false) :
    message.identifier ∉ message.usedNames := by
  obtain ⟨text, header, schema, -, hschema, hmem⟩ := h
  obtain ⟨tree, hadmissible, -, -, rfl⟩ := exists_tree_of_compileSchema hschema
  rw [hallow] at hadmissible
  intro hself
  obtain ⟨field, hfield, htype⟩ := mem_usedNames.1 hself
  have hacyclic := hadmissible.definesBeforeUse.acyclic tree.indexed_meaning.names_nodup
  exact hacyclic message.identifier (.single ⟨message, hmem, rfl, field, hfield, htype⟩)

/-- No field of a message that can be spelled is called like the source document. -/
theorem Spellable.ne_sourceDocument {message : Message} (h : message.Spellable) {field : Field}
    (hfield : field ∈ message.fields) : field.identifier ≠ Header.sourceDocument := by
  intro hname
  have hidentifier := (h.fields field hfield).name
  rw [hname] at hidentifier
  have hpart : isIdentifierPart '_' = true := hidentifier.isIdentifierPart_of_mem (by decide)
  revert hpart
  decide

end Message

/-- The fields of compiled messages can have any names that are identifiers. A message is compiled
from some text exactly when its names can be spelled and, without redefinitions, it has no field of
its own type. So a header never takes a field for the source document, and is free of capture only
if the schema avoids the other names itself. -/
theorem field_names_are_any_identifiers (options : Options) (message : Message) :
    (message.IsCompiled options ↔ message.Spellable ∧
      (options.allowRedefinition = false →
        ∀ field ∈ message.fields, field.type ≠ .message message.identifier)) ∧
    (message.IsCompiled options →
      ∀ field ∈ message.fields, field.identifier ≠ Header.sourceDocument) ∧
    (message.IsCompiled options →
      (message.FreeOfCapture ↔
        (message.fields.map Field.identifier).Nodup ∧
        (∀ field ∈ message.fields, field.identifier ∉ field.boundNames) ∧
        ∀ field ∈ message.fields, ∀ other ∈ message.fields,
          other.type ≠ .message field.identifier)) := by
  have hself : message.identifier ∉ message.usedNames ↔
      ∀ field ∈ message.fields, field.type ≠ .message message.identifier := by
    simp only [Message.mem_usedNames, not_exists, not_and]
  refine ⟨⟨fun h => ⟨h.spellable, fun hallow => hself.1 (h.notMem_usedNames hallow)⟩,
    fun h => h.1.isCompiled fun hallow => hself.2 (h.2 hallow)⟩,
    fun h field hfield => h.spellable.ne_sourceDocument hfield, fun h => ⟨?_, ?_⟩⟩
  · exact fun hfree => ⟨hfree.distinct, hfree.bound, hfree.types⟩
  · rintro ⟨hdistinct, hbound, htypes⟩
    exact ⟨hdistinct, fun field hfield => h.spellable.ne_sourceDocument hfield, hbound, htypes⟩

/-- A message with two fields of one name, with fields called like the names that the header binds,
and with a field called like its own type. -/
def capturedMessage : Message :=
  ⟨"M", [⟨"v", .primitive .bool, false, "bool"⟩, ⟨"v", .primitive .bool, false, "bool"⟩,
    ⟨"allocator", .primitive .string, false, "const char *"⟩,
    ⟨"i", .primitive .bool, true, "bool"⟩, ⟨"array", .primitive .bool, true, "bool"⟩,
    ⟨"A", .message "A", false, "A"⟩]⟩

/-- A text that declares the message. -/
def capturedText : String :=
  "package p; message A \x7b\x7d message M \x7b bool v; bool v; string allocator; " ++
    "repeated bool i; repeated bool array; A A; \x7d"

/-- The text is compiled with serializers, and names of the header are taken for fields and fields
for each other in every way but one. -/
theorem capturedText_captures_fields :
    Options.default.serializers = true ∧
    (∃ header schema, (compileHeader .default capturedText).result = .ok header ∧
      (compileSchema .default capturedText).result = .ok schema ∧
      capturedMessage ∈ schema.messages.messages) ∧
    ¬ capturedMessage.FreeOfCapture ∧
    ¬ (capturedMessage.fields.map Field.identifier).Nodup ∧
    (∀ name ∈ ["v", "allocator", "i", "array"],
      ∃ field ∈ capturedMessage.fields, field.identifier = name ∧ name ∈ field.boundNames) ∧
    (∃ field ∈ capturedMessage.fields, field.type = .message field.identifier) := by
  have hscan : Token.scan capturedText =
      .ok ((SchemaTree.onOneLine "p" [⟨"A", []⟩, capturedMessage]).tokens ++ [.endOfInput]) := by
    decide +kernel
  have hcompiled : (compileSchema .default capturedText).result =
      .ok (SchemaTree.onOneLine "p" [⟨"A", []⟩, capturedMessage]).meaning := by
    refine compileSchema_eq_ok_iff.2 ⟨_, hscan, Schema.ofTokens_eq_ok.2
      ⟨_, [.endOfInput], rfl, rfl, by simp [SchemaTree.onOneLine], ⟨?_, fun _ => by decide⟩, rfl⟩⟩
    simp [SchemaTree.onOneLine, Message.tree, Field.tree, FieldType.tree, capturedMessage,
      MessageTree.ScopedAfter, MessageTree.Scoped, TypeTree.Scoped]
  have htwice : ¬ (capturedMessage.fields.map Field.identifier).Nodup := by decide
  exact ⟨rfl, ⟨_, _, compileHeader_of_compileSchema hcompiled, hcompiled, by decide⟩,
    fun hfree => htwice hfree.distinct, htwice, by decide, by decide⟩

end SchemaCompiler
