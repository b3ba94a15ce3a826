import SchemaCompiler.Header
import SchemaCompiler.Proofs.Table

/-!
# A header structure by structure

The text of a header is what stands before the structures, then one block for each message in the
order of the table, then what stands after them (`Header.text_eq`). A block depends on its message
and on the serializers only. This holds because every structure leaves the levels that it enters
(`Header.nested_struct`) and so ends at the depth where it starts (`Layout.Nested.level`): no line
of one block indents the lines of another.

`Header.emitsBefore_of_lt` draws the conclusion for two messages: the complete structure of the
earlier one stands before the structure of the later one.
-/

namespace SchemaCompiler

namespace Layout

/-- A layout that ends at the depth where it starts, whatever that depth is. -/
def Level (items : List LayoutItem) : Prop :=
  ∀ depth, depthAfter depth items = depth

/-- The text of a layout that starts at the given depth. -/
def renderAt (depth : Nat) (items : List LayoutItem) : String :=
  String.join ((lines depth items).map (· ++ "\n"))

/-- The text of a layout is its text at no depth. -/
theorem render_eq_renderAt (items : List LayoutItem) : render items = renderAt 0 items := rfl

/-- A layout that leaves every level that it enters, and no other one: plain lines and blocks with
nested bodies, one after the other. -/
inductive Nested : List LayoutItem → Prop where
  | nil : Nested []
  | line (text : String) {rest : List LayoutItem} (hrest : Nested rest) :
      Nested (.line text :: rest)
  | block (head tail : String) {body rest : List LayoutItem} (hbody : Nested body)
      (hrest : Nested rest) : Nested (Layout.block head body tail ++ rest)

variable {first second : List LayoutItem}

/-- A plain line is nested. -/
theorem nested_line (text : String) : Nested [.line text] :=
  .line text .nil

/-- Nested layouts are nested one after the other. -/
theorem Nested.append (hfirst : Nested first) (hsecond : Nested second) :
    Nested (first ++ second) := by
  induction hfirst with
  | nil => exact hsecond
  | line text _ ih => exact .line text ih
  | block head tail hbody _ _ ih =>
      rw [List.append_assoc]
      exact .block head tail hbody ih

/-- A block is nested if its body is. -/
theorem Nested.only_block {body : List LayoutItem} (h : Nested body) (head tail : String) :
    Nested (Layout.block head body tail) := by
  have hblock := Nested.block head tail h .nil
  rwa [List.append_nil] at hblock

/-- Lines under a condition are nested if they are. -/
theorem Nested.when (h : Nested first) (condition : Bool) : Nested (when condition first) := by
  cases condition with
  | true => exact h
  | false => exact .nil

/-- Nested layouts are nested one after the other, for each of some values. -/
theorem nested_flatMap {α : Type} {values : List α} {items : α → List LayoutItem}
    (h : ∀ value ∈ values, Nested (items value)) : Nested (values.flatMap items) := by
  induction values with
  | nil => exact .nil
  | cons value rest ih =>
      rw [List.flatMap_cons]
      exact (h value (by simp)).append (ih fun other hother => h other (by simp [hother]))

/-- Plain lines are nested. -/
theorem nested_map_line {α : Type} (values : List α) (text : α → String) :
    Nested (values.map fun value => .line (text value)) := by
  induction values with
  | nil => exact .nil
  | cons value rest ih => exact .line (text value) ih

/-- A nested layout ends at the depth where it starts. -/
theorem Nested.level (h : Nested first) : Level first := by
  intro depth
  induction h generalizing depth with
  | nil => rfl
  | line text _ ih => exact ih depth
  | block head tail _ _ ihbody ih => rw [depthAfter_append, depthAfter_block (ihbody _), ih]

/-- The lines of two layouts are the lines of both if the first one keeps the depth. -/
theorem lines_append_of_level (h : Level first) (depth : Nat) (second : List LayoutItem) :
    lines depth (first ++ second) = lines depth first ++ lines depth second := by
  rw [lines_append, h]

/-- The lines of a block are its first line, its body one level deeper, and its last line. -/
theorem lines_block {body : List LayoutItem} (h : Level body) (depth : Nat)
    (head tail : String) :
    lines depth (block head body tail) =
      indented depth head :: (lines (depth + 1) body ++ [indented depth tail]) := by
  rw [block, lines, lines_append_of_level h]
  rfl

/-- The text of two layouts is the text of both if the first one keeps the depth. -/
theorem renderAt_append (h : Level first) (depth : Nat) (second : List LayoutItem) :
    renderAt depth (first ++ second) = renderAt depth first ++ renderAt depth second := by
  rw [renderAt, lines_append_of_level h, List.map_append, String.join_append]
  rfl

/-- The text of layouts that keep the depth is their texts one after the other. -/
theorem renderAt_flatMap {α : Type} {values : List α} {items : α → List LayoutItem}
    (h : ∀ value ∈ values, Level (items value)) (depth : Nat) :
    renderAt depth (values.flatMap items) =
      String.join (values.map fun value => renderAt depth (items value)) := by
  induction values with
  | nil => rfl
  | cons value rest ih =>
      rw [List.flatMap_cons, renderAt_append (h value (by simp)), List.map_cons, String.join_cons,
        ih fun other hother => h other (by simp [hother])]

/-- Plain lines have the indentation of the depth. -/
theorem lines_map_line {α : Type} (values : List α) (text : α → String) (depth : Nat) :
    lines depth (values.map fun value => .line (text value)) =
      values.map fun value => indented depth (text value) := by
  induction values with
  | nil => rfl
  | cons value rest ih => rw [List.map_cons, List.map_cons, lines, ih]

/-- The text of plain lines is their texts with the indentation of the depth. -/
theorem renderAt_map_line {α : Type} (values : List α) (text : α → String) (depth : Nat) :
    renderAt depth (values.map fun value => .line (text value)) =
      String.join (values.map fun value => indented depth (text value) ++ "\n") := by
  rw [renderAt, lines_map_line, List.map_map]
  rfl

/-- A line at no depth stands as it is. -/
theorem indented_zero (text : String) : indented 0 text = text := by
  unfold indented
  split
  · next hempty => exact hempty.symm
  · exact String.empty_append

/-- The text of a block is its first line, its body one level deeper, and its last line. -/
theorem render_block {body : List LayoutItem} (h : Level body) (head tail : String) :
    render (block head body tail) = head ++ "\n" ++ renderAt 1 body ++ tail ++ "\n" := by
  rw [render, lines_block h]
  simp [indented_zero, renderAt, String.append_assoc]

end Layout

namespace Header

open Layout

/-! ## Every structure is nested -/

/-- The lines that read a field are nested. -/
theorem nested_readField (field : Field) : Nested (readField field) := by
  unfold readField
  cases field.repeated with
  | true => exact .line _ (.line _ (.line _ (Nested.only_block (.line _ (.line _ .nil)) _ _)))
  | false => exact .line _ (.line _ (.line _ (.line _ .nil)))

/-- The lines that write a field are nested. -/
theorem nested_writeField (field : Field) : Nested (writeField field) := by
  unfold writeField
  cases field.repeated with
  | true =>
      have hloop (head text tail : String) : Nested (block head [.line text] tail) :=
        Nested.only_block (.line text .nil) head tail
      exact .line _ (Nested.only_block (.line _ ((hloop _ _ _).append (.line _ .nil))) _ _)
  | false => exact .line _ (.line _ .nil)

/-- The method that reads the members from a text and forgets the text is nested. -/
theorem nested_parseMethod (message : Message) : Nested (parseMethod message) :=
  Nested.only_block (.line _ (.line _ (.line _ (.line _ .nil)))) _ _

/-- The method that reads the members from a text and keeps the document is nested. -/
theorem nested_fromStringMethod (message : Message) : Nested (fromStringMethod message) :=
  Nested.only_block (.line _ (.line _ (.line _ (.line _ .nil)))) _ _

/-- This method with the empty line after it is nested. -/
theorem nested_fromStringPart (message : Message) :
    Nested (fromStringMethod message ++ [.line ""]) :=
  (nested_fromStringMethod message).append (nested_line "")

/-- The lines that read the fields of a message and return it are nested. -/
theorem nested_getBody (message : Message) :
    Nested (message.fields.flatMap readField ++ [.line "return *this;"]) :=
  (nested_flatMap fun field _ => nested_readField field).append (.line _ .nil)

/-- The lines that write the fields of a message and return the value are nested. -/
theorem nested_toValueBody (message : Message) :
    Nested (.line "rapidjson::Value v(rapidjson::kObjectType);" ::
      (message.fields.flatMap writeField ++ [.line "return v;"])) :=
  .line _ ((nested_flatMap fun field _ => nested_writeField field).append (.line _ .nil))

/-- The method that reads the members from a JSON value is nested. -/
theorem nested_getMethod (message : Message) : Nested (getMethod message) :=
  (nested_getBody message).only_block _ _

/-- The method that builds a JSON value is nested. -/
theorem nested_toValueMethod (message : Message) : Nested (toValueMethod message) :=
  (nested_toValueBody message).only_block _ _

/-- The methods that write the members are nested. -/
theorem nested_writeMethods (message : Message) : Nested (writeMethods message) := by
  have hwriter (method writer : String) : Nested (writerMethod method writer) :=
    Nested.only_block (.line _ (.line _ (.line _ (.line _ (.line _ (.line _ .nil)))))) _ _
  refine .line _ ((nested_toValueMethod message).append (.line _ ?_))
  exact (hwriter "ToString" "Writer").append (.line _ (hwriter "ToPrettyString" "PrettyWriter"))

/-- The lines of the members of the fields. -/
def memberLines (message : Message) : List LayoutItem :=
  message.fields.map fun field => .line (field.declaredType ++ " " ++ field.identifier ++ ";")

/-- The lines of a structure after the members of the fields. -/
def afterMembers (serializers : Bool) (message : Message) : List LayoutItem :=
  when serializers [.line ("std::shared_ptr<rapidjson::Document> " ++ sourceDocument ++ ";")] ++
    when (!message.fields.isEmpty || serializers) [.line ""] ++
    parseMethod message ++ [.line ""] ++
    when serializers (fromStringMethod message ++ [.line ""]) ++
    getMethod message ++
    when serializers (writeMethods message)

/-- A structure is a block of the members of the fields and what follows them. -/
theorem struct_eq_block (serializers : Bool) (message : Message) :
    struct serializers message =
      block ("struct " ++ message.identifier ++ " \x7b")
        (memberLines message ++ afterMembers serializers message) "\x7d;" := by
  simp [struct, members, memberLines, afterMembers]

/-- What follows the members of the fields is nested. -/
theorem nested_afterMembers (serializers : Bool) (message : Message) :
    Nested (afterMembers serializers message) := by
  unfold afterMembers
  refine Nested.append ?_ ((nested_writeMethods message).when serializers)
  refine Nested.append ?_ (nested_getMethod message)
  refine Nested.append ?_ ((nested_fromStringPart message).when serializers)
  refine Nested.append (Nested.append ?_ (nested_parseMethod message)) (nested_line "")
  exact ((nested_line _).when serializers).append ((nested_line "").when _)

/-- The members of the fields are nested. -/
theorem nested_memberLines (message : Message) : Nested (memberLines message) :=
  nested_map_line _ _

/-- The body of a structure is nested. -/
theorem nested_structBody (serializers : Bool) (message : Message) :
    Nested (memberLines message ++ afterMembers serializers message) :=
  (nested_memberLines message).append (nested_afterMembers serializers message)

/-- A structure is nested. -/
theorem nested_struct (serializers : Bool) (message : Message) :
    Nested (struct serializers message) := by
  rw [struct_eq_block]
  exact (nested_structBody serializers message).only_block _ _

/-! ## The text of a header -/

/-- The text of the structure of a message. -/
def structText (serializers : Bool) (message : Message) : String :=
  render (struct serializers message)

/-- The text of the member of a field. -/
def memberText (field : Field) : String :=
  "    " ++ field.declaredType ++ " " ++ field.identifier ++ ";\n"

/-- The text of a structure opens with its name, goes on with the members of the fields in their
order, and closes with a brace. -/
theorem structText_eq (serializers : Bool) (message : Message) :
    structText serializers message =
      "struct " ++ message.identifier ++ " \x7b\n" ++
        String.join (message.fields.map memberText) ++
        renderAt 1 (afterMembers serializers message) ++ "\x7d;\n" := by
  have hmembers : renderAt 1 (memberLines message) =
      String.join (message.fields.map memberText) := by
    rw [memberLines, renderAt_map_line]
    refine congrArg String.join (List.map_congr_left fun field _ => ?_)
    rw [indented, if_neg (by simp), memberText]
    simp [String.append_assoc]
  rw [structText, struct_eq_block, render_block (nested_structBody serializers message).level,
    renderAt_append (nested_memberLines message).level, hmembers]
  simp [String.append_assoc]

/-- The structure of a message has the members of its fields. -/
theorem exists_memberText {message : Message} {field : Field} (h : field ∈ message.fields)
    (serializers : Bool) :
    ∃ before after : String,
      structText serializers message = before ++ memberText field ++ after := by
  obtain ⟨earlier, later, hfields⟩ := List.append_of_mem h
  refine ⟨"struct " ++ message.identifier ++ " \x7b\n" ++ String.join (earlier.map memberText),
    String.join (later.map memberText) ++ renderAt 1 (afterMembers serializers message) ++
      "\x7d;\n", ?_⟩
  rw [structText_eq, hfields]
  simp [String.append_assoc]

/-- The lines of a header before the structures. -/
def opening (options : Options) (schema : Schema) : List LayoutItem :=
  preamble schema.package options ++ [.line ("namespace " ++ schema.package ++ " \x7b")]

/-- The lines of a header after the structures. -/
def closing (schema : Schema) : List LayoutItem :=
  [.line "", .line ("\x7d  // namespace " ++ schema.package), .line "",
    .line ("#endif  // " ++ includeGuard schema.package)]

/-- The banner is nested. -/
theorem nested_banner (entries : List String) : Nested (banner entries) :=
  (nested_map_line _ _).append ((nested_line "").when _)

/-- The lines before the namespace are nested. -/
theorem nested_preamble (package : String) (options : Options) :
    Nested (preamble package options) := by
  have hincludes : Nested [.line "#include <memory>", .line "#include <string>"] :=
    .line _ (nested_line _)
  have hwriters : Nested
      [.line "#include \"rapidjson/prettywriter.h\"", .line "#include \"rapidjson/stringbuffer.h\"",
        .line "#include \"rapidjson/writer.h\""] :=
    .line _ (.line _ (nested_line _))
  unfold preamble
  refine Nested.append ?_ (nested_line "")
  refine Nested.append (Nested.append ?_ (.line _ (.line _ (nested_line _)))) (hwriters.when _)
  refine Nested.append ?_ (hincludes.when _)
  refine Nested.append (Nested.append ?_ (nested_banner _)) (nested_line _)
  exact .line _ (.line _ (nested_line _))

/-- The lines before the structures are nested. -/
theorem nested_opening (options : Options) (schema : Schema) :
    Nested (opening options schema) :=
  (nested_preamble schema.package options).append (.line _ .nil)

/-- The text of the structures of messages, with an empty line before each. -/
def structsText (serializers : Bool) (messages : List Message) : String :=
  String.join (messages.map fun message => "\n" ++ structText serializers message)

/-- A header is what stands before the structures, the structures of the messages in the order of
the table, each after an empty line, and what stands after them. -/
theorem layout_eq (options : Options) (schema : Schema) :
    layout options schema =
      opening options schema ++
        (schema.messages.messages.flatMap
            (fun message => .line "" :: struct options.serializers message) ++
          closing schema) := by
  simp [layout, namespaceLines, opening, closing]

/-- A structure after an empty line is nested. -/
theorem nested_structAfterLine (serializers : Bool) (message : Message) :
    Nested (.line "" :: struct serializers message) :=
  .line "" (nested_struct serializers message)

/-- The structures of messages are nested. -/
theorem nested_structs (serializers : Bool) (messages : List Message) :
    Nested (messages.flatMap fun message => .line "" :: struct serializers message) :=
  nested_flatMap fun message _ => nested_structAfterLine serializers message

/-- The text of a header is what stands before the structures, the structures of the messages in
the order of the table, and what stands after them. -/
theorem text_eq (options : Options) (schema : Schema) :
    text options schema =
      render (opening options schema) ++
        structsText options.serializers schema.messages.messages ++ render (closing schema) := by
  have hblock (message : Message) : renderAt 0 (.line "" :: struct options.serializers message) =
      "\n" ++ structText options.serializers message := String.join_cons
  rw [text, layout_eq, render_eq_renderAt, renderAt_append (nested_opening options schema).level,
    renderAt_append (nested_structs _ _).level,
    renderAt_flatMap fun message _ => (nested_structAfterLine _ message).level,
    String.append_assoc]
  simp only [hblock, structsText, render_eq_renderAt]

/-- The structures of messages one after the other. -/
theorem structsText_append (serializers : Bool) (first second : List Message) :
    structsText serializers (first ++ second) =
      structsText serializers first ++ structsText serializers second := by
  rw [structsText, List.map_append, String.join_append]
  rfl

/-- A stretch of the messages appears in a header as their structures, between parts that do not
depend on them. -/
theorem text_eq_of_append (options : Options) (package : String) (before after : List Message)
    {table : MessageTable} {between : List Message}
    (h : table.messages = before ++ between ++ after) :
    text options ⟨package, table⟩ =
      render (opening options ⟨package, .empty⟩) ++ structsText options.serializers before ++
        structsText options.serializers between ++
        (structsText options.serializers after ++ render (closing ⟨package, .empty⟩)) := by
  rw [text_eq, h, structsText_append, structsText_append]
  simp only [String.append_assoc]
  rfl

/-- The complete structure of one message stands before the structure of another in the header. -/
def EmitsBefore (options : Options) (schema : Schema) (earlier later : Message) : Prop :=
  ∃ before between after : String,
    text options schema =
      before ++ structText options.serializers earlier ++ between ++
        structText options.serializers later ++ after

/-- The structure of a message stands before those of the messages after it in the table. -/
theorem emitsBefore_of_lt {schema : Schema} {earlier later : Message} {first second : Nat}
    (hearlier : schema.messages.messages[first]? = some earlier)
    (hlater : schema.messages.messages[second]? = some later) (hlt : first < second)
    (options : Options) : EmitsBefore options schema earlier later := by
  have hsplit : ∃ start between rest : List Message,
      schema.messages.messages = start ++ earlier :: between ++ later :: rest := by
    -- The table is cut before the later message, and the earlier one stands before the cut.
    obtain ⟨hlength, hget⟩ := List.getElem?_eq_some_iff.1 hlater
    have hmem : earlier ∈ schema.messages.messages.take second := by
      refine List.mem_of_getElem? (i := first) ?_
      rw [List.getElem?_take, if_pos hlt, hearlier]
    obtain ⟨start, between, hstart⟩ := List.append_of_mem hmem
    refine ⟨start, between, schema.messages.messages.drop (second + 1), ?_⟩
    rw [← hstart, ← hget, ← List.drop_eq_getElem_cons, List.take_append_drop]
  obtain ⟨start, between, rest, hmessages⟩ := hsplit
  refine ⟨render (opening options schema) ++ structsText options.serializers start ++ "\n",
    structsText options.serializers between ++ "\n",
    structsText options.serializers rest ++ render (closing schema), ?_⟩
  rw [text_eq, hmessages]
  simp [structsText, String.append_assoc]

end Header

/-! ## The main result -/

/-- A header is what depends on the package and the options, then the structure of each message
after an empty line, then what depends on the package. So a change to some of the messages changes
the text of their structures only, and storing a message in a table replaces the structure of the
message that is given back, or adds one. -/
theorem header_is_composed_of_blocks :
    ∃ (opening : String → Options → String) (block : Message → Bool → String)
      (closing : String → String),
      (∀ (options : Options) (schema : Schema),
        Header.text options schema =
          opening schema.package options ++
            String.join (schema.messages.messages.map
              fun message => "\n" ++ block message options.serializers) ++
            closing schema.package) ∧
      (∀ (options : Options) (package : String) (before after : List Message),
        ∃ start stop : String, ∀ (index : Std.ExtTreeMap String Nat compare)
          (between : List Message),
          Header.text options ⟨package, ⟨index, before ++ between ++ after⟩⟩ =
            start ++
              String.join (between.map
                fun message => "\n" ++ block message options.serializers) ++
              stop) ∧
      ∀ (options : Options) (package : String) (declared : List Message) (message : Message),
        ∃ start stop : String,
          Header.text options ⟨package, .ofList declared⟩ =
            start ++
              String.join (((MessageTable.ofList declared).put message).1.toList.map
                fun replaced => "\n" ++ block replaced options.serializers) ++
              stop ∧
          Header.text options ⟨package, (MessageTable.ofList declared).insert message⟩ =
            start ++ ("\n" ++ block message options.serializers) ++ stop := by
  refine ⟨fun package options => Layout.render (Header.opening options ⟨package, .empty⟩),
    fun message serializers => Header.structText serializers message,
    fun package => Layout.render (Header.closing ⟨package, .empty⟩), Header.text_eq, ?_, ?_⟩
  · intro options package before after
    exact ⟨_, _, fun index between => Header.text_eq_of_append options package before after rfl⟩
  · intro options package declared message
    obtain ⟨before, after, hbefore, hafter⟩ :=
      (MessageTable.indexed_ofList declared).exists_messages_insert message
    refine ⟨_, _, Header.text_eq_of_append options package before after hbefore, ?_⟩
    have hstored := Header.text_eq_of_append options package before after
      (hafter.trans (List.append_cons before message after))
    rw [hstored]
    simp [Header.structsText]

end SchemaCompiler
