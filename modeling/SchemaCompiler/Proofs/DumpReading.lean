import SchemaCompiler.Proofs.ClosedSchema
import SchemaCompiler.Proofs.JsonReading

/-!
# A schema is read back from its dump

`Schema.ofDump?` is a decoder for schema dumps. It reads the text as a JSON value and looks up the
members that a dump has at each level: the package and the messages of a schema, the name and the
elements of a message, the four parts of a field. A type is a string if it is primitive and an
object with the one key `Custom` if it is a message. The table of a schema is built anew from the
list of its messages, since a dump does not show the index of the names.

Each part is read back from its printed form. For a schema this needs that the index is the one that
its messages give and that no name is taken twice, which holds of every compiled schema.
-/

namespace SchemaCompiler

/-! ## Parts of JSON values -/

namespace Json.Value

/-- The value of a member of an object. -/
@[simp]
def member? (key : String) : Value → Option Value
  | object members => members.lookup key
  | _ => none

/-- The content of a string. -/
@[simp]
def text? : Value → Option String
  | text content => some content
  | _ => none

/-- The truth value that a value is. -/
@[simp]
def flag? : Value → Option Bool
  | flag value => some value
  | _ => none

/-- The items of a list. -/
@[simp]
def items? : Value → Option (List Value)
  | list items => some items
  | _ => none

end Json.Value

/-! ## The decoder -/

/-- The primitive type with the given name in a dump. -/
def Primitive.ofName? (name : String) : Option Primitive :=
  all.find? (·.name == name)

/-- The field type that a value of a dump stands for. -/
def FieldType.ofJson? : Json.Value → Option FieldType
  | .text name => (Primitive.ofName? name).map primitive
  | .object [("Custom", .text name)] => some (message name)
  | _ => none

/-- The field that a value of a dump stands for. -/
def Field.ofJson? (value : Json.Value) : Option Field := do
  let identifier ← (← value.member? "identifier").text?
  let type ← FieldType.ofJson? (← value.member? "kind")
  let label ← (← value.member? "kind_label").text?
  let repeated ← (← value.member? "repeated").flag?
  return { identifier, type, repeated, label }

/-- The message that a value of a dump stands for. -/
def Message.ofJson? (value : Json.Value) : Option Message := do
  let identifier ← (← value.member? "identifier").text?
  let fields ← (← (← value.member? "elements").items?).mapM Field.ofJson?
  return { identifier, fields }

/-- The schema that a value of a dump stands for. -/
def Schema.ofJson? (value : Json.Value) : Option Schema := do
  let package ← (← value.member? "package").text?
  let messages ← (← (← value.member? "messages").items?).mapM Message.ofJson?
  return { package, messages := .ofList messages }

/-- The schema of a dump. -/
def Schema.ofDump? (dump : String) : Option Schema :=
  (Json.Value.ofText? dump).bind ofJson?

/-! ## Each part is read back -/

/-- A primitive type is read back from its name. -/
theorem Primitive.ofName?_name (type : Primitive) : ofName? type.name = some type := by
  cases type <;> rfl

/-- A list is read back item by item. -/
theorem mapM_map_of_forall {Item : Type} {print : Item → Json.Value}
    {read : Json.Value → Option Item} (h : ∀ item, read (print item) = some item)
    (items : List Item) : (items.map print).mapM read = some items := by
  induction items with
  | nil => rfl
  | cons item items ih => simp [h, ih]

/-- A field type is read back. -/
theorem FieldType.ofJson?_toJson (type : FieldType) : ofJson? type.toJson = some type := by
  cases type with
  | primitive type => rw [toJson, ofJson?, Primitive.ofName?_name, Option.map_some]
  | message name => rfl

/-- A type is the name of a primitive type or an object that names the message. -/
theorem FieldType.ofJson?_eq_some_iff {kind : Json.Value} {type : FieldType} :
    ofJson? kind = some type ↔
      (∃ basic : Primitive, type = .primitive basic ∧ kind = .text basic.name) ∨
      ∃ name, type = .message name ∧ kind = .object [("Custom", .text name)] := by
  constructor
  · intro h
    unfold ofJson? at h
    split at h
    · next content =>
      obtain ⟨basic, hfind, rfl⟩ := Option.map_eq_some_iff.1 h
      have hname : basic.name = content := by simpa using List.find?_some hfind
      exact .inl ⟨basic, rfl, by rw [hname]⟩
    · next name =>
      cases h
      exact .inr ⟨name, rfl, rfl⟩
    · cases h
  · rintro (⟨basic, rfl, rfl⟩ | ⟨name, rfl, rfl⟩)
    · exact ofJson?_toJson (.primitive basic)
    · exact ofJson?_toJson (.message name)

/-- A field is read back. -/
theorem Field.ofJson?_toJson (field : Field) : ofJson? field.toJson = some field := by
  have htype := field.type.ofJson?_toJson
  simp [ofJson?, toJson, List.lookup_cons, htype]

/-- A message is read back. -/
theorem Message.ofJson?_toJson (message : Message) : ofJson? message.toJson = some message := by
  have hfields := mapM_map_of_forall Field.ofJson?_toJson message.fields
  simp [ofJson?, toJson, List.lookup_cons, hfields]

/-- A table is built anew from its messages. -/
theorem Schema.Closed.ofList_messages {schema : Schema} (h : schema.Closed) :
    MessageTable.ofList schema.messages.messages = schema.messages := by
  rw [MessageTable.ofList_eq_listing, lastDeclarations_of_nodup h.distinct, ← h.listed]

/-- A closed schema is read back. -/
theorem Schema.Closed.ofJson?_toJson {schema : Schema} (h : schema.Closed) :
    Schema.ofJson? schema.toJson = some schema := by
  have hmessages := mapM_map_of_forall Message.ofJson?_toJson schema.messages.messages
  simp [Schema.ofJson?, toJson, List.lookup_cons, hmessages, h.ofList_messages]

/-- A closed schema is read back from its dump. -/
theorem Schema.Closed.ofDump?_dump {schema : Schema} (h : schema.Closed) :
    Schema.ofDump? schema.dump = some schema := by
  rw [ofDump?, dump, Json.Value.ofText?_render, Option.bind_some, h.ofJson?_toJson]

/-! ## The main result -/

/-- Every text that is compiled has a dump, and the schema is decoded from it: the package, the
messages in order with the index of their names, and all parts of the fields. So two compiled
schemas have the same dump exactly when they are the same. As a type the decoder takes the name of a
primitive type or an object that names the message, and nothing else. -/
theorem compiled_schema_decoded_from_dump :
    (∀ (options : Options) (text : String) (schema : Schema),
      (compileSchema options text).result = .ok schema →
      ∃ dump, (compileDump options text).result = .ok dump ∧ Schema.ofDump? dump = some schema) ∧
    (∀ (firstOptions secondOptions : Options) (firstText secondText : String)
      (first second : Schema),
      (compileSchema firstOptions firstText).result = .ok first →
      (compileSchema secondOptions secondText).result = .ok second →
      ((compileDump firstOptions firstText).result =
        (compileDump secondOptions secondText).result ↔ first = second)) ∧
    ∀ (kind : Json.Value) (type : FieldType), FieldType.ofJson? kind = some type ↔
      (∃ basic : Primitive, type = .primitive basic ∧ kind = .text basic.name) ∨
      ∃ name, type = .message name ∧ kind = .object [("Custom", .text name)] := by
  refine ⟨?_, ?_, fun kind type => FieldType.ofJson?_eq_some_iff⟩
  · intro options text schema hschema
    exact ⟨schema.dump, compileDump_of_compileSchema hschema,
      (closed_of_compileSchema hschema).ofDump?_dump⟩
  · intro firstOptions secondOptions firstText secondText first second hfirst hsecond
    rw [compileDump_of_compileSchema hfirst, compileDump_of_compileSchema hsecond]
    constructor
    · intro hsame
      have hdecoded := (closed_of_compileSchema hfirst).ofDump?_dump
      rw [Except.ok.inj hsame, (closed_of_compileSchema hsecond).ofDump?_dump] at hdecoded
      exact (Option.some.inj hdecoded).symm
    · rintro rfl
      rfl

/-- A text of `mutualSchema`: the first message is declared without fields, and again after the
second one. -/
def mutualText : String :=
  "package p;message A\x7b\x7dmessage B\x7brepeated A a;\x7dmessage A\x7bB b;\x7d"

/-- A text of one message without fields. -/
def emptyMessageText : String :=
  "package p;message A\x7b\x7d"

/-- Messages that use each other are decoded from the dump of their text, which is not the dump of
the first declaration alone. -/
theorem mutualText_decoded_from_dump :
    (∃ dump, (compileDump { Options.default with allowRedefinition := true } mutualText).result =
      .ok dump ∧ Schema.ofDump? dump = some mutualSchema) ∧
    (compileDump { Options.default with allowRedefinition := true } mutualText).result ≠
      (compileDump .default emptyMessageText).result := by
  have hscan : Token.scan mutualText =
      .ok [.reserved "package" 1, ⟨"p", .identifier, 1⟩, .reserved ";" 1,
        .reserved "message" 1, ⟨"A", .identifier, 1⟩, .reserved "\x7b" 1, .reserved "\x7d" 1,
        .reserved "message" 1, ⟨"B", .identifier, 1⟩, .reserved "\x7b" 1,
        .reserved "repeated" 1, ⟨"A", .identifier, 1⟩, ⟨"a", .identifier, 1⟩, .reserved ";" 1,
        .reserved "\x7d" 1,
        .reserved "message" 1, ⟨"A", .identifier, 1⟩, .reserved "\x7b" 1,
        ⟨"B", .identifier, 1⟩, ⟨"b", .identifier, 1⟩, .reserved ";" 1, .reserved "\x7d" 1,
        .endOfInput] := by
    decide +kernel
  have hotherScan : Token.scan emptyMessageText =
      .ok [.reserved "package" 1, ⟨"p", .identifier, 1⟩, .reserved ";" 1,
        .reserved "message" 1, ⟨"A", .identifier, 1⟩, .reserved "\x7b" 1, .reserved "\x7d" 1,
        .endOfInput] := by
    decide +kernel
  obtain ⟨schema, hschema, hpackage, hmessages⟩ : ∃ schema : Schema,
      (compileSchema { Options.default with allowRedefinition := true } mutualText).result =
        .ok schema ∧ schema.package = "p" ∧
        schema.messages.messages = mutualSchema.messages.messages := by
    rw [compileSchema_of_scan hscan]
    exact ⟨_, rfl, rfl, rfl⟩
  obtain ⟨other, hother, hsize⟩ : ∃ schema : Schema,
      (compileSchema .default emptyMessageText).result = .ok schema ∧
        schema.messages.size = 1 := by
    rw [compileSchema_of_scan hotherScan]
    exact ⟨_, rfl, rfl⟩
  -- The index of the compiled table is the one that its messages give.
  obtain rfl : schema = mutualSchema := by
    have hlisted := (closed_of_compileSchema hschema).listed
    rw [hmessages] at hlisted
    cases schema with
    | mk package messages =>
        cases hpackage
        cases hlisted
        rfl
  obtain ⟨hdecoded, hsame, -⟩ := compiled_schema_decoded_from_dump
  refine ⟨hdecoded _ _ _ hschema, fun hdumps => ?_⟩
  obtain rfl := (hsame _ _ _ _ _ _ hschema hother).1 hdumps
  cases hsize

end SchemaCompiler
