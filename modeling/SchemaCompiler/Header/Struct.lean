import SchemaCompiler.Header.Layout
import SchemaCompiler.Schema.Message

/-!
# The structure of a message

Each message becomes a C++ structure with a member for each field, and with methods that read the
members from JSON. With serializers it also owns the document that its text members point into, and
has methods that write the members as JSON.
-/

namespace SchemaCompiler.Header

open Layout

/-- The member that owns the document behind the text members. An identifier of a schema text has no
underscore, so no field is called like it. -/
def sourceDocument : String := "source_document_"

/-- The lines that read a field from the JSON value `v`. -/
def readField (field : Field) : List LayoutItem :=
  let name := field.identifier
  let value := "v[\"" ++ name ++ "\"]"
  [.line ("// parse " ++ name), .line ("assert(v.HasMember(\"" ++ name ++ "\"));")] ++
    if field.repeated then
      .line ("assert(" ++ value ++ ".IsArray());") ::
        block ("for (auto&& i : " ++ value ++ ".GetArray()) \x7b")
          [.line ("assert(i." ++ field.type.predicate ++ "());"),
           .line (name ++ ".emplace_back(" ++ field.type.extraction "i" ++ ");")]
          "\x7d"
    else
      [.line ("assert(" ++ value ++ "." ++ field.type.predicate ++ "());"),
       .line (name ++ " = " ++ field.type.extraction value ++ ";")]

/-- The lines that write a field into the JSON value `v`. -/
def writeField (field : Field) : List LayoutItem :=
  let name := field.identifier
  .line ("// serialize " ++ name) ::
    if field.repeated then
      block "\x7b"
        (.line "rapidjson::Value array(rapidjson::kArrayType);" ::
          (block ("for (auto&& i : " ++ name ++ ") \x7b")
              [.line ("array.PushBack(" ++ field.type.construction "i" ++ ".Move(), allocator);")]
              "\x7d" ++
            [.line ("v.AddMember(\"" ++ name ++ "\", array, allocator);")]))
        "\x7d"
    else
      [.line ("v.AddMember(\"" ++ name ++ "\", " ++ field.type.construction name ++
        ".Move(), allocator);")]

/-- The member declarations, with an empty line after them if there are any. -/
def members (serializers : Bool) (message : Message) : List LayoutItem :=
  message.fields.map (fun field => .line (field.declaredType ++ " " ++ field.identifier ++ ";")) ++
    when serializers [.line ("std::shared_ptr<rapidjson::Document> " ++ sourceDocument ++ ";")] ++
    when (!message.fields.isEmpty || serializers) [.line ""]

/-- The method that reads the members from a text and forgets the text. -/
def parseMethod (message : Message) : List LayoutItem :=
  block (message.identifier ++ "& Parse(const char* str) \x7b")
    [.line "rapidjson::Document document;",
     .line "document.Parse(str);",
     .line "assert(document.IsObject());",
     .line "return Get(document);"]
    "\x7d"

/-- The method that reads the members from a text and keeps the document. -/
def fromStringMethod (message : Message) : List LayoutItem :=
  block (message.identifier ++ "& FromString(const char* str) \x7b")
    [.line (sourceDocument ++ " = std::make_shared<rapidjson::Document>();"),
     .line (sourceDocument ++ "->Parse(str);"),
     .line ("assert(" ++ sourceDocument ++ "->IsObject());"),
     .line ("return Get(*" ++ sourceDocument ++ ");")]
    "\x7d"

/-- The method that reads the members from a JSON value. -/
def getMethod (message : Message) : List LayoutItem :=
  block (message.identifier ++ "& Get(const rapidjson::Value& v) \x7b")
    (message.fields.flatMap readField ++ [.line "return *this;"])
    "\x7d"

/-- The method that builds a JSON value from the members. -/
def toValueMethod (message : Message) : List LayoutItem :=
  block "rapidjson::Value ToValue(rapidjson::Document::AllocatorType& allocator) const \x7b"
    (.line "rapidjson::Value v(rapidjson::kObjectType);" ::
      (message.fields.flatMap writeField ++ [.line "return v;"]))
    "\x7d"

/-- A method that writes the members as text with the given kind of writer. -/
def writerMethod (method writer : String) : List LayoutItem :=
  block ("std::string " ++ method ++ "() const \x7b")
    [.line "rapidjson::Document document;",
     .line "rapidjson::Value v = ToValue(document.GetAllocator());",
     .line "rapidjson::StringBuffer buffer;",
     .line ("rapidjson::" ++ writer ++ "<rapidjson::StringBuffer> writer(buffer);"),
     .line "v.Accept(writer);",
     .line "return buffer.GetString();"]
    "\x7d"

/-- The methods that write the members, with empty lines before them. -/
def writeMethods (message : Message) : List LayoutItem :=
  .line "" :: (toValueMethod message ++
    .line "" :: (writerMethod "ToString" "Writer" ++
    .line "" :: writerMethod "ToPrettyString" "PrettyWriter"))

/-- The structure of a message. -/
def struct (serializers : Bool) (message : Message) : List LayoutItem :=
  block ("struct " ++ message.identifier ++ " \x7b")
    (members serializers message ++
      parseMethod message ++ [.line ""] ++
      when serializers (fromStringMethod message ++ [.line ""]) ++
      getMethod message ++
      when serializers (writeMethods message))
    "\x7d;"

end SchemaCompiler.Header
