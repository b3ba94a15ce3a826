import SchemaCompiler.Json.Value
import SchemaCompiler.Schema

/-!
# Schema dumps

A schema as a JSON text: its package and its messages in order, each with its fields in order.
-/

namespace SchemaCompiler

/-- A field type in a dump: the name of a primitive type, or an object that names the message. -/
def FieldType.toJson : FieldType → Json.Value
  | primitive type => .text type.name
  | message name => .object [("Custom", .text name)]

/-- A field in a dump. -/
def Field.toJson (field : Field) : Json.Value :=
  .object
    [("identifier", .text field.identifier),
     ("kind", field.type.toJson),
     ("kind_label", .text field.label),
     ("repeated", .flag field.repeated)]

/-- A message in a dump. -/
def Message.toJson (message : Message) : Json.Value :=
  .object
    [("identifier", .text message.identifier),
     ("elements", .list (message.fields.map Field.toJson))]

/-- A schema in a dump. -/
def Schema.toJson (schema : Schema) : Json.Value :=
  .object
    [("package", .text schema.package),
     ("messages", .list (schema.messages.messages.map Message.toJson))]

/-- The text of a schema's dump. -/
def Schema.dump (schema : Schema) : String :=
  schema.toJson.render

end SchemaCompiler
