import SchemaCompiler.Schema.FieldType

/-!
# Messages

A message is a name and a list of fields in the order of their declaration.
-/

namespace SchemaCompiler

/-- A field of a message. If it is `repeated`, it holds a list of items of its type. The `label` is
the native type that the member is declared with, or that of its items. -/
structure Field where
  identifier : String
  type : FieldType
  repeated : Bool
  label : String := type.nativeType
deriving DecidableEq, Repr

/-- The type in the declaration of a field's member. -/
def Field.declaredType (field : Field) : String :=
  if field.repeated then "std::vector<" ++ field.label ++ ">" else field.label

/-- A message declaration: a name, and the fields in the order of their declaration. -/
structure Message where
  identifier : String
  fields : List Field
deriving DecidableEq, Repr

end SchemaCompiler
