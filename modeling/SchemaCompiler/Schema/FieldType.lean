/-!
# Field types

A field holds one of eight primitive types or a message. For each type the generated code has a
native member type, a test that a JSON value has the type, an expression that takes the value out
of a JSON value and one that builds a JSON value from it.
-/

namespace SchemaCompiler

/-- The primitive field types. -/
inductive Primitive where
  | double
  | float
  | int32
  | uint32
  | int64
  | uint64
  | bool
  | string
deriving DecidableEq, Repr

namespace Primitive

/-- The primitive types in the order in which the language lists them. -/
def all : List Primitive :=
  [double, float, int32, uint32, int64, uint64, bool, string]

/-- The reserved word of a primitive type. -/
def word : Primitive → String
  | double => "double"
  | float => "float"
  | int32 => "int32"
  | uint32 => "uint32"
  | int64 => "int64"
  | uint64 => "uint64"
  | bool => "bool"
  | string => "string"

/-- The primitive type with the given reserved word. -/
def ofWord? (word : String) : Option Primitive :=
  all.find? (·.word == word)

/-- The name of a primitive type in a schema dump. -/
def name : Primitive → String
  | double => "Double"
  | float => "Float"
  | int32 => "Int32"
  | uint32 => "Uint32"
  | int64 => "Int64"
  | uint64 => "Uint64"
  | bool => "Bool"
  | string => "String"

/-- The C++ type that holds a primitive value. -/
def nativeType : Primitive → String
  | double => "double"
  | float => "float"
  | int32 => "int32_t"
  | uint32 => "uint32_t"
  | int64 => "int64_t"
  | uint64 => "uint64_t"
  | bool => "bool"
  | string => "const char *"

/-- How the accessors of JSON values name a primitive type. -/
def accessor : Primitive → String
  | double => "Double"
  | float => "Float"
  | int32 => "Int"
  | uint32 => "Uint"
  | int64 => "Int64"
  | uint64 => "Uint64"
  | bool => "Bool"
  | string => "String"

end Primitive

/-- The type of a field: a primitive type, or the message with the given name. -/
inductive FieldType where
  | primitive (type : Primitive)
  | message (name : String)
deriving DecidableEq, Repr

namespace FieldType

/-- Whether a type is a message. -/
def isMessage : FieldType → Bool
  | primitive _ => false
  | message _ => true

/-- A type as it is written in a schema. -/
def word : FieldType → String
  | primitive type => type.word
  | message name => name

/-- The native type of a member. -/
def nativeType : FieldType → String
  | primitive type => type.nativeType
  | message name => name

/-- The test that a JSON value has this type. -/
def predicate : FieldType → String
  | primitive type => "Is" ++ type.accessor
  | message _ => "IsObject"

/-- The expression that takes a member of this type out of the JSON value `base`. -/
def extraction (type : FieldType) (base : String) : String :=
  match type with
  | primitive type => base ++ ".Get" ++ type.accessor ++ "()"
  | message name => name ++ "().Get(" ++ base ++ ")"

/-- The expression that builds a JSON value from the member `base` of this type. A string is copied
into the document, and any other primitive type is cast to its native type. -/
def construction (type : FieldType) (base : String) : String :=
  match type with
  | primitive .string => "rapidjson::Value(" ++ base ++ ", allocator)"
  | primitive type => "rapidjson::Value(static_cast<" ++ type.nativeType ++ ">(" ++ base ++ "))"
  | message _ => base ++ ".ToValue(allocator)"

end FieldType

end SchemaCompiler
