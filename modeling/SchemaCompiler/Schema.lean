import SchemaCompiler.Schema.Table

/-!
# Schemas

A schema is a package name and the messages declared in it.
-/

namespace SchemaCompiler

/-- The contents of a schema text: the name of the package, and the messages in the order of their
first declaration. -/
structure Schema where
  package : String
  messages : MessageTable

end SchemaCompiler
