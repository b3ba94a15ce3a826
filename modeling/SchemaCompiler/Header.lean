import SchemaCompiler.Event
import SchemaCompiler.Header.Struct
import SchemaCompiler.Options
import SchemaCompiler.Schema
import SchemaCompiler.Text.Uppercase

/-!
# Headers

A schema becomes one C++ header: an include guard, the banner, the includes, and a namespace with
the structures of the messages in the order of the table.
-/

namespace SchemaCompiler.Header

open Layout

/-- The macro that guards the header of a package against a second inclusion. -/
def includeGuard (package : String) : String :=
  "_PROTO2RAPIDJSON_" ++ Text.uppercase package ++ "_HEADER_"

/-- The banner as comment lines, with an empty line after them if there are any. -/
def banner (lines : List String) : List LayoutItem :=
  lines.map (fun text => .line ("// " ++ text)) ++ when (!lines.isEmpty) [.line ""]

/-- The lines before the namespace. -/
def preamble (package : String) (options : Options) : List LayoutItem :=
  [.line ("#ifndef " ++ includeGuard package), .line ("#define " ++ includeGuard package),
    .line ""] ++
  banner options.banner ++
  [.line "#include <cassert>"] ++
  when options.serializers [.line "#include <memory>", .line "#include <string>"] ++
  [.line "#include <vector>", .line "", .line "#include \"rapidjson/document.h\""] ++
  when options.serializers
    [.line "#include \"rapidjson/prettywriter.h\"",
     .line "#include \"rapidjson/stringbuffer.h\"",
     .line "#include \"rapidjson/writer.h\""] ++
  [.line ""]

/-- The lines of the namespace and after it. -/
def namespaceLines (serializers : Bool) (schema : Schema) : List LayoutItem :=
  .line ("namespace " ++ schema.package ++ " \x7b") ::
    (schema.messages.messages.flatMap (fun message => .line "" :: struct serializers message) ++
      [.line "", .line ("\x7d  // namespace " ++ schema.package)])

/-- The lines of a header. -/
def layout (options : Options) (schema : Schema) : List LayoutItem :=
  preamble schema.package options ++ namespaceLines options.serializers schema ++
    [.line "", .line ("#endif  // " ++ includeGuard schema.package)]

/-- The text of the header of a schema. -/
def text (options : Options) (schema : Schema) : String :=
  render (layout options schema)

/-- The header of a schema, with the report on it. -/
def emit {ε : Type} (options : Options) (schema : Schema) : Logged ε String :=
  let header := text options schema
  .report [.emitted schema.package header.utf8ByteSize] header

end SchemaCompiler.Header
