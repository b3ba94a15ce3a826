/-!
# Compile options

The settings of a compilation. A missing setting takes its default.
-/

namespace SchemaCompiler

/-- The settings of a compilation: whether a message may be declared again, in the place of the
earlier declaration, whether the generated structures can be written as JSON and not only read from
it, and the comment lines at the top of the header. -/
structure Options where
  allowRedefinition : Bool := false
  serializers : Bool := true
  banner : List String :=
    ["Generated by Proto2RapidJSON", "https://github.com/Sweetnow/proto2rapidjson"]
deriving DecidableEq, Repr

/-- The settings of a compilation that nothing was asked of. -/
def Options.default : Options := {}

end SchemaCompiler
