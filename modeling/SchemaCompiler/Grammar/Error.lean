import SchemaCompiler.Token

/-!
# Parse errors

A parse error names the token that cannot stand where it stands, the rule of the grammar that was
being read there, and the reason.
-/

namespace SchemaCompiler

/-- Why a token is refused: the grammar has no such token there, a type was due and the token names
none, the input ends before the grammar does, or a message of that name was declared before. -/
inductive ParseReason where
  | unexpectedToken
  | unknownType
  | unexpectedEnd
  | duplicateMessage
deriving DecidableEq, Repr

namespace ParseReason

/-- How messages to the user put a reason. -/
def description : ParseReason → String
  | unexpectedToken => "Unexpected token"
  | unknownType => "Unknown type"
  | unexpectedEnd => "Unexpected end of input"
  | duplicateMessage => "Duplicate message"

/-- The name of a reason in diagnostics that show values. -/
def name : ParseReason → String
  | unexpectedToken => "UnexpectedToken"
  | unknownType => "UnknownType"
  | unexpectedEnd => "UnexpectedEof"
  | duplicateMessage => "DuplicateMessage"

end ParseReason

/-- The rules of the grammar that an error can be reported in: the list of messages after the first
one, the package clause, the head of a message declaration, a field declaration after its type, and
the type of a field. -/
inductive Production where
  | schema
  | package
  | message
  | field
  | type
deriving DecidableEq, Repr

namespace Production

/-- How messages to the user name a rule. -/
def description : Production → String
  | schema => "schema"
  | package => "package"
  | message => "message"
  | field => "element"
  | type => "type"

/-- The name of a rule in diagnostics that show values. -/
def name : Production → String
  | schema => "Schema"
  | package => "Package"
  | message => "Message"
  | field => "Element"
  | type => "Type"

end Production

/-- Why a token list is no schema: the token that is refused, the reason, and the rule that was
being read. -/
structure ParseError where
  reason : ParseReason
  token : Token
  production : Production
deriving DecidableEq, Repr

end SchemaCompiler
