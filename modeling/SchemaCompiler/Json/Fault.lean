import SchemaCompiler.Decimal.Shortest
import SchemaCompiler.Text.Literal

/-!
# Faults of a JSON text

Why a JSON text cannot be read as what was due, and where. A fault is found at a place of the text,
kept as what is still unread there, and counts some more bytes as seen.
-/

namespace SchemaCompiler.Json

/-- A value that has not the type that was due. -/
inductive Found where
  | null
  | boolean (value : Bool)
  | integer (value : Int)
  | decimal (value : Decimal)
  | string (content : String)
  | list
  | object
deriving DecidableEq, Repr

/-- How messages name a value of the wrong type. -/
def Found.description : Found → String
  | null => "null"
  | boolean value => "boolean `" ++ (if value then "true" else "false") ++ "`"
  | integer value => "integer `" ++ value.repr ++ "`"
  | decimal value => "floating point `" ++ value.text ++ "`"
  | string content => "string " ++ Text.literal content
  | list => "sequence"
  | object => "map"

/-- Why a text cannot be read. The text ends in a value, an object, a list or a string (`endIn…`),
or something else stands where a value, the rest of a literal, a string as the key, the colon after
it, or a separator or the end is due. `trailingComma` is a comma before the end of a list or an
object, and `trailingCharacters` follow the value. `invalidNumber` lacks a digit or has a zero
before its first one, and `numberOutOfRange` is beyond all floating-point numbers. In a string an
escape can be unknown or have a wrong digit, a character that is written as two codes can lack its
second half (`expectedSecondHalf`) or have a half alone (`loneHalf`), and a control character can
stand as it is. A value can have the wrong type, and a key can be unknown or given twice. -/
inductive Cause where
  | endInValue
  | endInObject
  | endInList
  | endInString
  | expectedValue
  | expectedWord
  | keyNotString
  | expectedColon
  | expectedListSeparator
  | expectedObjectSeparator
  | trailingComma
  | trailingCharacters
  | invalidNumber
  | numberOutOfRange
  | invalidEscape
  | expectedSecondHalf
  | loneHalf
  | controlCharacter
  | wrongType (found : Found) (expected : String)
  | unknownKey (key : String) (known : List String)
  | duplicateKey (key : String)
deriving DecidableEq, Repr

/-- A cause as a phrase for the user. -/
def Cause.description : Cause → String
  | endInValue => "EOF while parsing a value"
  | endInObject => "EOF while parsing an object"
  | endInList => "EOF while parsing a list"
  | endInString => "EOF while parsing a string"
  | expectedValue => "expected value"
  | expectedWord => "expected ident"
  | keyNotString => "key must be a string"
  | expectedColon => "expected `:`"
  | expectedListSeparator => "expected `,` or `]`"
  | expectedObjectSeparator => "expected `,` or `\x7d`"
  | trailingComma => "trailing comma"
  | trailingCharacters => "trailing characters"
  | invalidNumber => "invalid number"
  | numberOutOfRange => "number out of range"
  | invalidEscape => "invalid escape"
  | expectedSecondHalf => "unexpected end of hex escape"
  | loneHalf => "lone leading surrogate in hex escape"
  | controlCharacter => "control character (\\u0000-\\u001F) found while parsing a string"
  | wrongType found expected => "invalid type: " ++ found.description ++ ", expected " ++ expected
  | unknownKey key known =>
    "unknown field `" ++ key ++ "`, expected one of " ++
      String.intercalate ", " (known.map fun name => "`" ++ name ++ "`")
  | duplicateKey key => "duplicate field `" ++ key ++ "`"

/-- A cause, and the place where it was found: `rest` is unread there, and `ahead` more bytes count
as seen. -/
structure Fault where
  cause : Cause
  rest : List Char
  ahead : Nat
deriving DecidableEq, Repr

namespace Fault

/-- A fault right before a text. -/
def before (rest : List Char) (cause : Cause) : Fault :=
  ⟨cause, rest, 0⟩

/-- A fault at the first byte of a text, which counts as seen. -/
def seeing (rest : List Char) (cause : Cause) : Fault :=
  ⟨cause, rest, 1⟩

end Fault

/-- A place in a text: the number of its line, counted from 1, and the number of bytes before it on
the line. -/
structure Position where
  line : Nat
  column : Nat
deriving DecidableEq, Repr

/-- The place after a number of bytes of a text, or at its end if it has fewer. -/
def Position.after (text : List Char) (count : Nat) : Position :=
  let bytes := (text.flatMap String.utf8EncodeChar).take count
  { line := 1 + bytes.count 10
    column := (bytes.reverse.takeWhile (· != 10)).length }

/-- The number of bytes of a text. -/
def byteCount (text : List Char) : Nat :=
  text.foldr (fun c count => c.utf8Size + count) 0

/-- The place of a fault in the text that was read. -/
def Fault.position (fault : Fault) (text : List Char) : Position :=
  .after text (byteCount text - byteCount fault.rest + fault.ahead)

end SchemaCompiler.Json
