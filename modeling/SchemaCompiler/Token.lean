/-!
# Tokens

The words of a schema text: reserved words, identifiers and numbers, each with the line that it
stands on, and the token that marks the end of the input.
-/

namespace SchemaCompiler

/-- What a token is: a word or sign of the language, a name, a field number, or the end of the
input. -/
inductive TokenKind where
  | reserved
  | identifier
  | number
  | endOfInput
deriving DecidableEq, Repr

/-- How messages to the user name a kind of token. -/
def TokenKind.description : TokenKind → String
  | .reserved => "reserved"
  | .identifier => "identifier"
  | .number => "number"
  | .endOfInput => "end of input"

/-- The name of a kind of token in diagnostics that show values. -/
def TokenKind.name : TokenKind → String
  | .reserved => "Reserved"
  | .identifier => "Identifier"
  | .number => "Number"
  | .endOfInput => "EndOfInput"

/-- A word of a schema text: its characters, what it is, and the line that it stands on, counted
from 1. -/
structure Token where
  content : String
  kind : TokenKind
  line : Int
deriving DecidableEq, Repr

namespace Token

/-- The token at the end of every token list. It is empty and stands on line -1, which is no line of
any text. -/
def endOfInput : Token where
  content := ""
  kind := .endOfInput
  line := -1

/-- Whether a token is the given reserved word. -/
def isReserved (token : Token) (word : String) : Bool :=
  token.kind == .reserved && token.content == word

end Token

end SchemaCompiler
