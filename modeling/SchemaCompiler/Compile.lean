import SchemaCompiler.Grammar.State
import SchemaCompiler.Header
import SchemaCompiler.Schema.Dump
import SchemaCompiler.Text.Literal
import SchemaCompiler.Text.Quoted
import SchemaCompiler.Token.Scan

/-!
# Compiling a schema text

The whole way from a schema text to a schema, a header or a dump. Nothing is written unless the
whole text was read.
-/

namespace SchemaCompiler

/-- Why a schema text cannot be compiled: it cannot be split into tokens, or its tokens are no
schema. -/
inductive CompileError where
  | scan (error : ScanError)
  | parse (error : ParseError)
deriving DecidableEq, Repr

namespace CompileError

/-- The line that an error points at. -/
def line : CompileError → Int
  | scan error => error.line
  | parse error => error.token.line

/-- What the user reads about an error: what is wrong, and in which line of the schema. -/
def message : CompileError → String
  | scan error =>
    "Invalid input " ++ Text.quoted error.remainder ++ " in line " ++ error.line.repr
  | parse error =>
    error.reason.description ++ " <" ++ error.token.content ++ ">(" ++
      error.token.kind.description ++ ") in line " ++ error.token.line.repr ++
      " while parsing " ++ error.production.description

/-- An error for the log, its kind before the names and the values of its parts. -/
def details : CompileError → String
  | scan error =>
    "Lex \x7b remainder: " ++ Text.literal error.remainder ++ ", line: " ++ error.line.repr ++
      " \x7d"
  | parse error =>
    "Parse \x7b reason: " ++ error.reason.name ++
      ", content: " ++ Text.literal error.token.content ++
      ", kind: " ++ error.token.kind.name ++
      ", line: " ++ error.token.line.repr ++
      ", production: " ++ error.production.name ++ " \x7d"

end CompileError

/-- The tokens of a schema text, with the report on them. -/
def tokenize (text : String) : Logged CompileError (List Token) :=
  match Token.scan text with
  | .ok tokens => .report [.tokenized tokens.length] tokens
  | .error error => .ofExcept (.error (.scan error))

/-- The schema of a text. -/
def compileSchema (options : Options) (text : String) : Logged CompileError Schema :=
  (tokenize text).andThen fun tokens =>
    (Schema.ofTokens options.allowRedefinition tokens).mapError .parse

/-- The header of a schema text. -/
def compileHeader (options : Options) (text : String) : Logged CompileError String :=
  (compileSchema options text).andThen (Header.emit options)

/-- The dump of a schema text. -/
def compileDump (options : Options) (text : String) : Logged CompileError String :=
  (compileSchema options text).andThen fun schema => .report [] schema.dump

end SchemaCompiler
