import SchemaCompiler.Event
import SchemaCompiler.Grammar.Error
import SchemaCompiler.Schema

/-!
# Reading a schema token by token

The grammar of schemas is

* schema: a package clause and at least one message;
* package clause: `package`, an identifier and `;`;
* message: `message`, an identifier, and fields between braces;
* field: `repeated` or nothing, a type, an identifier, `=` and a number or nothing, and `;`;
* type: the word of a primitive type, or the name of a message that was declared before.

No rule nests in itself, so what has been read is one of finitely many places together with the
declarations so far. `State.advance` reads one token, `State.finish` meets the end of the input. A
field number is read and dropped.
-/

namespace SchemaCompiler

/-- What has been read of a field declaration: nothing, so that a field or the closing brace comes
next, the word `repeated`, the type, the name, the sign before the number, or the number. -/
inductive FieldPlace where
  | start
  | afterRepeated
  | afterType (repeated : Bool) (type : FieldType)
  | afterName (field : Field)
  | afterEquals (field : Field)
  | afterNumber (field : Field)
deriving DecidableEq, Repr

/-- What has been read of a schema. `packageName` follows the word `package`, `packageEnd` the name
of the package, and `firstMessage` the package clause. After a message `nextMessage` waits for
another one or the end. `messageName` follows the word `message`, `messageOpen` the name of the
message, and in `messageBody` its opening brace and some of its fields were read. -/
inductive State where
  | start
  | packageName
  | packageEnd (package : String)
  | firstMessage (package : String)
  | nextMessage (declared : Schema)
  | messageName (declared : Schema)
  | messageOpen (declared : Schema) (name : Token)
  | messageBody (declared : Schema) (name : Token) (fields : List Field) (place : FieldPlace)

/-- The type that a token names, given the messages declared so far. -/
def FieldType.ofToken? (declared : MessageTable) (token : Token) : Option FieldType :=
  match token.kind with
  | .reserved => (Primitive.ofWord? token.content).map .primitive
  | .identifier => if declared.contains token.content then some (.message token.content) else none
  | .number | .endOfInput => none

/-- The rule that a refused token of a field is reported in. -/
def FieldPlace.production : FieldPlace → Production
  | start | afterRepeated => .type
  | afterType .. | afterName _ | afterEquals _ | afterNumber _ => .field

namespace State

/-- The rule that a refused token is reported in. -/
def production : State → Production
  | start | packageName | packageEnd _ => .package
  | firstMessage _ | messageName _ | messageOpen .. => .message
  | nextMessage _ => .schema
  | messageBody _ _ _ place => place.production

/-- The error at a token that has no place in the grammar. -/
def unexpected (state : State) (token : Token) : ParseError where
  reason := if token.kind = .endOfInput then .unexpectedEnd else .unexpectedToken
  token := token
  production := state.production

/-- The state after the closing brace of a message, with the report on it. -/
def closeMessage (declared : Schema) (name : Token) (fields : List Field) : State × List Event :=
  let (earlier, messages) := declared.messages.put ⟨name.content, fields⟩
  (nextMessage { declared with messages },
    .parsed name.content fields.length ::
      if earlier.isSome then [.redefined name.content name.line] else [])

/-- The place after a token where a type is due. -/
def readType (declared : Schema) (repeated : Bool) (token : Token) : Except ParseError FieldPlace :=
  match FieldType.ofToken? declared.messages token with
  | some type => .ok (.afterType repeated type)
  | none => .error ⟨.unknownType, token, .type⟩

/-- The state after a token in the body of a message, with what is reported there. -/
def advanceBody (declared : Schema) (name : Token) (fields : List Field) (place : FieldPlace)
    (token : Token) : Except ParseError (State × List Event) :=
  let body (fields : List Field) (place : FieldPlace) : State × List Event :=
    (messageBody declared name fields place, [])
  let refused := unexpected (messageBody declared name fields place) token
  match place with
  | .start =>
    if token.isReserved "\x7d" then .ok (closeMessage declared name fields)
    else if token.isReserved "repeated" then .ok (body fields .afterRepeated)
    else (readType declared false token).map (body fields)
  | .afterRepeated => (readType declared true token).map (body fields)
  | .afterType repeated type =>
    if token.kind = .identifier then
      .ok (body fields (.afterName { identifier := token.content, type, repeated }))
    else .error refused
  | .afterName field =>
    if token.isReserved "=" then .ok (body fields (.afterEquals field))
    else if token.isReserved ";" then .ok (body (fields ++ [field]) .start)
    else .error refused
  | .afterEquals field =>
    if token.kind = .number then .ok (body fields (.afterNumber field)) else .error refused
  | .afterNumber field =>
    if token.isReserved ";" then .ok (body (fields ++ [field]) .start) else .error refused

/-- The state after a token that is not the end of the input, with what is reported there. A name
that is declared again is an error unless redefinitions are allowed. -/
def advance (allowRedefinition : Bool) (state : State) (token : Token) :
    Except ParseError (State × List Event) :=
  let refused := unexpected state token
  match state with
  | start => if token.isReserved "package" then .ok (packageName, []) else .error refused
  | packageName =>
    if token.kind = .identifier then .ok (packageEnd token.content, []) else .error refused
  | packageEnd package =>
    if token.isReserved ";" then .ok (firstMessage package, []) else .error refused
  | firstMessage package =>
    if token.isReserved "message" then .ok (messageName ⟨package, .empty⟩, [])
    else .error refused
  | nextMessage declared =>
    if token.isReserved "message" then .ok (messageName declared, []) else .error refused
  | messageName declared =>
    if token.kind = .identifier then
      if !allowRedefinition && declared.messages.contains token.content then
        .error ⟨.duplicateMessage, token, .message⟩
      else .ok (messageOpen declared token, [])
    else .error refused
  | messageOpen declared name =>
    if token.isReserved "\x7b" then .ok (messageBody declared name [] .start, [])
    else .error refused
  | messageBody declared name fields place => advanceBody declared name fields place token

/-- The schema that has been read when the input ends at the given token. -/
def finish (state : State) (token : Token) : Except ParseError Schema :=
  match state with
  | nextMessage declared => .ok declared
  | _ => .error (unexpected state token)

/-- Reads the rest of a token list. The first token that ends the input is the last one that is
looked at, and the end of the list ends the input too. -/
def run (allowRedefinition : Bool) : State → List Token → Logged ParseError Schema
  | state, [] => .ofExcept (state.finish .endOfInput)
  | state, token :: rest =>
    if token.kind = .endOfInput then .ofExcept (state.finish token)
    else
      match state.advance allowRedefinition token with
      | .ok (next, events) => (run allowRedefinition next rest).after events
      | .error error => .ofExcept (.error error)

end State

/-- The schema that a token list spells. -/
def Schema.ofTokens (allowRedefinition : Bool) (tokens : List Token) : Logged ParseError Schema :=
  State.start.run allowRedefinition tokens

end SchemaCompiler
