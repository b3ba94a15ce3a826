import SchemaCompiler.Text.Quoted

/-!
# JSON values in print

The JSON values that a schema dump is made of, and their printed form: two spaces for each level,
one item to a line, a space after the colon of a member, and an empty list or object in one piece.
-/

namespace SchemaCompiler.Json

/-- The values of a schema dump. The members of an object stand in print order. -/
inductive Value where
  | text (content : String)
  | flag (value : Bool)
  | list (items : List Value)
  | object (members : List (String × Value))

/-- The line break before an item at the given depth. -/
def newline (depth : Nat) : String :=
  String.ofList ('\n' :: List.replicate (2 * depth) ' ')

mutual

/-- The printed form of a value whose first line is already indented to `depth`. -/
def Value.print (depth : Nat) : Value → String
  | .text content => Text.quoted content
  | .flag value => if value then "true" else "false"
  | .list [] => "[]"
  | .list (item :: items) =>
    "[" ++ newline (depth + 1) ++ item.print (depth + 1) ++ printItems depth items ++
      newline depth ++ "]"
  | .object [] => "\x7b\x7d"
  | .object ((key, value) :: members) =>
    "\x7b" ++ newline (depth + 1) ++ Text.quoted key ++ ": " ++ value.print (depth + 1) ++
      printMembers depth members ++ newline depth ++ "\x7d"

/-- The printed form of the items of a list after the first one. -/
def printItems (depth : Nat) : List Value → String
  | [] => ""
  | item :: items =>
    "," ++ newline (depth + 1) ++ item.print (depth + 1) ++ printItems depth items

/-- The printed form of the members of an object after the first one. -/
def printMembers (depth : Nat) : List (String × Value) → String
  | [] => ""
  | (key, value) :: members =>
    "," ++ newline (depth + 1) ++ Text.quoted key ++ ": " ++ value.print (depth + 1) ++
      printMembers depth members

end

/-- The printed form of a value. -/
def Value.render (value : Value) : String :=
  value.print 0

end SchemaCompiler.Json
