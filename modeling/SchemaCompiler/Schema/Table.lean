import SchemaCompiler.Schema.Message
import Std.Data.ExtTreeMap

/-!
# Tables of messages

A table holds messages by name and keeps them in the order in which their names were first
inserted. A message with a known name takes the place of the earlier one. `index` tells where the
message of a name stands, so that the order never depends on how names are looked up.
-/

namespace SchemaCompiler

/-- Messages by name, in the order in which their names were first inserted. The index has the place
of each name in the list. -/
structure MessageTable where
  index : Std.ExtTreeMap String Nat compare
  messages : List Message

namespace MessageTable

/-- The table without messages. -/
def empty : MessageTable where
  index := ∅
  messages := []

/-- The number of messages. -/
def size (table : MessageTable) : Nat :=
  table.messages.length

/-- Whether the table has no message. -/
def isEmpty (table : MessageTable) : Bool :=
  table.messages.isEmpty

/-- Whether the table has a message with the given name. -/
def contains (table : MessageTable) (name : String) : Bool :=
  table.index.contains name

/-- The message with the given name. -/
def get? (table : MessageTable) (name : String) : Option Message :=
  table.index[name]?.bind (table.messages[·]?)

/-- The names of the messages in order. -/
def names (table : MessageTable) : List String :=
  table.messages.map (·.identifier)

/-- Stores a message under its own name: in the place of the earlier message of that name, which is
given back, or else at the end. -/
def put (table : MessageTable) (message : Message) : Option Message × MessageTable :=
  match table.index[message.identifier]? with
  | some place =>
    (table.messages[place]?, { table with messages := table.messages.set place message })
  | none =>
    (none,
      { index := table.index.insert message.identifier table.size
        messages := table.messages ++ [message] })

/-- The table after a message is stored. -/
def insert (table : MessageTable) (message : Message) : MessageTable :=
  (table.put message).2

/-- The table with the given messages, inserted one after the other. -/
def ofList (messages : List Message) : MessageTable :=
  messages.foldl insert empty

end MessageTable

end SchemaCompiler
