/-!
# Events

What a compilation reports about its progress. `Logged` is the outcome of a stage together with the
events that it reported, which are kept when the stage fails.
-/

namespace SchemaCompiler

/-- A report on the progress of a compilation: a text was split into tokens, a message declaration
was read to its end, the declaration that was just read replaces an earlier one and its name stands
on `line`, or a header was written. -/
inductive Event where
  | tokenized (count : Nat)
  | parsed (name : String) (fields : Nat)
  | redefined (name : String) (line : Int)
  | emitted (package : String) (bytes : Nat)
deriving DecidableEq, Repr

/-- The events of a stage in the order in which they were reported, and its result or the error that
ended it. -/
structure Logged (ε α : Type) where
  events : List Event
  result : Except ε α

namespace Logged

variable {ε δ α β : Type}

/-- A stage that reports nothing. -/
def ofExcept (result : Except ε α) : Logged ε α :=
  ⟨[], result⟩

/-- A stage that reports events and succeeds. -/
def report (events : List Event) (value : α) : Logged ε α :=
  ⟨events, .ok value⟩

/-- The same stage with more events before its own. -/
def after (events : List Event) (stage : Logged ε α) : Logged ε α :=
  ⟨events ++ stage.events, stage.result⟩

/-- A stage and, if it succeeds, the stage that its value leads to. -/
def andThen (stage : Logged ε α) (next : α → Logged ε β) : Logged ε β :=
  match stage.result with
  | .ok value => (next value).after stage.events
  | .error error => ⟨stage.events, .error error⟩

/-- The same stage with its error seen as an error of another type. -/
def mapError (embed : ε → δ) (stage : Logged ε α) : Logged δ α :=
  ⟨stage.events, stage.result.mapError embed⟩

end Logged

end SchemaCompiler
