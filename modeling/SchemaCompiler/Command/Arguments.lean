/-!
# Command line arguments

The command line is a list of switches for the log, a subcommand, and the arguments of the
subcommand. `gen` writes the header of a schema and `dump` prints the schema as JSON.

Arguments are read one after the other. An option with a value is given as `-i x`, `-ix`, `-i=x`,
`--input x` or `--input=x`, and short options can be joined, as in `-yi x`. A value in an argument
of its own starts with no hyphen, unless it is a single hyphen. No value is empty, and at each of
the two levels every option is given at most once. After `--` there are no more options.
-/

namespace SchemaCompiler.Command

/-- Options without a value: log everything, log errors only, overwrite the output without asking,
generate no methods that write JSON, and let a later message take the place of an earlier one. -/
inductive Switch where
  | verbose
  | quiet
  | yes
  | noSerializers
  | allowRedefinition
deriving DecidableEq, Repr

/-- Options with a value: the files with the schema, for the header, and with the compile options.
-/
inductive Slot where
  | input
  | output
  | config
deriving DecidableEq, Repr

/-- An option of the command line, without a value or with one. -/
inductive Parameter where
  | switch (switch : Switch)
  | slot (slot : Slot)
deriving DecidableEq, Repr

namespace Parameter

/-- The letter of an option, if it has one. -/
def short? : Parameter → Option Char
  | switch .verbose => some 'v'
  | switch .quiet => some 'q'
  | switch .yes => some 'y'
  | slot .input => some 'i'
  | slot .output => some 'o'
  | switch .noSerializers | switch .allowRedefinition | slot .config => none

/-- The name of an option. -/
def long : Parameter → String
  | switch .verbose => "verbose"
  | switch .quiet => "quiet"
  | switch .yes => "yes"
  | switch .noSerializers => "no-serializers"
  | switch .allowRedefinition => "allow-redefinition"
  | slot .input => "input"
  | slot .output => "output"
  | slot .config => "config"

end Parameter

/-- The subcommands: generate a header, or print the schema. -/
inductive Subcommand where
  | gen
  | dump
deriving DecidableEq, Repr

/-- The subcommand of a name. -/
def Subcommand.ofName? : String → Option Subcommand
  | "gen" => some .gen
  | "dump" => some .dump
  | _ => none

/-- The options that can stand before the subcommand. They can stand after it too. -/
def commonParameters : List Parameter := [.switch .verbose, .switch .quiet]

/-- The options that can stand after a subcommand. -/
def Subcommand.parameters : Subcommand → List Parameter
  | .gen =>
    commonParameters ++
      [.slot .input, .slot .output, .slot .config, .switch .yes, .switch .noSerializers,
       .switch .allowRedefinition]
  | .dump => commonParameters ++ [.slot .input, .slot .config, .switch .allowRedefinition]

/-- What the arguments of one level have given so far. The next argument is the value of `pending`,
and after `--` the level is `closed` for options. -/
structure Given where
  switches : List Switch := []
  values : List (Slot × String) := []
  pending : Option Slot := none
  closed : Bool := false
deriving DecidableEq, Repr

namespace Given

/-- The value of an option. -/
def value? (given : Given) (slot : Slot) : Option String :=
  given.values.lookup slot

/-- Whether a switch was given. -/
def has (given : Given) (switch : Switch) : Bool :=
  decide (switch ∈ given.switches)

/-- Gives a switch, which must be new. -/
def addSwitch (given : Given) (switch : Switch) : Option Given :=
  if given.has switch then none else some { given with switches := given.switches ++ [switch] }

/-- Gives a value to an option, which must be new. The value must not be empty. -/
def addValue (given : Given) (slot : Slot) (value : List Char) : Option Given :=
  if value.isEmpty || (given.value? slot).isSome then none
  else some { given with values := given.values ++ [(slot, String.ofList value)], pending := none }

/-- Reads the letters of short options. An option with a value takes the rest of the letters as its
value, without an equals sign before it, or waits for the next argument if there are none. -/
def addLetters (known : List Parameter) (given : Given) : List Char → Option Given
  | [] => some given
  | letter :: rest =>
    match known.find? (·.short? == some letter) with
    | none => none
    | some (.switch switch) => (given.addSwitch switch).bind (addLetters known · rest)
    | some (.slot slot) =>
      match rest with
      | [] => some { given with pending := some slot }
      | '=' :: value => given.addValue slot value
      | value => given.addValue slot value

/-- Reads a long option without its hyphens. A value stands after the first equals sign, or in the
next argument. -/
def addLong (known : List Parameter) (given : Given) (text : List Char) : Option Given :=
  let name := text.takeWhile (· ≠ '=')
  match known.find? (·.long.toList == name), text.dropWhile (· ≠ '=') with
  | some (.switch switch), [] => given.addSwitch switch
  | some (.slot slot), [] => some { given with pending := some slot }
  | some (.slot slot), _ :: value => given.addValue slot value
  | _, _ => none

/-- Reads an argument after a subcommand. -/
def addArgument (known : List Parameter) (given : Given) (argument : String) : Option Given :=
  if given.closed then none
  else
    match given.pending, argument.toList with
    | some slot, ['-'] => given.addValue slot ['-']
    | some _, '-' :: _ => none
    | some slot, value => given.addValue slot value
    | none, ['-', '-'] => some { given with closed := true }
    | none, '-' :: '-' :: text => given.addLong known text
    | none, '-' :: letter :: letters => given.addLetters known (letter :: letters)
    | none, _ => none

/-- Reads the arguments of one level. No value may be missing at the end, and the log cannot be both
verbose and quiet. -/
def ofArguments (known : List Parameter) (arguments : List String) : Option Given := do
  let given ← arguments.foldlM (addArgument known) {}
  if given.pending.isSome || (given.has .verbose && given.has .quiet) then none else some given

end Given

/-- How much is logged: nothing, what the user should know, or everything. -/
inductive Verbosity where
  | quiet
  | normal
  | verbose
deriving DecidableEq, Repr

/-- What a run has to do with the schema: write a header to a file or else to the output, where
`overwrite` asks no questions, or print the schema as JSON. -/
inductive Task where
  | generate (output : Option String) (overwrite : Bool) (noSerializers : Bool)
  | dump
deriving DecidableEq, Repr

/-- A command line that was understood: the files with the schema and the compile options, whether
redefinitions are allowed whatever the options say, and what is to be done. -/
structure Invocation where
  verbosity : Verbosity
  input : String
  config : Option String
  allowRedefinition : Bool
  task : Task
deriving DecidableEq, Repr

namespace Invocation

/-- The verbosity that the switches of the two levels ask for. A verbose log wins over a quiet
one. -/
def verbosityOf (outer inner : Given) : Verbosity :=
  if outer.has .verbose || inner.has .verbose then .verbose
  else if outer.has .quiet || inner.has .quiet then .quiet
  else .normal

/-- The task of a subcommand. -/
def taskOf (subcommand : Subcommand) (given : Given) : Task :=
  match subcommand with
  | .gen => .generate (given.value? .output) (given.has .yes) (given.has .noSerializers)
  | .dump => .dump

/-- Whether an argument is an option or the mark that ends the options. -/
def isOption (argument : String) : Bool :=
  match argument.toList with
  | '-' :: _ :: _ => true
  | _ => false

/-- The command line, or nothing if it cannot be understood. The arguments up to the first one that
is no option are switches, that one names the subcommand, and the input must be given. -/
def ofArguments? (arguments : List String) : Option Invocation := do
  let outer ← Given.ofArguments commonParameters (arguments.takeWhile isOption)
  match arguments.dropWhile isOption with
  | [] => none
  | name :: rest =>
    let subcommand ← Subcommand.ofName? name
    if outer.closed then none
    else
      let inner ← Given.ofArguments subcommand.parameters rest
      let input ← inner.value? .input
      some
        { verbosity := verbosityOf outer inner
          input
          config := inner.value? .config
          allowRedefinition := inner.has .allowRedefinition
          task := taskOf subcommand inner }

end Invocation

end SchemaCompiler.Command
