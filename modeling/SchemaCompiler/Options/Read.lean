import SchemaCompiler.Json.Reader
import SchemaCompiler.Options

/-!
# Reading compile options

Options are written as a JSON object with a member for each setting, in any order, or as a JSON list
with the values in the order of `Setting.all`. A setting that is left out keeps its default; in a
list only the last ones can be left out. An unknown or repeated key is refused before its value is
looked at.
-/

namespace SchemaCompiler

/-- The settings that can be given. -/
inductive Setting where
  | allowRedefinition
  | serializers
  | banner
deriving DecidableEq, Repr

namespace Setting

/-- The settings in the order in which a list gives them. -/
def all : List Setting := [allowRedefinition, serializers, banner]

/-- The key of a setting. -/
def key : Setting → String
  | allowRedefinition => "allow_redefinition"
  | serializers => "serializers"
  | banner => "banner"

/-- The setting with the given key. -/
def ofKey? (key : String) : Option Setting :=
  all.find? (·.key == key)

/-- Reads the value of a setting into the options. -/
def read (setting : Setting) (options : Options) (text : List Char) :
    Except Json.Fault (Options × List Char) :=
  match setting with
  | allowRedefinition =>
    (Json.readFlag text).map fun (value, rest) =>
      ({ options with allowRedefinition := value }, rest)
  | serializers =>
    (Json.readFlag text).map fun (value, rest) => ({ options with serializers := value }, rest)
  | banner =>
    (Json.readTextList text).map fun (value, rest) => ({ options with banner := value }, rest)

end Setting

namespace Options

open Json

/-- Reads the values of the given settings from the items of a list, as many as there are. -/
def readItems (first : Bool) (options : Options) :
    List Setting → List Char → Except Fault (Options × List Char)
  | [], text => .ok (options, text)
  | setting :: settings, text => do
    let (more, text) ← nextItem first text
    if more then
      let (options, text) ← setting.read options text
      readItems false options settings text
    else .ok (options, text)

/-- Reads the closing bracket of a list after its last value. -/
def readListEnd (text : List Char) : Except Fault (List Char) :=
  match skipSpace text with
  | [] => .error (.before [] .endInList)
  | ']' :: rest => .ok rest
  | ',' :: rest =>
    match skipSpace rest with
    | ']' :: rest => .error (.seeing (']' :: rest) .trailingComma)
    | text => .error (.seeing text .trailingCharacters)
  | text => .error (.seeing text .trailingCharacters)

/-- Looks for the next key of an object, of which no member was read yet if `first` holds. Gives the
text after the opening quote of the key, or after the closing brace if there is no key. -/
def nextKey (first : Bool) (text : List Char) : Except Fault (Bool × List Char) :=
  match skipSpace text with
  | [] => .error (.before [] .endInObject)
  | '\x7d' :: rest => .ok (false, rest)
  | c :: rest =>
    if first then
      if c = '"' then .ok (true, rest) else .error (.seeing (c :: rest) .keyNotString)
    else if c = ',' then
      match skipSpace rest with
      | [] => .error (.before [] .endInValue)
      | '"' :: rest => .ok (true, rest)
      | '\x7d' :: rest => .error (.seeing ('\x7d' :: rest) .trailingComma)
      | text => .error (.seeing text .keyNotString)
    else .error (.seeing (c :: rest) .expectedObjectSeparator)

/-- Reads the colon after a key. -/
def readColon (text : List Char) : Except Fault (List Char) :=
  match skipSpace text with
  | [] => .error (.before [] .endInObject)
  | ':' :: rest => .ok rest
  | text => .error (.seeing text .expectedColon)

/-- The place where a refused key is reported: after the spaces that follow it, and after the
closing brace if that comes next. -/
def afterKey (text : List Char) : List Char :=
  match skipSpace text with
  | '\x7d' :: rest => rest
  | text => text

/-- Reads the members of an object and its closing brace. The settings in `pending` were not given
yet. -/
def readMembers (first : Bool) (pending : List Setting) (options : Options) (text : List Char) :
    Except Fault (Options × List Char) :=
  match nextKey first text with
  | .error fault => .error fault
  | .ok (false, rest) => .ok (options, rest)
  | .ok (true, rest) =>
    match readString rest with
    | .error fault => .error fault
    | .ok (key, rest) =>
      match Setting.ofKey? key with
      | none => .error (.before (afterKey rest) (.unknownKey key (Setting.all.map Setting.key)))
      | some setting =>
        if setting ∈ pending then
          match readColon rest with
          | .error fault => .error fault
          | .ok rest =>
            match setting.read options rest with
            | .error fault => .error fault
            | .ok (options, rest) => readMembers false (pending.erase setting) options rest
        else .error (.before (afterKey rest) (.duplicateKey key))
termination_by pending.length
decreasing_by
  rw [List.length_erase_of_mem ‹_›]
  exact Nat.sub_lt (List.length_pos_of_mem ‹_›) Nat.one_pos

/-- Reads options from the start of a text. -/
def readValue (text : List Char) : Except Fault (Options × List Char) :=
  match skipSpace text with
  | '[' :: rest => do
    let (options, rest) ← readItems true .default Setting.all rest
    let rest ← readListEnd rest
    .ok (options, rest)
  | '\x7b' :: rest => readMembers true Setting.all .default rest
  | text => .error (mismatch "struct CompileOptions" text)

/-- Reads options from a whole text. -/
def readAll (text : List Char) : Except Fault Options := do
  let (options, rest) ← readValue text
  match skipSpace rest with
  | [] => .ok options
  | rest => .error (.seeing rest .trailingCharacters)

end Options

/-- Why a text holds no options: what is wrong with it, and where. -/
structure OptionsError where
  cause : Json.Cause
  position : Json.Position
deriving DecidableEq, Repr

namespace OptionsError

/-- What the user reads about an error: the cause, and its line and column in the options. -/
def message (error : OptionsError) : String :=
  "JSON error: " ++ error.cause.description ++ " at line " ++ error.position.line.repr ++
    " column " ++ error.position.column.repr

/-- An error for the log, wrapped as an error of the options. -/
def details (error : OptionsError) : String :=
  "Json(Error(" ++ Text.literal error.cause.description ++ ", line: " ++
    error.position.line.repr ++ ", column: " ++ error.position.column.repr ++ "))"

end OptionsError

/-- The options that a text holds. -/
def Options.ofText (text : String) : Except OptionsError Options :=
  (Options.readAll text.toList).mapError fun fault =>
    ⟨fault.cause, fault.position text.toList⟩

end SchemaCompiler
